import OniroSoc.Support.Pool

/-!
# The vsync worker of the emulator display

`GetInstance` runs `Init` under `call_once`.  `Init` starts the worker thread and sets `mRunning`
after it, outside the mutex under which the worker reads it.  Instructions with `mMutex` held are
`critical`.
-/

namespace OniroSoc.Emulator.Vsync
open Support List

inductive Once where
  | idle
  | running
  | done
deriving DecidableEq

structure DrmVsyncWorker where
  (mThread mEnable mRunning locked : Bool := false)
  once : Once := .idle
  (spawned begun asleep exited destroying started cleared : Bool := false)
deriving DecidableEq

inductive Call where
  | enableVsync (enable : Bool)
  | reqesterVBlankCb
  | destroy
  | workThread
deriving DecidableEq

inductive Instr where
  | getInstance
  | init
  | spawn
  | assignThread
  | setRunning
  | onceDone
  | lockEnable (enable : Bool)
  | setEnable (enable : Bool)
  | lockClear
  | clearRunning
  | unlock
  | notify
  | join
  | lockWait
  | checkEnable
  | checkRunning
  | sleep
  | wake
  | leave
  | vblank
deriving DecidableEq

structure Env where
  fd : Int := 0
  spurious : Bool := false

def waiting (s : DrmVsyncWorker) (env : Env) : Instr → Bool
  | .getInstance => s.once = .running
  | .lockEnable _ | .lockClear | .lockWait => s.locked
  | .wake => s.locked || (s.asleep && !env.spurious)
  | .join => s.mThread && !s.exited
  | _ => false

def perform (s : DrmVsyncWorker) (env : Env) : Instr → DrmVsyncWorker × List Instr
  | .getInstance =>
    if s.once = .done then (s, []) else ({ s with once := .running }, [.init, .onceDone])
  | .init => if env.fd < 0 then (s, []) else (s, [.spawn, .assignThread, .setRunning])
  | .spawn => ({ s with spawned := true }, [])
  | .assignThread => ({ s with mThread := true }, [])
  | .setRunning => ({ s with mRunning := true, started := true }, [])
  | .onceDone => ({ s with once := .done }, [])
  | .lockEnable enable => ({ s with locked := true }, [.setEnable enable])
  | .setEnable enable => ({ s with mEnable := enable }, [.unlock, .notify])
  | .lockClear => ({ s with locked := true }, [.clearRunning])
  | .clearRunning => ({ s with mRunning := false, cleared := true }, [.unlock, .notify, .join])
  | .unlock => ({ s with locked := false }, [])
  | .notify => ({ s with asleep := false }, [])
  | .join => (s, [])
  | .lockWait => ({ s with locked := true }, [.checkEnable])
  | .checkEnable => (s, if s.mEnable then [.leave] else [.checkRunning])
  | .checkRunning => (s, if s.mRunning then [.sleep] else [.leave])
  | .sleep => ({ s with locked := false, asleep := true }, [.wake])
  | .wake => ({ s with locked := true, asleep := false }, [.checkEnable])
  | .leave =>
    if s.mRunning then ({ s with locked := false }, [.vblank, .lockWait])
    else ({ s with locked := false, exited := true }, [])
  | .vblank => (s, [])

def exec (s : DrmVsyncWorker) (env : Env) (instr : Instr) : Option (DrmVsyncWorker × List Instr) :=
  if waiting s env instr then none else some (perform s env instr)

def start (s : DrmVsyncWorker) : Call → Option (DrmVsyncWorker × List Instr)
  | .enableVsync enable => some (s, [.getInstance, .lockEnable enable])
  | .reqesterVBlankCb => some (s, [.getInstance])
  | .destroy =>
    if s.once = .idle ∨ s.destroying = true then none
    else some ({ s with destroying := true }, [.lockClear])
  | .workThread =>
    if s.spawned = true ∧ s.begun = false then some ({ s with begun := true }, [.lockWait])
      else none

def machine : Machine DrmVsyncWorker Instr Call Env := ⟨start, exec⟩

theorem exec_eq {s s' : DrmVsyncWorker} {env : Env} {instr : Instr} {todo : List Instr}
    (h : exec s env instr = some (s', todo)) :
    waiting s env instr = false ∧ s' = (perform s env instr).1 ∧ todo = (perform s env instr).2 :=
      Machine.exec_guarded h

/-- `Init` has started the worker and the destructor has not stopped it. -/
def MeantToRun (s : DrmVsyncWorker) : Prop := s.started = true ∧ s.cleared = false

structure Good (s : DrmVsyncWorker) (work : List Instr) : Prop where
  exited : s.exited = true → s.cleared = true
  asleep : s.asleep = true → .notify ∉ work → s.mEnable = false ∧ MeantToRun s

def Fits (s : DrmVsyncWorker) (rest : List Instr) (_ : Env) : Instr → Prop
  | .leave => s.started = true ∨ s.cleared = true
  | .sleep => s.cleared = true → .notify ∈ rest
  | _ => True

def critical : Instr → Bool
  | .setEnable _ | .clearRunning | .unlock | .checkEnable | .checkRunning | .sleep | .leave => true
  | _ => false

structure Inv (s : DrmVsyncWorker) (work : List Instr) : Prop where
  mutex : work.countP critical = s.locked.toNat
  running : s.mRunning = true → s.started = true
  kept : s.started = true → s.mRunning = true ∨ s.cleared = true
  exited : s.exited = true → s.cleared = true
  checked : .checkRunning ∈ work → s.mEnable = false
  drowsy : .sleep ∈ work → s.mEnable = false ∧ s.mRunning = true
  asleep : s.asleep = true → .notify ∈ work ∨ s.mEnable = false ∧ s.mRunning = true ∧ s.cleared =
    false

section Steps
variable {s s' : DrmVsyncWorker} {env : Env} {instr : Instr} {work work' rest todo : List Instr}

theorem Inv.good (h : Inv s work) : Good s work := by
  refine ⟨h.exited, fun hasleep hnone => ?_⟩
  obtain ⟨henable, hrunning, hcleared⟩ := (h.asleep hasleep).resolve_left hnone
  exact ⟨henable, h.running hrunning, hcleared⟩

theorem Inv.perm (h : Inv s work) (hp : work.Perm work') : Inv s work' :=
  { h with
    mutex := (hp.countP_eq critical).symm.trans h.mutex
    checked hmem := h.checked (hp.mem_iff.mpr hmem)
    drowsy hmem := h.drowsy (hp.mem_iff.mpr hmem)
    asleep ha := (h.asleep ha).imp_left hp.mem_iff.mp }

theorem Good.perm (h : Good s work) (hp : work.Perm work') : Good s work' :=
  ⟨h.exited, fun ha hnone => h.asleep ha (hnone ∘ hp.mem_iff.mp)⟩

section
variable (h : Inv s (instr :: rest))
include h

theorem Inv.alone (hcrit : critical instr = true) :
    s.locked = true ∧ ∀ other ∈ rest, critical other = false :=
      Machine.alone_of_countP h.mutex hcrit

theorem Inv.next (todo : List Instr) (locked : Bool)
    (hmutex : todo.countP critical + s.locked.toNat = [instr].countP critical + locked.toNat)
    (hinstr : instr ≠ .notify) (hchecked : .checkRunning ∈ todo → s.mEnable = false)
    (hdrowsy : .sleep ∈ todo → s.mEnable = false ∧ s.mRunning = true) :
    Inv { s with locked := locked } (todo ++ rest) :=
  { h with
    mutex := Machine.countP_next h.mutex hmutex
    checked hmem := (mem_append.mp hmem).elim hchecked fun hrest => h.checked (.tail _ hrest)
    drowsy hmem := (mem_append.mp hmem).elim hdrowsy fun hrest => h.drowsy (.tail _ hrest)
    asleep ha := (h.asleep ha).imp_left fun hmem =>
      mem_append_right _ (mem_of_ne_of_mem hinstr.symm hmem) }

theorem Inv.pass (todo : List Instr)
    (hmutex : todo.countP critical = [instr].countP critical) (hinstr : instr ≠ .notify)
    (hchecked : .checkRunning ∈ todo → s.mEnable = false)
    (hdrowsy : .sleep ∈ todo → s.mEnable = false ∧ s.mRunning = true) : Inv s (todo ++ rest) :=
  h.next todo s.locked (by rw [hmutex]) hinstr hchecked hdrowsy

theorem Inv.change (hcrit : critical instr = true)
    (hs' : s'.locked = s.locked) (hrunning : s'.mRunning = true → s'.started = true)
    (hkept : s'.started = true → s'.mRunning = true ∨ s'.cleared = true)
    (hexited : s'.exited = true → s'.cleared = true) (hmutex : todo.countP critical = 1)
    (hnotify : .notify ∈ todo) (hchecked : .checkRunning ∉ todo) (hdrowsy : .sleep ∉ todo) :
    Inv s' (todo ++ rest) := by
  obtain ⟨hlocked, halone⟩ := h.alone hcrit
  have hzero : rest.countP critical = 0 :=
    countP_eq_zero.mpr fun other hmem => by rw [halone other hmem]; decide
  refine ⟨?_, hrunning, hkept, hexited, fun hmem => ?_, fun hmem => ?_, fun _ => ?_⟩
  · rw [countP_append, hmutex, hzero, hs', hlocked]
    rfl
  · exact absurd (halone _ ((mem_append.mp hmem).resolve_left hchecked)) (by decide)
  · exact absurd (halone _ ((mem_append.mp hmem).resolve_left hdrowsy)) (by decide)
  · exact .inl (mem_append_left _ hnotify)

end

theorem Inv.setRunning (h : Inv s (.setRunning :: rest)) :
    Inv { s with mRunning := true, started := true } rest := by
  have hrest : Inv s rest := h.pass [] rfl nofun nofun nofun
  exact { hrest with
    running := fun _ => rfl
    kept := fun _ => .inl rfl
    drowsy := fun hmem => ⟨(hrest.drowsy hmem).1, rfl⟩
    asleep :=
      fun ha => (hrest.asleep ha).imp_right fun hdisabled => ⟨hdisabled.1, rfl, hdisabled.2.2⟩ }

theorem Inv.notify (h : Inv s (.notify :: rest)) : Inv { s with asleep := false } rest :=
  { h with
    checked hmem := h.checked (.tail _ hmem)
    drowsy hmem := h.drowsy (.tail _ hmem)
    asleep := nofun }

theorem Inv.sleep (h : Inv s (.sleep :: rest)) (hfits : s.cleared = true → .notify ∈ rest) :
    Inv { s with locked := false, asleep := true } (.wake :: rest) := by
  obtain ⟨hlocked, -⟩ := h.alone rfl
  have hunlocked : Inv { s with locked := false } (.wake :: rest) :=
    h.next [.wake] false (by rw [hlocked]; rfl) nofun nofun nofun
  obtain ⟨henable, hrunning⟩ := h.drowsy (.head _)
  refine { hunlocked with asleep := fun _ => ?_ }
  cases hcleared : s.cleared with
  | false => exact .inr ⟨henable, hrunning, rfl⟩
  | true => exact .inl (.tail _ (hfits hcleared))

theorem Inv.wake (h : Inv s (.wake :: rest)) (hlocked : s.locked = false) :
    Inv { s with locked := true, asleep := false } (.checkEnable :: rest) :=
  { h.next [.checkEnable] true (by rw [hlocked]; rfl) nofun nofun nofun with asleep := nofun }

theorem Inv.leave (h : Inv s (.leave :: rest)) (hstopped : s.mRunning = false)
    (hfits : s.started = true ∨ s.cleared = true) :
    Inv { s with locked := false, exited := true } rest := by
  obtain ⟨hlocked, -⟩ := h.alone rfl
  have hunlocked : Inv { s with locked := false } rest :=
    h.next [] false (by rw [hlocked]; rfl) nofun nofun nofun
  refine { hunlocked with exited := fun _ => ?_ }
  rcases hfits with hstarted | hcleared
  · exact (h.kept hstarted).resolve_left (by rw [hstopped]; decide)
  · exact hcleared

theorem inv_perform (h : Inv s (instr :: rest)) (hwait : waiting s env instr = false)
    (hfits : Fits s rest env instr) :
    Inv (perform s env instr).1 ((perform s env instr).2 ++ rest) := by
  cases instr with
  | getInstance =>
    rw [perform]
    split_ifs
    · exact h.pass _ rfl nofun nofun nofun
    · exact { h.pass [.init, .onceDone] rfl nofun (by simp) (by simp) with }
  | init =>
    rw [perform]
    split_ifs
    · exact h.pass _ rfl nofun nofun nofun
    · exact h.pass [.spawn, .assignThread, .setRunning] rfl nofun (by simp) (by simp)
  | spawn | assignThread | onceDone => exact { h.pass [] rfl nofun nofun nofun with }
  | setRunning => exact h.setRunning
  | lockEnable | lockClear | lockWait =>
    exact h.next _ true (by rw [show s.locked = false from hwait]; rfl) nofun nofun nofun
  | setEnable enable =>
    exact h.change rfl rfl h.running h.kept h.exited rfl (.tail _ (.head _)) nofun nofun
  | clearRunning =>
    exact h.change rfl rfl nofun (fun _ => .inr rfl) (fun _ => rfl) rfl
      (.tail _ (.head _)) nofun nofun
  | unlock => exact h.next _ false (by rw [(h.alone rfl).1]; rfl) nofun nofun nofun
  | notify => exact h.notify
  | join => exact h.pass _ rfl nofun nofun nofun
  | checkEnable =>
    rw [perform]
    split_ifs with henable
    · exact h.pass _ rfl nofun nofun nofun
    · exact h.pass _ rfl nofun (fun _ => Bool.eq_false_iff.mpr henable) nofun
  | checkRunning =>
    rw [perform]
    split_ifs with hrunning
    · exact h.pass _ rfl nofun nofun fun _ => ⟨h.checked (.head _), hrunning⟩
    · exact h.pass _ rfl nofun nofun nofun
  | sleep => exact h.sleep hfits
  | wake => exact h.wake (Bool.or_eq_false_iff.mp hwait).1
  | leave =>
    rw [perform]
    split_ifs with hrunning
    · exact h.next _ false (by rw [(h.alone rfl).1]; rfl) nofun (by simp) (by simp)
    · exact h.leave (Bool.eq_false_iff.mpr hrunning) hfits
  | vblank => exact h.pass _ rfl nofun nofun nofun

theorem not_good_perform (h : Inv s (instr :: rest)) (hfits : ¬ Fits s rest env instr) :
    ¬ Good (perform s env instr).1 ((perform s env instr).2 ++ rest) := by
  intro hgood
  cases instr with
  | sleep =>
    obtain ⟨hcleared, hnone⟩ := Classical.not_imp.mp hfits
    have hasleep : Instr.notify ∉ .wake :: rest := not_mem_cons_of_ne_of_not_mem nofun hnone
    have hmeant := (hgood.asleep rfl hasleep).2
    exact absurd (hmeant.2.symm.trans hcleared) nofun
  | leave =>
    obtain ⟨hstarted, hcleared⟩ := not_or.mp hfits
    have hstopped : s.mRunning = false :=
      Bool.eq_false_iff.mpr fun hrunning => hstarted (h.running hrunning)
    rw [perform, hstopped] at hgood
    exact hcleared (hgood.exited rfl)
  | _ => exact hfits trivial

theorem inv_start {call : Call} (h : Inv s work) (hstart : start s call = some (s', todo)) :
    Inv s' (todo ++ work) := by
  have hmore : ∀ todo : List Instr, todo.countP critical = 0 → .checkRunning ∉ todo →
      .sleep ∉ todo → Inv s (todo ++ work) := by
    intro todo hmutex hchecked hdrowsy
    refine { h with
      mutex := by rw [countP_append, hmutex, Nat.zero_add, h.mutex]
      checked := fun hmem => h.checked ((mem_append.mp hmem).resolve_left hchecked)
      drowsy := fun hmem => h.drowsy ((mem_append.mp hmem).resolve_left hdrowsy)
      asleep := fun ha => (h.asleep ha).imp_left (mem_append_right _) }
  cases call with
  | enableVsync enable =>
    cases hstart
    exact hmore _ rfl (by simp) (by simp)
  | reqesterVBlankCb =>
    cases hstart
    exact hmore _ rfl (by decide) (by decide)
  | destroy =>
    rw [start] at hstart
    split_ifs at hstart
    cases hstart
    exact { hmore [.lockClear] rfl (by decide) (by decide) with }
  | workThread =>
    rw [start] at hstart
    split_ifs at hstart
    cases hstart
    exact { hmore [.lockWait] rfl (by decide) (by decide) with }

end Steps

def FitsStep : Pool DrmVsyncWorker Instr → PoolAction Call Env → Prop :=
  Machine.Allowed (fun _ _ _ => True) Fits

/-- **The worker stays good** exactly if it never returns from `WaitSignalAndCheckRuning` before
`Init` has set `mRunning`, and never goes to sleep, with no notification to come, after the
destructor has cleared it. -/
theorem vsync_good_iff {actions : List (PoolAction Call Env)} {p : Pool DrmVsyncWorker Instr}
    (hrun : run machine.step ⟨{}, []⟩ actions = some p) :
    Always machine.step (fun p => Good p.shared p.work) ⟨{}, []⟩ actions ↔
      Along machine.step FitsStep ⟨{}, []⟩ actions := by
  refine always_iff_along (J := fun p => Inv p.shared p.work) (fun p h => h.good) ?_ ?_ hrun ?_
  · intro p a p' hI ha hs
    cases Machine.stepped hs with
    | starts h => exact (inv_start hI h).perm (flatten_concat_perm _ _).symm
    | runs hi h =>
      obtain ⟨hwait, rfl, rfl⟩ := exec_eq h
      have hbefore := hI.perm (flatten_perm_cons hi)
      exact (inv_perform hbefore hwait (ha _ _ hi)).perm (flatten_set_perm hi _).symm
  · intro p a p' hI ha hs hgood
    cases Machine.stepped hs with
    | starts h => exact ha trivial
    | runs hi h =>
      obtain ⟨-, rfl, rfl⟩ := exec_eq h
      have hbefore := hI.perm (flatten_perm_cons hi)
      refine not_good_perform hbefore (fun hfits => ha ?_) (hgood.perm (flatten_set_perm hi _))
      exact Machine.allowed_run hi hfits
  · exact ⟨rfl, nofun, nofun, nofun, nofun, nofun, nofun⟩

def lifecycle : List (PoolAction Call Env) :=
  [.start (.enableVsync true)] ++ List.replicate 10 (.run 0 {}) ++
  [.start .workThread] ++ List.replicate 4 (.run 1 {}) ++
  [.start (.enableVsync false)] ++ List.replicate 5 (.run 2 {}) ++ List.replicate 4 (.run 1 {}) ++
  [.start .destroy] ++ List.replicate 4 (.run 3 {}) ++ List.replicate 4 (.run 1 {}) ++ [.run 3 {}]

theorem vsync_good_lifecycle :
    Always machine.step (fun p => Good p.shared p.work) ⟨{}, []⟩ lifecycle := by
  refine (vsync_good_iff rfl).mpr ?_
  repeat first
    | exact trivial
    | refine along_cons trivial rfl ?_
    | refine along_cons (Machine.allowed_run rfl trivial) rfl ?_
    | refine along_cons (Machine.allowed_run rfl (.inl rfl)) rfl ?_
    | refine along_cons (Machine.allowed_run rfl nofun) rfl ?_

def overtaking : List (PoolAction Call Env) :=
  [.start (.enableVsync true)] ++ List.replicate 3 (.run 0 {}) ++
  [.start .workThread] ++ List.replicate 4 (.run 1 {}) ++ List.replicate 7 (.run 0 {})

theorem worker_gone :
    ∃ p, run machine.step ⟨{}, []⟩ overtaking = some p ∧ p.work = [] ∧ ¬ Good p.shared p.work ∧
      p.shared.exited = true ∧ p.shared.mEnable = true ∧ MeantToRun p.shared :=
  ⟨_, rfl, rfl, fun hgood => Bool.false_ne_true (hgood.exited rfl), rfl, rfl, rfl, rfl⟩

end OniroSoc.Emulator.Vsync

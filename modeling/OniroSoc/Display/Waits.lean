import OniroSoc.Support.Lookup
import OniroSoc.Support.Pool

/-!
# Who waits for whom in the composer

`mutex_` of the composer is not recursive.  Clients are called after it was released, from `OnVsync`
while it is held, and from the software-vsync threads; a handler may call the composer again.
`HandleHotplug` joins threads while it holds `mutex_`.
-/

namespace OniroSoc.Display.Waits
open Support List Function

inductive SwVsyncThread where
  | idle
  | created
  | running | ended
deriving DecidableEq

structure Entry where
  (object hwc2Id : Nat)

structure Composer where
  device : Bool
  locked : Bool := false
  displays : AList fun _ : UInt32 => Entry := ∅
  nextDevId : UInt32 := 0
  made : Nat := 0
  (hotplugCb hwc2CallbackRegistered listening : Bool := false)
  (vblankCb vsyncEnabled swVsyncRun : Nat → Bool := fun _ => false)
  swVsyncThread : Nat → SwVsyncThread := fun _ => .idle
  busy : Nat → Bool := fun _ => false

inductive Hdi where
  | regHotPlugCallback
  | regDisplayVBlankCallback (devId : UInt32) (cb : Bool)
  | setDisplayVsyncEnabled (devId : UInt32) (enabled : Bool)
  | other
deriving DecidableEq

inductive Event where
  | hotplug (hwc2Id : Nat) (connected : Bool)
  | vsync (hwc2Id : Nat)
deriving DecidableEq

inductive Instr where
  | event (e : Event)
  | hdi (call : Hdi)
  | snapshot
  | registerCallback
  | join (object : Nat)
  | unlock
  | hotplugCallback
  | hardwareVblank
  | softwareVblank (object : Nat)
  | swVsyncLoop (object : Nat)
deriving DecidableEq

inductive Call where
  | event (e : Event)
  | hdi (call : Hdi)
  | swVsyncThread (object : Nat)

structure Env where
  found : Bool := true
  first : UInt32 := 0
  events : List Event := []
  silent : Bool := true
  calls : List Hdi := []

namespace Composer

def matching (s : Composer) (env : Env) (hwc2Id : Nat) : Option (Sigma fun _ : UInt32 => Entry) :=
  match s.displays.entries.find? (fun entry => entry.1 = env.first ∧ entry.2.hwc2Id = hwc2Id) with
  | some entry => some entry
  | none => s.displays.entries.find? (·.2.hwc2Id = hwc2Id)

def fire (s : Composer) : List Instr := if s.hotplugCb then [.hotplugCallback] else []

def destroy (s : Composer) (object : Nat) : Composer × List Instr :=
  ({ s with swVsyncRun := Function.update s.swVsyncRun object false },
    if s.swVsyncThread object = .idle then [] else [.join object])

def erase (s : Composer) (devId : UInt32) : Composer × List Instr :=
  match s.displays.lookup devId with
  | some entry =>
    ({ (s.destroy entry.object).1 with displays := s.displays.erase devId },
      (s.destroy entry.object).2)
  | none => (s, [])

def destroyed (s : Composer) (env : Env) : Event → Option Nat
  | .hotplug _ true => if env.found then (s.displays.lookup s.nextDevId).map Entry.object else none
  | .hotplug hwc2Id false => (s.matching env hwc2Id).map (·.2.object)
  | .vsync _ => none

def handleHotplug (s : Composer) (env : Env) (hwc2Id : Nat)
    (connected : Bool) : Composer × List Instr :=
  if connected then
    if !env.found then (s, [.unlock])
    else
      let (s₁, joins) := s.erase s.nextDevId
      ({ s₁ with
        nextDevId := s.nextDevId + 1
        made := s₁.made + 1
        displays := s₁.displays.insert s.nextDevId ⟨s₁.made, hwc2Id⟩ }, joins ++ .unlock :: s.fire)
  else
    match s.matching env hwc2Id with
    | some entry =>
      let (s₁, joins) := s.erase entry.1
      (s₁, joins ++ .unlock :: s.fire)
    | none => (s, [.unlock])

def onVsync (s : Composer) (env : Env) (hwc2Id : Nat) : List Instr :=
  match s.matching env hwc2Id with
  | some entry => if s.vblankCb entry.2.object then [.hardwareVblank, .unlock] else [.unlock]
  | none => [.unlock]

def ensureSwVsyncThread (s : Composer) (object : Nat) : Composer :=
  if s.swVsyncRun object then s
  else { s with
    swVsyncRun := Function.update s.swVsyncRun object true
    swVsyncThread := Function.update s.swVsyncThread object .created }

def hdi (s : Composer) : Hdi → Composer × List Instr
  | .regHotPlugCallback =>
    let s := { s with hotplugCb := true }
    if !s.hwc2CallbackRegistered && s.device then
      ({ s with hwc2CallbackRegistered := true }, [.unlock, .registerCallback])
    else (s, [.unlock, .snapshot])
  | .regDisplayVBlankCallback devId cb =>
    match s.displays.lookup devId with
    | some display =>
      ({ s with vblankCb := Function.update s.vblankCb display.object cb }, [.unlock])
    | none => (s, [.unlock])
  | .setDisplayVsyncEnabled devId enabled =>
    match s.displays.lookup devId with
    | some display =>
      let s := { s with vsyncEnabled := Function.update s.vsyncEnabled display.object enabled }
      (if enabled then s.ensureSwVsyncThread display.object else s, [.unlock])
    | none => (s, [.unlock])
  | .other => (s, [.unlock])

def swVsyncLoop (s : Composer) (env : Env) (object : Nat) : Composer × List Instr :=
  let s := { s with busy := Function.update s.busy object false }
  if !s.swVsyncRun object
    then ({ s with swVsyncThread := Function.update s.swVsyncThread object .ended }, [])
  else if env.silent && s.vsyncEnabled object && s.vblankCb object then
    (s, [.softwareVblank object, .swVsyncLoop object])
  else (s, [.swVsyncLoop object])

end Composer

def Instr.locks : Instr → Bool
  | .event _ | .hdi _ | .snapshot => true
  | _ => false

def perform (s : Composer) (env : Env) : Instr → Composer × List Instr
  | .event (.hotplug hwc2Id connected) =>
    { s with locked := true }.handleHotplug env hwc2Id connected
  | .event (.vsync hwc2Id) => ({ s with locked := true }, s.onVsync env hwc2Id)
  | .hdi call => { s with locked := true }.hdi call
  | .snapshot =>
    ({ s with locked := true }, .unlock :: s.displays.keys.map fun _ => .hotplugCallback)
  | .registerCallback => ({ s with listening := true }, env.events.map .event)
  | .join _ => (s, [])
  | .unlock => ({ s with locked := false }, [])
  | .hotplugCallback | .hardwareVblank => (s, env.calls.map .hdi)
  | .softwareVblank object =>
    ({ s with busy := Function.update s.busy object !env.calls.isEmpty }, env.calls.map .hdi)
  | .swVsyncLoop object => s.swVsyncLoop env object

def waiting (s : Composer) : Instr → Bool
  | .join object => s.swVsyncThread object ≠ .ended
  | instr => instr.locks && s.locked

variable {s : Composer}

theorem waiting_eq {instr : Instr} (h : instr.locks = true) : waiting s instr = s.locked := by
  cases instr with
  | event e => exact Bool.true_and _
  | hdi call => exact Bool.true_and _
  | snapshot => exact Bool.true_and _
  | _ => cases h

def exec (s : Composer) (env : Env) (instr : Instr) : Option (Composer × List Instr) :=
  if waiting s instr then none else some (perform s env instr)

theorem exec_eq {s' : Composer} {env : Env} {instr : Instr} {todo : List Instr}
    (h : exec s env instr = some (s', todo)) :
    waiting s instr = false ∧ s' = (perform s env instr).1 ∧ todo = (perform s env instr).2 :=
  Machine.exec_guarded h

def start (s : Composer) : Call → Option (Composer × List Instr)
  | .event e => if s.listening then some (s, [.event e]) else none
  | .hdi call => some (s, [.hdi call])
  | .swVsyncThread object =>
    if s.swVsyncThread object = .created then
      some ({ s with swVsyncThread := Function.update s.swVsyncThread object .running },
        [.swVsyncLoop object])
    else none

variable {program : List Instr}

theorem start_cases {s' : Composer} {call : Call} (h : start s call = some (s', program)) :
    (s' = s ∧ ∃ instr, instr.locks = true ∧ program = [instr]) ∨
      ∃ object, s.swVsyncThread object = .created ∧ program = [.swVsyncLoop object] ∧
        s' = { s with swVsyncThread := Function.update s.swVsyncThread object .running } := by
  cases call with
  | event e =>
    rw [start] at h
    split_ifs at h
    cases h
    exact .inl ⟨rfl, .event e, rfl, rfl⟩
  | hdi call =>
    cases h
    exact .inl ⟨rfl, .hdi call, rfl, rfl⟩
  | swVsyncThread object =>
    rw [start] at h
    split_ifs at h with hcreated
    cases h
    exact .inr ⟨object, hcreated, rfl, rfl⟩

def machine : Machine Composer Instr Call Env := ⟨start, exec⟩

def Safe (s : Composer) (_ : List Instr) (env : Env) : Instr → Prop
  | .event e => ∀ object ∈ s.destroyed env e, s.busy object = false
  | .hardwareVblank => env.calls = []
  | .softwareVblank object => env.calls = [] ∨ s.swVsyncRun object = true
  | _ => True

def Instr.plain : Instr → Bool
  | .event _ | .hdi _ | .snapshot | .registerCallback | .hotplugCallback => true
  | _ => false

inductive Calm : List Instr → Prop where
  | nil : Calm []
  | cons {instr : Instr} {rest : List Instr} (h : instr.plain = true) (hrest : Calm rest) : Calm
    (instr :: rest)
  | loop (object : Nat) : Calm [.swVsyncLoop object]
  | tick (object : Nat) : Calm [.softwareVblank object, .swVsyncLoop object]

inductive Holding : List Instr → Prop where
  | unlock {rest : List Instr} (hrest : Calm rest) : Holding (.unlock :: rest)
  | join (object : Nat) {rest : List Instr} (hrest : Holding rest) : Holding (.join object :: rest)
  | hardwareVblank {rest : List Instr} (hrest : Holding rest) : Holding (.hardwareVblank :: rest)

def holds (program : List Instr) : Bool := program.contains .unlock

theorem Calm.holds_eq (h : Calm program) : holds program = false := by
  induction h with
  | nil => rfl
  | cons h hrest ih =>
    rename_i instr rest
    rw [holds, contains_cons, ← holds, ih]
    cases instr <;> first | rfl | cases h
  | loop object => rfl
  | tick object => rfl

theorem Holding.holds_eq (h : Holding program) : holds program = true := by
  induction h with
  | unlock hrest => rfl
  | join object hrest ih => exact ih
  | hardwareVblank hrest ih => exact ih

theorem Calm.append {todo rest : List Instr} (htodo : ∀ instr ∈ todo, instr.plain = true)
    (hrest : Calm rest) : Calm (todo ++ rest) := by
  induction todo with
  | nil => exact hrest
  | cons instr todo ih =>
    obtain ⟨hinstr, htodo⟩ := forall_mem_cons.mp htodo
    exact .cons hinstr (ih htodo)

structure Tidy (s : Composer) (work : List Instr) : Prop where
  loops : ∀ object, work.count (.swVsyncLoop object) = if s.swVsyncThread object = .running then 1
    else 0
  joins : ∀ object, .join object ∈ work → s.swVsyncRun object = false ∧
    s.swVsyncThread object ≠ .idle
  busy : ∀ object, s.busy object = true → s.swVsyncRun object = true
  live : ∀ devId entry, s.displays.lookup devId = some entry →
    entry.object < s.made ∧
    (s.swVsyncRun entry.object = false → s.swVsyncThread entry.object = .idle)
  distinct : ∀ devId devId' entry entry', s.displays.lookup devId = some entry →
    s.displays.lookup devId' = some entry' → entry.object = entry'.object → devId = devId'
  fresh : ∀ object, s.made ≤ object → s.swVsyncThread object = .idle ∧ s.swVsyncRun object = false

section Tidy
variable {s s' : Composer} {rest todo : List Instr} {env : Env} {instr : Instr} {object : Nat}
  {work : List Instr}

theorem Tidy.congr {work' : List Instr} (ht : Tidy s work) (h : work.Perm work') : Tidy s work' :=
  { ht with
    loops := fun object => (h.count_eq _).symm.trans (ht.loops object)
    joins := fun object hmem => ht.joins object (h.mem_iff.mpr hmem) }

theorem Tidy.running (ht : Tidy s (.swVsyncLoop object :: rest)) :
    s.swVsyncThread object = .running := by
  by_contra hne
  have hcount := ht.loops object
  rw [if_neg hne, count_cons_self] at hcount
  cases hcount

theorem Tidy.quiet (ht : Tidy s (instr :: rest)) (hinstr : ∀ object, instr ≠ .swVsyncLoop object)
    (hloops : ∀ object, .swVsyncLoop object ∉ todo) (hjoins : ∀ object, .join object ∉ todo) :
    Tidy s (todo ++ rest) := by
  refine { ht with loops := fun object => ?_, joins := fun object hmem => ?_ }
  · rw [← ht.loops object, count_append, count_eq_zero.mpr (hloops object), Nat.zero_add,
      count_cons_of_ne (hinstr object)]
  · exact ht.joins object (.tail _ ((mem_append.mp hmem).resolve_left (hjoins object)))

variable {work : List Instr}

theorem Tidy.same (ht : Tidy s work) (hthread : s'.swVsyncThread = s.swVsyncThread)
    (hrun : s'.swVsyncRun = s.swVsyncRun) (hbusy : s'.busy = s.busy) (hmade : s'.made = s.made)
    (hdisplays : ∀ devId, s'.displays.lookup devId = s.displays.lookup devId) : Tidy s' work := by
  refine ⟨?_, ?_, ?_, ?_, ?_, ?_⟩
  · rw [hthread]
    exact ht.loops
  · rw [hthread, hrun]
    exact ht.joins
  · rw [hbusy, hrun]
    exact ht.busy
  · rw [hthread, hrun, hmade]
    exact fun devId entry h => ht.live devId entry ((hdisplays devId).symm.trans h)
  · exact fun devId devId' entry entry' h h' => ht.distinct devId devId' entry entry'
      ((hdisplays devId).symm.trans h) ((hdisplays devId').symm.trans h')
  · rw [hthread, hrun, hmade]
    exact ht.fresh

variable {devId : UInt32}

theorem Tidy.destroy (ht : Tidy s work) {entry : Entry}
    (hentry : s.displays.lookup devId = some entry) (hbusy : s.busy entry.object = false) :
    Tidy { (s.destroy entry.object).1 with displays := s.displays.erase devId }
      ((s.destroy entry.object).2 ++ work) := by
  have hrun : ∀ {object}, s.swVsyncRun object = false →
      Function.update s.swVsyncRun entry.object false object = false := by
    intro object h
    rw [update_apply]
    split_ifs
    · rfl
    · exact h
  have hjoins : ∀ instr ∈ (s.destroy entry.object).2,
      instr = .join entry.object ∧ s.swVsyncThread entry.object ≠ .idle := by
    intro instr hmem
    rw [Composer.destroy] at hmem
    dsimp only at hmem
    split_ifs at hmem with hidle
    · cases hmem
    · exact ⟨mem_singleton.mp hmem, hidle⟩
  refine ⟨fun object => ?_, fun object hmem => ?_, fun object h => ?_, fun devId' entry' h => ?_,
    ?_, ?_⟩
  · have hnone : .swVsyncLoop object ∉ (s.destroy entry.object).2 :=
      fun hmem => nomatch (hjoins _ hmem).1
    rw [count_append, count_eq_zero.mpr hnone, Nat.zero_add]
    exact ht.loops object
  · rcases mem_append.mp hmem with hmem | hmem
    · obtain ⟨heq, hidle⟩ := hjoins _ hmem
      cases heq
      exact ⟨update_self .., hidle⟩
    · exact ⟨hrun (ht.joins object hmem).1, (ht.joins object hmem).2⟩
  · have hne : object ≠ entry.object := by
      rintro rfl
      cases hbusy.symm.trans h
    exact (update_of_ne hne ..).trans (ht.busy object h)
  · obtain ⟨hne, h⟩ := lookup_erase_eq_some_iff.mp h
    have hobject : entry'.object ≠ entry.object := fun heq => hne (ht.distinct _ _ _ _ h hentry heq)
    refine ⟨(ht.live devId' entry' h).1, fun hstop => (ht.live devId' entry' h).2 ?_⟩
    exact (update_of_ne hobject ..).symm.trans hstop
  · exact fun _ _ _ _ h h' => ht.distinct _ _ _ _ (lookup_erase_eq_some_iff.mp h).2
      (lookup_erase_eq_some_iff.mp h').2
  · exact fun object h => ⟨(ht.fresh object h).1, hrun (ht.fresh object h).2⟩

theorem Tidy.insert (ht : Tidy s work) (devId : UInt32) (hwc2Id : Nat) :
    Tidy { s with made := s.made + 1, displays := s.displays.insert devId ⟨s.made, hwc2Id⟩ }
      work := by
  refine ⟨ht.loops, ht.joins, ht.busy, fun devId' entry h => ?_, ?_, ?_⟩
  · rcases lookup_insert_eq_some_iff.mp h with ⟨-, rfl⟩ | ⟨-, h⟩
    · exact ⟨Nat.lt_succ_self _, fun _ => (ht.fresh _ le_rfl).1⟩
    · exact ⟨Nat.lt_succ_of_lt (ht.live devId' entry h).1, (ht.live devId' entry h).2⟩
  · intro devId₁ devId₂ entry₁ entry₂ h₁ h₂ heq
    rcases lookup_insert_eq_some_iff.mp h₁ with ⟨rfl, rfl⟩ | ⟨-, hold₁⟩ <;>
      rcases lookup_insert_eq_some_iff.mp h₂ with ⟨rfl, rfl⟩ | ⟨-, hold₂⟩
    · rfl
    · exact absurd (heq ▸ (ht.live _ _ hold₂).1) (lt_irrefl _)
    · exact absurd (heq ▸ (ht.live _ _ hold₁).1) (lt_irrefl _)
    · exact ht.distinct _ _ _ _ hold₁ hold₂ heq
  · exact fun object h => ht.fresh object (Nat.le_of_succ_le h)

theorem Tidy.ensureSwVsyncThread (ht : Tidy s work) {entry : Entry}
    (hentry : s.displays.lookup devId = some entry) :
    Tidy (s.ensureSwVsyncThread entry.object) work := by
  rw [Composer.ensureSwVsyncThread]
  cases hrun : s.swVsyncRun entry.object with
  | true => exact ht
  | false =>
    obtain ⟨hmade, hidle⟩ := ht.live devId entry hentry
    have hidle := hidle hrun
    refine ⟨fun object => ?_, fun object hmem => ?_, fun object h => ?_, fun devId' entry' h => ?_,
      ht.distinct, fun object h => ?_⟩
    · rw [ht.loops object]
      by_cases heq : object = entry.object
      · subst heq
        simp [hidle]
      · simp [update_of_ne heq]
    · obtain ⟨hstop, hthread⟩ := ht.joins object hmem
      have hne : object ≠ entry.object := by
        rintro rfl
        exact hthread hidle
      simp [update_of_ne hne, hstop, hthread]
    · by_cases heq : object = entry.object
      · subst heq
        exact update_self ..
      · exact (update_of_ne heq ..).trans (ht.busy object h)
    · refine ⟨(ht.live devId' entry' h).1, fun hstop => ?_⟩
      have hne : entry'.object ≠ entry.object := by
        intro heq
        simp [heq] at hstop
      have hstop' : s.swVsyncRun entry'.object = false := (update_of_ne hne ..).symm.trans hstop
      exact (update_of_ne hne ..).trans ((ht.live devId' entry' h).2 hstop')
    · have hne : object ≠ entry.object := by
        rintro rfl
        exact absurd hmade (not_lt.mpr h)
      exact ⟨(update_of_ne hne ..).trans (ht.fresh object h).1,
        (update_of_ne hne ..).trans (ht.fresh object h).2⟩

variable {hwc2Id : Nat}

theorem lookup_of_matching {found : Sigma fun _ : UInt32 => Entry}
    (h : s.matching env hwc2Id = some found) : s.displays.lookup found.1 = some found.2 := by
  have hmem : found ∈ s.displays.entries := by
    rw [Composer.matching] at h
    split at h
    · rename_i hfirst
      cases h
      exact mem_of_find?_eq_some hfirst
    · exact mem_of_find?_eq_some h
  exact AList.mem_lookup_iff.mpr hmem

theorem Tidy.erase (ht : Tidy s work)
    (hbusy : ∀ entry, s.displays.lookup devId = some entry → s.busy entry.object = false) :
    Tidy (s.erase devId).1 ((s.erase devId).2 ++ work) := by
  rw [Composer.erase]
  cases hentry : s.displays.lookup devId with
  | none => exact ht
  | some entry => exact ht.destroy hentry (hbusy entry hentry)

theorem Tidy.add (ht : Tidy s work) (hloops : ∀ object, .swVsyncLoop object ∉ todo)
    (hjoins : ∀ object, .join object ∉ todo) : Tidy s (todo ++ work) := by
  refine { ht with loops := fun object => ?_, joins := fun object hmem => ?_ }
  · rw [count_append, count_eq_zero.mpr (hloops object), Nat.zero_add]
    exact ht.loops object
  · exact ht.joins object ((mem_append.mp hmem).resolve_left (hjoins object))

theorem mem_fire (h : instr ∈ s.fire) : instr = .hotplugCallback := by
  rw [Composer.fire] at h
  split_ifs at h
  · exact mem_singleton.mp h
  · cases h

/-- A hotplug is ignored, or it erases the display under one id and, on a connection, enters the new
one. -/
theorem handleHotplug_cases (s : Composer) (env : Env) (hwc2Id : Nat) (connected : Bool) :
    (s.destroyed env (.hotplug hwc2Id connected) = none ∧
      s.handleHotplug env hwc2Id connected = (s, [.unlock])) ∨
    ∃ devId s₁, s.destroyed env (.hotplug hwc2Id connected) =
      (s.displays.lookup devId).map Entry.object ∧
      s.handleHotplug env hwc2Id connected = (s₁, (s.erase devId).2 ++ .unlock :: s.fire) ∧
      (s₁ = (s.erase devId).1 ∨
        s₁ = { (s.erase devId).1 with
          nextDevId := s.nextDevId + 1
          made := (s.erase devId).1.made + 1
          displays :=
            (s.erase devId).1.displays.insert s.nextDevId ⟨(s.erase devId).1.made, hwc2Id⟩ }) := by
  rw [Composer.handleHotplug]
  cases connected with
  | true =>
    rw [Composer.destroyed]
    cases env.found with
    | false => exact .inl ⟨rfl, rfl⟩
    | true => exact .inr ⟨s.nextDevId, _, rfl, rfl, .inr rfl⟩
  | false =>
    rw [Composer.destroyed]
    cases hmatch : s.matching env hwc2Id with
    | none => exact .inl ⟨rfl, rfl⟩
    | some found =>
      refine .inr ⟨found.1, _, ?_, rfl, .inl rfl⟩
      rw [lookup_of_matching hmatch]
      rfl

theorem Tidy.unlock_fire {joins : List Instr} (ht : Tidy s' (joins ++ work)) :
    Tidy s' ((joins ++ .unlock :: s.fire) ++ work) := by
  have hadd : Tidy s' ((.unlock :: s.fire) ++ (joins ++ work)) := by
    refine ht.add (fun object hmem => ?_) (fun object hmem => ?_)
    · rcases (mem_cons.mp hmem).imp_right mem_fire with h | h <;> cases h
    · rcases (mem_cons.mp hmem).imp_right mem_fire with h | h <;> cases h
  refine hadd.congr ?_
  rw [← append_assoc]
  exact perm_append_comm.append_right work

theorem Tidy.handleHotplug {connected : Bool} (ht : Tidy s work)
    (hbusy : ∀ object ∈ s.destroyed env (.hotplug hwc2Id connected), s.busy object = false) :
    Tidy (s.handleHotplug env hwc2Id connected).1
      ((s.handleHotplug env hwc2Id connected).2 ++ work) := by
  obtain ⟨-, heq⟩ | ⟨devId, s₁, hdestroyed, heq, hs₁⟩ := handleHotplug_cases s env hwc2Id connected
  · rw [heq]
    exact ht.add (by simp) (by simp)
  · rw [hdestroyed] at hbusy
    have herase := ht.erase fun entry hentry => hbusy _ (Option.mem_map_of_mem _ hentry)
    rw [heq]
    rcases hs₁ with rfl | rfl
    · exact herase.unlock_fire
    · exact (herase.insert s.nextDevId hwc2Id).unlock_fire.same rfl rfl rfl rfl fun _ => rfl

theorem frame_ensureSwVsyncThread (s : Composer) (object : Nat) :
    (s.ensureSwVsyncThread object).locked = s.locked ∧
    (s.ensureSwVsyncThread object).busy = s.busy := by
  rw [Composer.ensureSwVsyncThread]
  split_ifs <;> exact ⟨rfl, rfl⟩

theorem hdi_cases (s : Composer) (call : Hdi) :
    ((s.hdi call).1.locked = s.locked ∧ (s.hdi call).1.busy = s.busy) ∧
    ((s.hdi call).2 = [.unlock] ∨ ∃ next, (s.hdi call).2 = [.unlock, next] ∧
      (next = .registerCallback ∨ next = .snapshot)) := by
  cases call with
  | regHotPlugCallback =>
    rw [Composer.hdi]
    dsimp only
    split_ifs
    · exact ⟨⟨rfl, rfl⟩, .inr ⟨_, rfl, .inl rfl⟩⟩
    · exact ⟨⟨rfl, rfl⟩, .inr ⟨_, rfl, .inr rfl⟩⟩
  | regDisplayVBlankCallback devId cb =>
    rw [Composer.hdi]
    split <;> exact ⟨⟨rfl, rfl⟩, .inl rfl⟩
  | setDisplayVsyncEnabled devId enabled =>
    rw [Composer.hdi]
    split
    · dsimp only
      split_ifs
      · exact ⟨frame_ensureSwVsyncThread _ _, .inl rfl⟩
      · exact ⟨⟨rfl, rfl⟩, .inl rfl⟩
    · exact ⟨⟨rfl, rfl⟩, .inl rfl⟩
  | other => exact ⟨⟨rfl, rfl⟩, .inl rfl⟩

theorem mem_hdi {call : Hdi} (h : instr ∈ (s.hdi call).2) :
    instr = .unlock ∨ instr = .registerCallback ∨ instr = .snapshot := by
  rcases (hdi_cases s call).2 with heq | ⟨next, heq, hnext⟩ <;> rw [heq] at h
  · exact .inl (mem_singleton.mp h)
  · refine (mem_cons.mp h).imp_right fun h => ?_
    rw [mem_singleton.mp h]
    exact hnext

theorem Tidy.hdi (ht : Tidy s work) (call : Hdi) :
    Tidy (s.hdi call).1 ((s.hdi call).2 ++ work) := by
  refine Tidy.add ?_ (fun object hmem => ?_) (fun object hmem => ?_)
  · cases call with
    | regHotPlugCallback =>
      rw [Composer.hdi]
      dsimp only
      split_ifs <;> exact ht.same rfl rfl rfl rfl fun _ => rfl
    | regDisplayVBlankCallback devId cb =>
      rw [Composer.hdi]
      split
      · exact ht.same rfl rfl rfl rfl fun _ => rfl
      · exact ht
    | setDisplayVsyncEnabled devId enabled =>
      rw [Composer.hdi]
      split
      · rename_i entry hentry
        have hsame : Tidy { s with vsyncEnabled := Function.update s.vsyncEnabled entry.object enabled } work :=
          ht.same rfl rfl rfl rfl fun _ => rfl
        dsimp only
        split_ifs
        · exact hsame.ensureSwVsyncThread hentry
        · exact hsame
      · exact ht
    | other => exact ht
  · rcases mem_hdi hmem with h | h | h <;> cases h
  · rcases mem_hdi hmem with h | h | h <;> cases h

theorem Tidy.setBusy (ht : Tidy s work) (object : Nat) {busy : Bool}
    (h : busy = true → s.swVsyncRun object = true) :
    Tidy { s with busy := Function.update s.busy object busy } work := by
  refine { ht with busy := fun object' hbusy => ?_ }
  dsimp only at hbusy
  by_cases heq : object' = object
  · subst heq
    rw [update_self] at hbusy
    exact h hbusy
  · rw [update_of_ne heq] at hbusy
    exact ht.busy object' hbusy

theorem Tidy.setThread {work' : List Instr} {thread : SwVsyncThread} (ht : Tidy s work)
    (hthread : thread ≠ .idle) (hbefore : s.swVsyncThread object ≠ .idle)
    (hloop : work'.count (.swVsyncLoop object) = if thread = .running then 1 else 0)
    (hothers : ∀ object' ≠ object,
    work'.count (.swVsyncLoop object') = work.count (.swVsyncLoop object'))
    (hjoins : ∀ object', .join object' ∈ work' → .join object' ∈ work) :
    Tidy { s with swVsyncThread := Function.update s.swVsyncThread object thread } work' := by
  refine ⟨fun object' => ?_, fun object' hmem => ?_, ht.busy, fun devId entry h => ?_, ht.distinct,
    fun object' h => ?_⟩
  · by_cases heq : object' = object
    · subst heq
      simpa using hloop
    · rw [hothers object' heq, ht.loops object']
      simp only [update_of_ne heq]
  · obtain ⟨hstop, hidle⟩ := ht.joins object' (hjoins object' hmem)
    refine ⟨hstop, ?_⟩
    dsimp only
    by_cases heq : object' = object
    · subst heq
      rwa [update_self]
    · rwa [update_of_ne heq]
  · obtain ⟨hmade, hidle⟩ := ht.live devId entry h
    refine ⟨hmade, fun hstop => ?_⟩
    have hne : entry.object ≠ object := by
      rintro rfl
      exact hbefore (hidle hstop)
    exact (update_of_ne hne ..).trans (hidle hstop)
  · have hne : object' ≠ object := by
      rintro rfl
      exact hbefore (ht.fresh object' h).1
    exact ⟨(update_of_ne hne ..).trans (ht.fresh object' h).1, (ht.fresh object' h).2⟩

theorem Tidy.ended (ht : Tidy s (.swVsyncLoop object :: rest)) :
    Tidy { s with swVsyncThread := Function.update s.swVsyncThread object .ended } rest := by
  have hrunning := ht.running
  refine ht.setThread nofun (by rw [hrunning]; exact nofun) ?_ (fun object' hne => ?_)
    fun _ => mem_cons_of_mem _
  · have hcount := ht.loops object
    rw [if_pos hrunning, count_cons_self] at hcount
    exact Nat.succ.inj hcount
  · exact (count_cons_of_ne (by simpa using Ne.symm hne)).symm

theorem Tidy.swVsyncLoop (ht : Tidy s (.swVsyncLoop object :: rest)) :
    Tidy (s.swVsyncLoop env object).1 ((s.swVsyncLoop env object).2 ++ rest) := by
  have hidle : Tidy { s with busy := Function.update s.busy object false }
      (.swVsyncLoop object :: rest) :=
    ht.setBusy object nofun
  rw [Composer.swVsyncLoop]
  dsimp only
  cases hrun : s.swVsyncRun object with
  | false => exact hidle.ended
  | true =>
    rw [if_neg (by simp)]
    split_ifs
    · show Tidy _ ([.softwareVblank object] ++ (.swVsyncLoop object :: rest))
      exact hidle.add (by simp) (by simp)
    · exact hidle

theorem mem_onVsync (h : instr ∈ s.onVsync env hwc2Id) :
    instr = .hardwareVblank ∨ instr = .unlock := by
  rw [Composer.onVsync] at h
  split at h
  · split_ifs at h
    · simpa using h
    · exact .inr (by simpa using h)
  · exact .inr (by simpa using h)

theorem Tidy.exec (ht : Tidy s (instr :: rest)) (hsafe : Safe s rest env instr)
    (hexec : exec s env instr = some (s', todo)) : Tidy s' (todo ++ rest) := by
  obtain ⟨-, rfl, rfl⟩ := exec_eq hexec
  have hrest : (∀ object, instr ≠ .swVsyncLoop object) → Tidy s rest := by
    intro h
    have hquiet : Tidy s ([] ++ rest) := ht.quiet h (by simp) (by simp)
    exact hquiet
  have hlocked : (∀ object, instr ≠ .swVsyncLoop object) → Tidy { s with locked := true } rest :=
    fun h => (hrest h).same rfl rfl rfl rfl fun _ => rfl
  have hcalls : ∀ {s : Composer}, Tidy s rest → Tidy s (env.calls.map .hdi ++ rest) := fun ht =>
    ht.add (by simp) (by simp)
  cases instr with
  | event e =>
    cases e with
    | hotplug hwc2Id connected => exact (hlocked nofun).handleHotplug hsafe
    | vsync hwc2Id =>
      refine (hlocked nofun).add (fun object h => ?_) (fun object h => ?_)
      · rcases mem_onVsync h with h | h <;> cases h
      · rcases mem_onVsync h with h | h <;> cases h
  | hdi call => exact (hlocked nofun).hdi call
  | snapshot => exact (hlocked nofun).add (by simp [perform]) (by simp [perform])
  | registerCallback =>
    have hlistening : Tidy { s with listening := true } rest :=
      (hrest nofun).same rfl rfl rfl rfl fun _ => rfl
    exact hlistening.add (by simp [perform]) (by simp [perform])
  | join object => exact hrest nofun
  | unlock => exact (hrest nofun).same rfl rfl rfl rfl fun _ => rfl
  | hotplugCallback => exact hcalls (hrest nofun)
  | hardwareVblank => exact hcalls (hrest nofun)
  | softwareVblank object =>
    refine hcalls ((hrest nofun).setBusy object fun hbusy => hsafe.resolve_left fun hnone => ?_)
    rw [hnone] at hbusy
    cases hbusy
  | swVsyncLoop object => exact ht.swVsyncLoop

theorem Tidy.start {program : List Instr} {call : Call} (ht : Tidy s work)
    (hstart : start s call = some (s', program)) : Tidy s' (program ++ work) := by
  rcases start_cases hstart with ⟨rfl, instr, hlocks, rfl⟩ | ⟨object, hcreated, rfl, rfl⟩
  · refine ht.add (fun object h => ?_) (fun object h => ?_)
    · cases mem_singleton.mp h
      cases hlocks
    · cases mem_singleton.mp h
      cases hlocks
  · refine ht.setThread nofun (by rw [hcreated]; exact nofun) ?_ (fun object' hne => ?_)
      (fun _ h => ?_)
    · have hcount := ht.loops object
      rw [hcreated] at hcount
      simpa using hcount
    · exact count_cons_of_ne (by simpa using Ne.symm hne)
    · exact (mem_cons.mp h).resolve_left nofun

end Tidy

end OniroSoc.Display.Waits

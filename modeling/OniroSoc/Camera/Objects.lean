import OniroSoc.Camera.Instructions

/-!
# The Android objects of a camera are used while they are open, and closed

In every interleaving whose instructions are `Timely`, each call of the library is on an open
object, nothing is closed twice, and nothing is open at the end.  Otherwise a cancelled capture
stops a closed session, and a switch of lenses leaves the new device open.
-/

namespace OniroSoc.Camera.Device
open List
open Support Support.Handles

section Runs
variable {s s' : Device} {env : Env} {i : Instr} {rest todo : List Instr} {g : Guarded}

theorem Kept.exec (h : Kept s (i :: rest) g) (ht : Timely s rest env i)
    (hexec : s.exec env i = some (s', todo)) : ∃ g', Kept s' (todo ++ rest) g' := by
  have hstay : ∀ p ∈ i.phase, p.Holds s.device g := h.phase i (.head _)
  cases i with
  | createStreams => exact keeps_createStreams h ht hexec
  | createNext => exact keeps_createNext h ht hexec
  | getWindow => exact keeps_getWindow h ht hexec
  | commitStreams | settingsChanged | capture captureId streamIds isStreaming =>
    rw [Device.exec] at hexec
    split_ifs at hexec with hlock
    cases hexec
    exact ⟨g, h.lockSwitch hlock ⟨rfl, rfl, rfl, rfl, rfl⟩ ⟨rfl, trivial, rfl, rfl⟩ rfl rfl⟩
  | commitSwap => exact keeps_commitSwap h ht hexec
  | commitLens want =>
    cases hexec
    refine ⟨g, ?_⟩
    split_ifs <;> exact h.next ⟨rfl, rfl, rfl⟩ ⟨rfl, trivial, rfl, rfl⟩ rfl h.owned hstay
  | updateSettings =>
    cases hexec
    refine ⟨g, ?_⟩
    split_ifs with hoperator
    · exact h.next ⟨rfl, rfl, rfl⟩ ⟨rfl, trivial, rfl, rfl⟩ rfl h.owned (by rintro _ ⟨⟩)
    · exact h.call ⟨rfl, rfl⟩ (by simp) (add_comm _ _) (h.owned.congr (by simp [Instr.owns])) (by simp)
        (by simp [Instr.closes])
  | settingsSwap => exact keeps_settingsSwap h ht hexec
  | switchLens lens again => exact ⟨g, h.switchLens hexec⟩
  | openCamera lens previous again | reopen lens again =>
    rw [Device.exec] at hexec
    split_ifs at hexec with hok
    · cases hexec
      exact ⟨g, h.openDevice ⟨rfl, rfl, rfl⟩ rfl rfl⟩
    · cases hexec
      exact ⟨g, h.next ⟨rfl, rfl, rfl⟩ ⟨rfl, trivial, rfl, rfl⟩ rfl h.owned hstay⟩
  | publish device lens again =>
    cases hexec
    exact ⟨g, h.publish ht⟩
  | rebuild => exact keeps_rebuild h ht hexec
  | createContainer => exact keeps_createContainer h ht hexec
  | buildStream => exact keeps_buildStream h ht hexec
  | createOutput => exact keeps_createOutput h ht hexec
  | createTarget => exact keeps_createTarget h ht hexec
  | sessionDevice => exact keeps_sessionDevice h ht hexec
  | createSession => exact keeps_createSession h ht hexec
  | repeatLocked => exact keeps_repeatLocked h ht hexec
  | createRepeating => exact keeps_createRepeating h ht hexec
  | setRepeating => exact keeps_setRepeating h ht hexec
  | submitCapture => exact keeps_submitCapture h ht hexec
  | createStill => exact keeps_createStill h ht hexec
  | shoot => exact keeps_shoot h ht hexec
  | cancelCapture => exact keeps_cancelCapture h ht hexec
  | releaseStreams => exact keeps_releaseStreams h ht hexec
  | close => exact ⟨g, h.close hexec⟩
  | shutdown => exact keeps_shutdown h ht hexec
  | stopRepeating session =>
    cases hexec
    exact ⟨g, h.stopRepeating⟩
  | stopAndClose session =>
    cases hexec
    exact ⟨g, h.useThenFree ⟨rfl, rfl⟩ rfl rfl fun x hx => (Option.some.inj hx).symm⟩
  | unlisten reader =>
    cases hexec
    exact ⟨g, h.useThenFree ⟨rfl, rfl⟩ rfl rfl (by rintro _ ⟨⟩)⟩
  | free o =>
    cases hexec
    exact ⟨g, h.free ht⟩
  | unlockSwitch =>
    cases hexec
    exact ⟨g, h.unlockSwitch⟩

theorem Kept.begin {work : List Instr} (h : Kept s work g) (call : Call) :
    Kept s ([call.instr] ++ work) g := by
  obtain ⟨hguards, howns, hphase, hsupplied, hstops, hshuts⟩ : call.instr.guards = none ∧
    call.instr.owns = 0 ∧
      call.instr.phase = none ∧ call.instr.Supplied ∧ call.instr.stops = none ∧ call.instr.shuts =
      none := by
    cases call <;> exact ⟨rfl, rfl, rfl, trivial, rfl, rfl⟩
  have hfills : call.instr.fills = false := by cases call <;> rfl
  have hreads : call.instr.reads = none := by cases call <;> rfl
  have hlater : ∀ {k}, k ∈ work → k ∈ [call.instr] ++ work := fun hk => mem_append_right _ hk
  rw [singleton_append] at *
  refine ⟨?_, ?_, ?_, ?_, ?_, ?_, ?_, ?_, ?_, ?_⟩
  · rw [guardeds, filterMap_cons_none hguards]
    exact h.guarded
  · exact h.owned.congr (by rw [ownedIn_cons, howns, zero_add])
  · rw [countP_cons_of_neg (by rw [Instr.switches, hphase]; exact Bool.false_ne_true)]
    exact h.switch
  · exact forall_mem_cons.mpr ⟨hsupplied, h.supplied⟩
  · exact forall_mem_cons.mpr ⟨by simp [hphase], h.phase⟩
  · refine forall_mem_cons.mpr ⟨by simp [hreads], fun i hi d hd => (h.reads i hi d hd).imp_right ?_⟩
    rintro ⟨j, hj, hshuts⟩
    exact ⟨j, hlater hj, hshuts⟩
  · refine forall_mem_cons.mpr ⟨by simp [hstops], fun i hi x hx => (h.stops i hi x hx).imp_right ?_⟩
    rintro ⟨j, hj, hcloses⟩
    exact ⟨j, hlater hj, hcloses⟩
  · intro hs
    obtain ⟨hempty, hoperator, hrest⟩ := h.shut hs
    exact ⟨hempty, hoperator, forall_mem_cons.mpr ⟨hfills, hrest⟩⟩
  · intro hclosed
    refine (h.closing hclosed).imp_right fun hs => hs.imp_right ?_
    rintro ⟨j, hj, hshuts⟩
    exact ⟨j, hlater hj, hshuts⟩
  · exact forall_mem_cons.mpr ⟨by simp [hshuts], h.shutting⟩

theorem kept_opened (lenses : Nat) : Kept (opened lenses) [] {} := by
  have hown : Owns ({} : Handles Kind) 0 := ⟨rfl, rfl, nodup_nil, fun _ ho => absurd ho not_mem_nil⟩
  refine ⟨rfl, (hown.create .device).congr ?_, rfl, ?_, ?_, ?_, ?_, ?_, ?_, ?_⟩
  · simp [opened, Guarded.owns]
  all_goals simp [opened]

end Runs

def Allowed : Pool Device Instr → PoolAction Call Env → Prop :=
  Machine.Allowed (fun _ _ _ => True) Timely

/-- **No object is misused, and none is left open**, in every interleaving of the calls in which the
instructions fit. -/
theorem objects_closed (lenses : Nat) (actions : List (PoolAction Call Env))
    (p : Pool Device Instr) (hrun : Support.run machine.step ⟨opened lenses, []⟩ actions = some p)
    (htimely : Along machine.step Allowed ⟨opened lenses, []⟩ actions) :
    p.shared.ndk.bad = [] ∧ p.shared.ndk.closed.Nodup ∧
    (p.Idle → p.shared.streamOperator = false → p.shared.ndk.opened = []) := by
  obtain ⟨g, h⟩ : ∃ g, Kept p.shared p.work g := by
    refine Machine.run_invariant (I := fun s work => ∃ g, Kept s work g) ?_ ?_ ?_ htimely hrun
      ⟨{}, kept_opened lenses⟩
    · rintro s work work' ⟨g, h⟩ hperm
      exact ⟨g, h.perm hperm⟩
    · rintro s work call s' program ⟨g, h⟩ - hcall
      cases hcall
      exact ⟨g, h.begin call⟩
    · rintro s rest env instr s' todo ⟨g, h⟩ ht hexec
      exact h.exec ht hexec
  refine ⟨h.owned.proper, h.owned.closed_nodup, fun hidle hclosed => ?_⟩
  rw [hidle.work_eq] at h
  obtain ⟨hdevice, hshut | ⟨i, hi, -⟩⟩ := h.closing hclosed
  · refine (h.owned.congr ?_).opened_nil
    rw [(h.shut hshut).1, hdevice]
    rfl
  · cases hi

theorem timely_free {s : Device} {others : List Instr} {env : Env} {o : Object}
    (h : others.filterMap Instr.stops = []) : Timely s others env (.free o) := by
  intro j hj
  rw [filterMap_eq_nil_iff.mp h j hj]
  exact nofun

def steps (i n : Nat) : List (PoolAction Call Env) := List.replicate n (.run i {})

def preview : List (PoolAction Call Env) :=
  [.start (.createStreams [⟨1, true, []⟩])] ++ steps 0 4 ++ [.start .commitStreams] ++ steps 1 12 ++
    [.start (.capture 7 [1] true)] ++ steps 2 6

def shooting : List (PoolAction Call Env) :=
  preview ++ [.start (.cancelCapture 7)] ++ steps 3 3 ++ [.start .close] ++ steps 4 10

theorem objects_closed_shooting : ∃ p, Support.run machine.step ⟨opened 2, []⟩ shooting = some p ∧
    p.threads = [[], [], [], [], []] ∧ p.shared.ndk.closed.length = 7 ∧ p.shared.ndk.bad = [] ∧
    p.shared.ndk.opened = [] := by
  have htimely : Along machine.step Allowed ⟨opened 2, []⟩ shooting := by
    show Along machine.step Allowed ⟨opened 2, []⟩ (_ :: _)
    repeat first
      | exact trivial
      | refine along_cons trivial rfl ?_
      | refine along_cons (Machine.allowed_run rfl (by first
          | exact trivial | exact rfl | exact fun _ => ⟨rfl, rfl⟩ | exact timely_free rfl)) rfl ?_
  obtain ⟨hbad, -, hopened⟩ := objects_closed 2 shooting _ rfl htimely
  refine ⟨_, rfl, rfl, rfl, hbad, hopened ?_ rfl⟩
  intro program hprogram
  have hthreads : program ∈ ([[], [], [], [], []] : List (List Instr)) := hprogram
  simpa using hthreads

theorem objects_misused :
    (∃ p, Support.run machine.step ⟨opened 2, []⟩
        (preview ++ [.start (.cancelCapture 7)] ++ steps 3 1 ++ [.start .commitStreams] ++
          steps 4 4 ++ steps 3 1) = some p ∧
      p.shared.ndk.bad = [some ⟨.session, 5⟩] ∧ ⟨.session, 5⟩ ∈ p.shared.ndk.closed) ∧
    ∃ p, Support.run machine.step ⟨opened 2, []⟩
        ([.start .commitStreams, .run 0 {}, .run 0 { want := 1 }] ++ steps 0 3 ++ [.start .close] ++
          steps 1 2 ++ steps 0 4) = some p ∧
      p.Idle ∧ p.shared.streamOperator = false ∧ p.shared.ndk.opened = [⟨.device, 1⟩] := by
  refine ⟨⟨_, rfl, rfl, .head _⟩, ⟨_, rfl, ?_, rfl, rfl⟩⟩
  intro program hprogram
  have hthreads : program ∈ ([[], []] : List (List Instr)) := hprogram
  simpa using hthreads

end OniroSoc.Camera.Device

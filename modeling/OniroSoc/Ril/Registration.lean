import OniroSoc.Support.Pool
import OniroSoc.Ril.Bridge

/-!
# What the framework is told about the registration

The framework asks for the registration of a slot and gets a reply, or rild says that something has
changed, and the bridge reads both domains again and notifies.  `ReportReg` tells the reads apart by
the map that has the serial; `RegChanged` drops a value that is the same as `last`.
-/

namespace OniroSoc.Ril
open Support List Function

inductive RadioTechnology where
  | gprs | edge | umts | is95a | is95b | oneXRtt | evdo0 | evdoA | hsdpa | hsupa | hspa | evdoB
  | ehrpd | lte | hspap | gsm | tdScdma | iwlan | nr
  | other (value : Int)
deriving DecidableEq

inductive HrilRadioTech where
  | gprs | edge | umts | is95a | is95b | oneXRtt | evdo0 | evdoA | hsdpa | hsupa | hspa | evdoB
  | ehrpd | lte | hspap | gsm | tdScdma | iwlan | nr | unknown
deriving DecidableEq

def toHrilRat : RadioTechnology → HrilRadioTech
  | .gprs => .gprs
  | .edge => .edge
  | .umts => .umts
  | .is95a => .is95a
  | .is95b => .is95b
  | .oneXRtt => .oneXRtt
  | .evdo0 => .evdo0
  | .evdoA => .evdoA
  | .hsdpa => .hsdpa
  | .hsupa => .hsupa
  | .hspa => .hspa
  | .evdoB => .evdoB
  | .ehrpd => .ehrpd
  | .lte => .lte
  | .hspap => .hspap
  | .gsm => .gsm
  | .tdScdma => .tdScdma
  | .iwlan => .iwlan
  | .nr => .nr
  | .other _ => .unknown

inductive RegState where
  | notRegMtNotSearchingOp | regHome | notRegMtSearchingOp | regDenied | regRoaming
  | notRegMtNotSearchingOpEm | notRegMtSearchingOpEm | regDeniedEm | unknownEm | regEm
  | other (value : Int)
deriving DecidableEq

inductive HrilRegStatus where
  | noRegMtNoSearch | regMtHome | noRegMtSearching | regMtRejected | regMtRoaming | regMtEmergency
  | regMtUnknown
deriving DecidableEq

def toHrilRegStatus : RegState → HrilRegStatus
  | .notRegMtNotSearchingOp => .noRegMtNoSearch
  | .regHome => .regMtHome
  | .notRegMtSearchingOp => .noRegMtSearching
  | .regDenied => .regMtRejected
  | .regRoaming => .regMtRoaming
  | .notRegMtNotSearchingOpEm | .notRegMtSearchingOpEm | .regDeniedEm | .unknownEm | .regEm =>
    .regMtEmergency
  | .other _ => .regMtUnknown

inductive CellIdentity where
  | gsm (lac cid : Int)
  | wcdma (lac cid : Int)
  | tdscdma (lac cid : Int)
  | lte (tac ci : Int)
  | nr (tac nci : Int)
  | other
deriving DecidableEq

def extractCell : CellIdentity → Int × Int
  | .gsm lac cid | .wcdma lac cid | .tdscdma lac cid => (lac, cid)
  | .lte tac ci => (tac, ci)
  | .nr tac nci => (tac, Int.bmod nci (2 ^ 32))
  | .other => (0, 0)

structure RegStateResult where
  regState : RegState
  rat : RadioTechnology
  cellIdentity : CellIdentity
deriving DecidableEq

structure RegStatusInfo where
  regStatus : HrilRegStatus
  actType : HrilRadioTech
  (lacCode cellId : Int)
deriving DecidableEq

def toHrilRegStatusInfo (reg : RegStateResult) : RegStatusInfo where
  regStatus := toHrilRegStatus reg.regState
  actType := toHrilRat reg.rat
  lacCode := (extractCell reg.cellIdentity).1
  cellId := (extractCell reg.cellIdentity).2

def Req.target (req : Req) : Option NotifyTarget :=
  match req.op with
  | .getCsRegStatus => some ⟨slotOf (some req), .csRegStatusUpdated⟩
  | .getPsRegStatus => some ⟨slotOf (some req), .psRegStatusUpdated⟩
  | _ => none

structure Registration where
  tracker : Tracker (Option Req) NotifyTarget := {}
  last : NotifyTarget → Option RegStatusInfo := fun _ => none
  rild : List Ril.Call := []
  (processed received : NotifyTarget → Option RegStatusInfo := fun _ => none)

namespace Registration

inductive Instr where
  -- `networkStateChanged`
  | reread (slot : Int)
  | trackNotify (method : Method) (target : NotifyTarget)
  -- `GetCsRegStatus`, `GetPsRegStatus`
  | requireNetwork (method : Method) (req : Option Req)
  | track (method : Method) (req : Req)
  | read (c : Ril.Call)
  -- `ReportReg`
  | takeNotify (serial : Int) (err : HrilErr) (out : RegStatusInfo)
  | regChanged (target : NotifyTarget) (out : RegStatusInfo)
  | notifyNetwork (target : NotifyTarget) (out : RegStatusInfo)
  | takePending (serial : Int) (err : HrilErr) (out : RegStatusInfo)
  | reportNetwork (req : Req) (err : HrilErr) (out : Option RegStatusInfo)
deriving DecidableEq

def Instr.delivers : Instr → Option (NotifyTarget × RegStatusInfo)
  | .notifyNetwork target out => some (target, out)
  | .reportNetwork req .success (some out) => req.target.map fun target => (target, out)
  | _ => none

def arrive (s : Registration) (instr : Instr) : Registration :=
  match instr.delivers with
  | some (target, out) => { s with received := Function.update s.received target (some out) }
  | none => s

def deal (s : Registration) (instr : Instr) : Registration :=
  match instr.delivers with
  | some (target, out) => { s with processed := Function.update s.processed target (some out) }
  | none => s

def exec (s : Registration) (ok : Bool) : Instr → Registration × List Instr
  | .reread slot =>
    (s, if ok then [.trackNotify .getVoiceRegistrationState ⟨slot, .csRegStatusUpdated⟩,
      .trackNotify .getDataRegistrationState ⟨slot, .psRegStatusUpdated⟩]
    else [])
  | .trackNotify method target =>
    let (serial, tracker) := s.tracker.trackNotify target
    ({ s with tracker }, [.read ⟨method, serial⟩])
  | .requireNetwork _ none => (s, [])
  | .requireNetwork method (some req) =>
    (s, if ok then [.track method req] else [.reportNetwork req .genericFailure none])
  | .track method req =>
    let (serial, tracker) := s.tracker.track (some req)
    ({ s with tracker }, [.read ⟨method, serial⟩])
  | .read c => ({ s with rild := if ok then s.rild ++ [c] else s.rild }, [])
  | .takeNotify serial err out =>
    match s.tracker.takeNotify serial with
    | (some target, tracker) => ({ s with tracker }, [.regChanged target out])
    | (none, _) => (s, [.takePending serial err out])
  | .regChanged target out =>
    -- The value is dropped when it is the recorded one.
    if s.last target = some out then (s.deal (.notifyNetwork target out), [])
    else
      ({ s.deal (.notifyNetwork target out) with last := Function.update s.last target (some out) },
        [.notifyNetwork target out])
  | .takePending serial err out =>
    match s.tracker.takePending serial with
    | (some (some req), tracker) =>
      ({ s.deal (.reportNetwork req err (some out)) with tracker }, [.reportNetwork req err (some out)])
    | (some none, tracker) => ({ s with tracker }, [])
    | (none, _) => (s, [])
  | .notifyNetwork target out => (s.arrive (.notifyNetwork target out), [])
  | .reportNetwork req err out => (s.arrive (.reportNetwork req err out), [])

inductive Event where
  | networkStateChanged (slot : Int)
  | getCsRegStatus (req : Option Req)
  | getPsRegStatus (req : Option Req)
  | answer (k : Nat) (err : RadioError) (reg : RegStateResult)
  | track (req : Option Req)
  | nextSerial
  | takePending (serial : Int)

def start (s : Registration) : Event → Option (Registration × List Instr)
  | .networkStateChanged slot => if InRange slot then some (s, [.reread slot]) else none
  | .getCsRegStatus req => some (s, [.requireNetwork .getVoiceRegistrationState req])
  | .getPsRegStatus req => some (s, [.requireNetwork .getDataRegistrationState req])
  | .answer k err reg =>
    s.rild[k]?.map fun c =>
      ({ s with rild := s.rild.eraseIdx k },
        [.takeNotify c.serial (toHrilError err) (toHrilRegStatusInfo reg)])
  | .track req => some ({ s with tracker := (s.tracker.track req).2 }, [])
  | .nextSerial => some ({ s with tracker := s.tracker.nextSerial.2 }, [])
  | .takePending serial => some ({ s with tracker := (s.tracker.takePending serial).2 }, [])

def machine : Machine Registration Instr Event Bool where
  start := start
  exec s ok instr := some (s.exec ok instr)

def Bound (work : List Instr) (target : NotifyTarget) (out : RegStatusInfo) : Prop :=
  ∃ instr ∈ work, instr.delivers = some (target, out)

/-- The condition on an instruction, with what is left to do besides it.  A value that is the
recorded one is dropped only when the last answer had it too, or while it is still on its way.  And
what reaches the framework is the value of the last answer, or that one is still to come. -/
def Steady (s : Registration) (others : List Instr) (_ : Bool) : Instr → Prop
  | .regChanged target out =>
    s.last target = some out → s.processed target = some out ∨ Bound others target out
  | instr => ∀ target out, instr.delivers = some (target, out) →
      s.processed target = some out ∨ ∃ out',
      s.processed target = some out' ∧ Bound others target out'

def Converging (s : Registration) (work : List Instr) : Prop :=
  ∀ target, s.received target = s.processed target ∨
    ∃ out, s.processed target = some out ∧ Bound work target out

section Converging
variable {s s' : Registration} {instr : Instr} {rest todo work work' : List Instr}
  {target : NotifyTarget} {out : RegStatusInfo}

theorem Bound.mono (h : Bound work target out) (hsub : work ⊆ work') : Bound work' target out := by
  obtain ⟨instr, hi, hdelivers⟩ := h
  exact ⟨instr, hsub hi, hdelivers⟩

theorem Bound.of_cons (h : Bound (instr :: rest) target out)
    (hne : instr.delivers ≠ some (target, out)) : Bound rest target out := by
  obtain ⟨i, hi, hdelivers⟩ := h
  rcases mem_cons.mp hi with rfl | hi
  · exact absurd hdelivers hne
  · exact ⟨i, hi, hdelivers⟩

namespace Converging

theorem mono (h : Converging s work) (hsub : work ⊆ work') : Converging s work' := by
  intro target
  exact (h target).imp_right fun ⟨out, hout, hbound⟩ => ⟨out, hout, hbound.mono hsub⟩

theorem same (h : Converging s (instr :: rest)) (hnone : instr.delivers = none)
    (hprocessed : s'.processed = s.processed) (hreceived : s'.received = s.received) :
    Converging s' (todo ++ rest) := by
  intro target
  rw [hprocessed, hreceived]
  refine (h target).imp_right fun ⟨out, hout, hbound⟩ => ⟨out, hout, ?_⟩
  exact (hbound.of_cons (by simp [hnone])).mono (subset_append_right _ _)

theorem deal (h : Converging s (instr :: rest)) (hnone : instr.delivers = none)
    (hprocessed : s'.processed = Function.update s.processed target (some out))
    (hreceived : s'.received = s.received) (hbound : Bound (todo ++ rest) target out) :
    Converging s' (todo ++ rest) := by
  intro other
  rw [hprocessed, hreceived]
  by_cases hother : other = target
  · subst hother
    exact .inr ⟨out, update_self .., hbound⟩
  · rw [update_of_ne hother]
    refine (h other).imp_right fun ⟨out', hout, hb⟩ => ⟨out', hout, ?_⟩
    exact (hb.of_cons (by simp [hnone])).mono (subset_append_right _ _)

theorem arrive (h : Converging s (instr :: rest))
    (hsteady : ∀ target out, instr.delivers = some (target, out) →
      s.processed target = some out ∨
      ∃ out', s.processed target = some out' ∧ Bound rest target out') :
    Converging (s.arrive instr) rest := by
  intro other
  cases hdelivers : instr.delivers with
  | none =>
    rw [Registration.arrive, hdelivers]
    refine (h other).imp_right fun ⟨out, hout, hbound⟩ => ⟨out, hout, ?_⟩
    exact hbound.of_cons (by simp [hdelivers])
  | some delivery =>
    obtain ⟨target, out⟩ := delivery
    rw [Registration.arrive, hdelivers]
    by_cases hother : other = target
    · subst hother
      refine (hsteady other out hdelivers).imp_left fun hout => ?_
      exact (update_self ..).trans hout.symm
    · simp only [update_of_ne hother]
      refine (h other).imp_right fun ⟨out', hout, hbound⟩ => ⟨out', hout, ?_⟩
      refine hbound.of_cons ?_
      rintro heq
      cases hdelivers.symm.trans heq
      exact hother rfl

theorem exec_regChanged {ok : Bool} (h : Converging s (.regChanged target out :: rest))
    (hsteady : s.Steady rest ok (.regChanged target out)) :
    Converging (s.exec ok (.regChanged target out)).1
      ((s.exec ok (.regChanged target out)).2 ++ rest) := by
  by_cases hlast : s.last target = some out
  · rw [Registration.exec, if_pos hlast]
    rcases hsteady hlast with hout | hbound
    · have hdeal : s.deal (.notifyNetwork target out) = s := by
        change { s with processed := Function.update s.processed target (some out) } = s
        rw [← hout, update_eq_self]
      rw [hdeal]
      exact h.same rfl rfl rfl
    · exact h.deal rfl rfl rfl hbound
  · rw [Registration.exec, if_neg hlast]
    refine h.deal rfl rfl rfl ⟨.notifyNetwork target out, ?_, rfl⟩
    exact mem_append_left _ (.head _)

theorem exec_takePending {serial : Int} {err : HrilErr} {ok : Bool}
    (h : Converging s (.takePending serial err out :: rest)) :
    Converging (s.exec ok (.takePending serial err out)).1
      ((s.exec ok (.takePending serial err out)).2 ++ rest) := by
  simp only [Registration.exec, Tracker.takePending]
  rcases s.tracker.pending.lookup serial with _ | _ | req
  · exact h.same rfl rfl rfl
  · exact h.same rfl rfl rfl
  · cases hdelivers : (Instr.reportNetwork req err (some out)).delivers with
    | none =>
      refine h.same rfl ?_ ?_ <;> simp [Registration.deal, hdelivers]
    | some delivery =>
      obtain ⟨target, value⟩ := delivery
      refine h.deal rfl ?_ ?_ ⟨_, .head _, hdelivers⟩
      · simp [Registration.deal, hdelivers]
      · simp [Registration.deal, hdelivers]

theorem exec (h : Converging s (instr :: rest)) (ok : Bool)
    (hsteady : s.Steady rest ok instr) :
    Converging (s.exec ok instr).1 ((s.exec ok instr).2 ++ rest) := by
  cases instr with
  | requireNetwork method req => cases req <;> exact h.same rfl rfl rfl
  | takeNotify serial err out =>
    simp only [Registration.exec]
    split <;> exact h.same rfl rfl rfl
  | regChanged target out => exact h.exec_regChanged hsteady
  | takePending serial err out => exact h.exec_takePending
  | notifyNetwork target out => exact h.arrive hsteady
  | reportNetwork req err out => exact h.arrive hsteady
  | _ => exact h.same rfl rfl rfl

theorem start {event : Event} {program : List Instr} (h : Converging s work)
    (hs : s.start event = some (s', program)) : Converging s' (program ++ work) := by
  have hsame : s'.processed = s.processed ∧ s'.received = s.received := by
    cases event with
    | networkStateChanged slot =>
      rw [Registration.start] at hs
      split at hs
      · cases hs
        exact ⟨rfl, rfl⟩
      · cases hs
    | answer k err reg =>
      obtain ⟨c, -, hc⟩ := Option.map_eq_some_iff.mp hs
      cases hc
      exact ⟨rfl, rfl⟩
    | _ =>
      cases hs
      exact ⟨rfl, rfl⟩
  intro target
  rw [hsame.1, hsame.2]
  exact (h.mono (subset_append_right program work)) target

end Converging

end Converging

/-- Nothing is on its way to the framework for the slot and the domain. -/
def Quiet (p : Pool Registration Instr) (target : NotifyTarget) : Prop :=
  ∀ instr ∈ p.work, ∀ out, instr.delivers ≠ some (target, out)

def Allowed : Pool Registration Instr → PoolAction Event Bool → Prop :=
  Machine.Allowed (fun _ _ _ => True) Steady

/-- **The framework is told what the modem said last**, in every interleaving whose steps are
steady, as soon as no value is on its way. -/
theorem registration_converges (actions : List (PoolAction Event Bool))
    (p : Pool Registration Instr) (hrun : Support.run machine.step ⟨{}, []⟩ actions = some p)
    (hsteady : Along machine.step Allowed ⟨{}, []⟩ actions) (target : NotifyTarget) :
    (Quiet p target → p.shared.received target = p.shared.processed target) ∧
    ∀ i ok out rest, p.threads[i]? = some (.regChanged target out :: rest) → Allowed p (.run i ok) →
        p.shared.last target = some out →
        p.shared.received target = some out ∨ Bound p.work target out := by
  have hconverging : Converging p.shared p.work := by
    refine Machine.run_invariant (I := Converging) (fun h hperm => h.mono hperm.subset)
      (fun h _ hs => h.start hs) ?_ hsteady hrun fun _ => .inl rfl
    rintro s rest ok instr s' todo h hdoes hexec
    obtain ⟨rfl, rfl⟩ := Prod.mk.inj (Option.some.inj hexec)
    exact h.exec ok hdoes
  refine ⟨fun hquiet => ?_, fun i ok out rest hi hallowed hlast => ?_⟩
  · rcases hconverging target with heq | ⟨out, -, instr, hi, hdelivers⟩
    · exact heq
    · exact absurd hdelivers (hquiet instr hi out)
  · rcases hallowed _ rest hi hlast with hout | hbound
    · rcases hconverging target with heq | ⟨out', hout', hbound⟩
      · exact .inl (heq.trans hout)
      · cases hout.symm.trans hout'
        exact .inr hbound
    · refine .inr (hbound.mono fun instr hinstr => ?_)
      exact (flatten_perm_cons hi).mem_iff.mpr (.tail _ hinstr)

def Instr.matters : Instr → Bool
  | .regChanged _ _ | .notifyNetwork _ _ | .reportNetwork _ _ _ => true
  | _ => false

theorem allowed_plain {p : Pool Registration Instr} {i : Nat} {ok : Bool} {instr : Instr}
    {rest : List Instr} (hi : p.threads[i]? = some (instr :: rest))
    (hplain : instr.matters = false) : Allowed p (.run i ok) := by
  refine Machine.allowed_run hi ?_
  cases instr with
  | regChanged target out => cases hplain
  | notifyNetwork target out => cases hplain
  | reportNetwork req err out => cases hplain
  | _ =>
    intro target out hdelivers
    cases hdelivers

def home : RegStateResult := ⟨.regHome, .lte, .lte 7 9⟩

def roaming : RegStateResult := ⟨.regRoaming, .lte, .lte 8 9⟩

def voice : NotifyTarget := ⟨0, .csRegStatusUpdated⟩

def toldTwice : List (PoolAction Event Bool) :=
  [.start (.networkStateChanged 0), .run 0 true, .run 0 true, .run 0 true,
    .start (.answer 0 .none home), .run 1
    true, .run 1 true, .run 1 true, .start (.getCsRegStatus (some ⟨0, 0, .getCsRegStatus⟩)),
    .run 2 true, .run 2
    true, .run 2 true, .start (.answer 0 .none home), .run 3 true, .run 3 true, .run 3 true]

theorem registration_converges_toldTwice :
    ∃ p, Support.run machine.step ⟨{}, []⟩ toldTwice = some p ∧ Quiet p voice ∧
      p.shared.processed voice = some (toHrilRegStatusInfo home) ∧
      p.shared.received voice = p.shared.processed voice := by
  have hsteady : Along machine.step Allowed ⟨{}, []⟩ toldTwice := by
    refine along_cons trivial rfl ?_
    iterate 3 refine along_cons (allowed_plain rfl rfl) rfl ?_
    refine along_cons trivial rfl ?_
    refine along_cons (allowed_plain rfl rfl) rfl ?_
    refine along_cons (Machine.allowed_run rfl (fun h => by cases h)) rfl ?_
    refine along_cons (Machine.allowed_run rfl fun _ _ h => ?_) rfl ?_
    · cases h
      exact .inl rfl
    refine along_cons trivial rfl ?_
    iterate 3 refine along_cons (allowed_plain rfl rfl) rfl ?_
    refine along_cons trivial rfl ?_
    iterate 2 refine along_cons (allowed_plain rfl rfl) rfl ?_
    refine along_cons (Machine.allowed_run rfl fun _ _ h => ?_) rfl trivial
    cases h
    exact .inl rfl
  obtain ⟨p, hrun, hwork, hprocessed⟩ : ∃ p, Support.run machine.step ⟨{}, []⟩ toldTwice = some p ∧
      p.work = [.trackNotify .getDataRegistrationState ⟨0, .psRegStatusUpdated⟩] ∧
      p.shared.processed voice = some (toHrilRegStatusInfo home) := ⟨_, rfl, rfl, rfl⟩
  have hquiet : Quiet p voice := by
    rw [Quiet, hwork]
    simp [Instr.delivers]
  exact ⟨p, hrun, hquiet, hprocessed,
    (registration_converges toldTwice p hrun hsteady voice).1 hquiet⟩

def rereads (i : Nat) : List (PoolAction Event Bool) :=
  .start (.networkStateChanged 0) :: List.replicate 5 (.run i true)

def answers (i n : Nat) (reg : RegStateResult) : List (PoolAction Event Bool) :=
  .start (.answer 0 .none reg) :: List.replicate n (.run i true)

def asks (i : Nat) : List (PoolAction Event Bool) :=
  .start (.getCsRegStatus (some ⟨0, 0, .getCsRegStatus⟩)) :: List.replicate 3 (.run i true)

theorem registration_diverges :
    (∃ p, Support.run machine.step ⟨{}, []⟩
        (rereads 0 ++ answers 1 3 home ++ answers 2 3 home ++ asks 3 ++ answers 4 3 roaming ++
          rereads 5 ++ answers 6 2 home ++ answers 7 2 home) = some p ∧
      p.work = [] ∧ p.shared.rild = [] ∧
      p.shared.processed voice = some (toHrilRegStatusInfo home) ∧
      p.shared.received voice = some (toHrilRegStatusInfo roaming)) ∧
    ∃ p, Support.run machine.step ⟨{}, []⟩
        (rereads 0 ++ rereads 1 ++ answers 2 2 home ++ answers 3 3 home ++ answers 4 3 roaming ++
          answers 5 2 home ++ [.run 2 true]) = some p ∧
      p.work = [] ∧ p.shared.rild = [] ∧
      p.shared.processed voice = some (toHrilRegStatusInfo roaming) ∧
      p.shared.received voice = some (toHrilRegStatusInfo home) :=
  ⟨⟨_, rfl, rfl, rfl, rfl, rfl⟩, ⟨_, rfl, rfl, rfl, rfl, rfl⟩⟩

end Registration

end OniroSoc.Ril

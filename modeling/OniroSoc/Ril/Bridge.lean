import OniroSoc.Ril.Serials
import OniroSoc.Ril.Ops

/-!
# The RIL bridge

Requests from hril, the responses and indications of rild, and the connect thread.  An instruction
is what one of the two mutexes guards, one AIDL call, or one report.  `handed`, `reports` and
`failed` record what hril handed over, what was reported to it, and the serials of requests whose
AIDL call failed.
-/

namespace OniroSoc.Ril
open Support

structure Req where
  id : Nat
  slotId : Int
  op : Op
deriving DecidableEq

inductive NotifyId where
  | csRegStatusUpdated
  | psRegStatusUpdated
deriving DecidableEq

structure NotifyTarget where
  slotId : Int
  notifyId : NotifyId
deriving DecidableEq

structure Report where
  domain : Domain
  req : Req
  err : HrilErr
deriving DecidableEq

structure Call where
  method : Method
  serial : Int
deriving DecidableEq

inductive Instr where
  | begin (op : Op) (req : Option Req)
  | report (domain : Domain) (req : Option Req) (err : HrilErr)
  | nextSerial (slot : Int) (method : Method)
  | track (slot : Int) (method : Method) (req : Option Req)
  | trackNotify (slot : Int) (method : Method) (notifyId : NotifyId)
  | call (slot : Int) (method : Method) (serial : Int) (tracked : Bool)
  | takeNotify (method : Method) (serial : Int) (err : HrilErr)
  | takePending (method : Method) (serial : Int) (err : HrilErr)
  | reread (slot : Int)
  | publish (slot : Int)
  | attach (slot : Int) (service : Service)
deriving DecidableEq

structure Bridge where
  tracker : Tracker (Option Req) NotifyTarget := {}
  published : Int → Bool := fun _ => false
  registered : Int → Service → Bool := fun _ _ => false
  threads : List (List Instr) := []
  rild : List Call := []
  handed : List Req := []
  reports : List Report := []
  failed : List Int := []

def maxSlots : Int := 2

def InRange (slot : Int) : Prop := 0 ≤ slot ∧ slot < maxSlots

instance (slot : Int) : Decidable (InRange slot) := inferInstanceAs (Decidable (_ ∧ _))

def slotOf (req : Option Req) : Int :=
  match req with
  | none => 0
  | some r => if InRange r.slotId then r.slotId else 0

def Body.program (body : Body) (slot : Int) (req : Option Req) : List Instr :=
  match body with
  | .refuse domain err => [.report domain req err]
  | .call false method => [.track slot method req]
  | .call true method => [.nextSerial slot .setDataProfile, .track slot method req]

def Call.handler (c : Call) (err : RadioError) : Instr :=
  if c.method.isRegistration then .takeNotify c.method c.serial (toHrilError err)
  else .takePending c.method c.serial (toHrilError err)

namespace Bridge

def Has (s : Bridge) (slot : Int) : Prop := InRange slot ∧ s.published slot = true

instance (s : Bridge) (slot : Int) : Decidable (s.Has slot) := inferInstanceAs (Decidable (_ ∧ _))

def start (s : Bridge) (op : Op) (req : Option Req) : List Instr :=
  match op.plan with
  | .answer domain err => [.report domain req err]
  | .ask service .require body =>
    match req with
    | none => []
    | some r =>
      if s.Has r.slotId then body.program r.slotId req
      else [.report service.domain req .genericFailure]
  | .ask _ .slotOf body =>
    if s.Has (slotOf req) then body.program (slotOf req) req
    else [.report .call req .genericFailure]

def exec (s : Bridge) (ok : Bool) : Instr → Bridge × List Instr
  | .begin op req => (s, s.start op req)
  | .report _ none _ => (s, [])
  | .report domain (some req) err => ({ s with reports := ⟨domain, req, err⟩ :: s.reports }, [])
  | .nextSerial slot method =>
    let (serial, tracker) := s.tracker.nextSerial
    ({ s with tracker }, [.call slot method serial false])
  | .track slot method req =>
    let (serial, tracker) := s.tracker.track req
    ({ s with tracker }, [.call slot method serial req.isSome])
  | .trackNotify slot method notifyId =>
    let (serial, tracker) := s.tracker.trackNotify ⟨slot, notifyId⟩
    ({ s with tracker }, [.call slot method serial false])
  | .call slot method serial tracked =>
    ({ s with
      rild :=
        if ok && s.registered slot method.service then s.rild ++ [⟨method, serial⟩] else s.rild
      failed := if tracked && !ok then serial :: s.failed else s.failed }, [])
  | .takeNotify method serial err =>
    match s.tracker.takeNotify serial with
    | (some _, tracker) => ({ s with tracker }, [])
    | (none, _) => (s, [.takePending method serial err])
  | .takePending method serial err =>
    match s.tracker.takePending serial with
    | (some req, tracker) => ({ s with tracker }, [.report method.reportsTo req err])
    | (none, _) => (s, [])
  | .reread slot =>
    (s, if s.Has slot then [.trackNotify slot .getVoiceRegistrationState .csRegStatusUpdated,
      .trackNotify slot .getDataRegistrationState .psRegStatusUpdated]
    else [])
  | .publish slot => ({ s with published := Function.update s.published slot true }, [])
  | .attach slot service =>
    ({ s with registered := if ok then
        Function.update s.registered slot (Function.update (s.registered slot) service true)
      else s.registered }, [])

def connectProgram (slot : Int) : List Instr :=
  [.publish slot, .attach slot .modem, .attach slot .sim, .attach slot .network,
    .attach slot .messaging, .attach slot .data, .attach slot .voice]

def spawn (s : Bridge) (program : List Instr) : Bridge :=
  { s with threads := s.threads ++ [program] }

end Bridge

inductive Action where
  | request (op : Op) (slotId : Int)
  | nullRequest (op : Op)
  | connectSlot (slot : Int)
  | networkStateChanged (slot : Int)
  | answer (k : Nat) (err : RadioError)
  | run (i : Nat) (ok : Bool)

namespace Bridge

def step (s : Bridge) : Action → Option Bridge
  | .request op slotId =>
    let req : Req := ⟨s.handed.length, slotId, op⟩
    some { s.spawn [.begin op (some req)] with handed := s.handed ++ [req] }
  | .nullRequest op => some (s.spawn [.begin op none])
  | .connectSlot slot => if InRange slot then some (s.spawn (connectProgram slot)) else none
  | .networkStateChanged slot => if InRange slot then some (s.spawn [.reread slot]) else none
  | .answer k err =>
    s.rild[k]?.map fun c => { s.spawn [c.handler err] with rild := s.rild.eraseIdx k }
  | .run i ok =>
    match s.threads[i]? with
    | some (instr :: rest) =>
      let (s₁, todo) := s.exec ok instr
      some { s₁ with threads := s.threads.set i (todo ++ rest) }
    | _ => none

def Still (s : Bridge) : Prop := (∀ program ∈ s.threads, program = []) ∧ s.rild = []

end Bridge

end OniroSoc.Ril

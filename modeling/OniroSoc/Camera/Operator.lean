import Mathlib.Tactic

/-!
# The stream operator of a camera

What `HybrisStreamOperator` does with `lock_` held; what the Android calls answer is an argument.
All streaming captures share the one repeating request: `RepeatLocked` issues it again for every
stream that carries one.
-/

namespace OniroSoc.Camera

structure Stream where
  video : Bool := false
  surface : Bool := true
  target : Bool := false
  captureId : Int := -1
  (streaming shutterCallback : Bool := false)
  frameCount : Nat := 0

def Stream.live (stream : Stream) : Bool := stream.streaming && 0 ≤ stream.captureId

structure Request where
  targets : List Int
  record : Bool
deriving DecidableEq

structure Session where
  repeating : Option Request := none
deriving DecidableEq

inductive Rc where
  | noError | invalidArgument | deviceError
deriving DecidableEq

structure Answers where
  (created issued : Bool := true)
deriving DecidableEq

structure CaptureInfo where
  streamIds : List Int
  enableShutterCallback : Bool := false
deriving DecidableEq

structure EndedInfo where
  streamId : Int
  frameCount : Nat
deriving DecidableEq

structure Operator where
  ids : List Int := []
  stream : Int → Stream := fun _ => {}
  session : Option Session := none
  committed : Bool := false

namespace Operator

def targets (op : Operator) : List Int :=
  op.ids.filter fun id => (op.stream id).live && (op.stream id).target

def anyStreamingLocked (op : Operator) : Bool := op.ids.any fun id => (op.stream id).live

def repeatLocked (op : Operator) (ndk : Answers) : Operator × Rc :=
  -- Without targets the session goes on with what it repeats.
  if op.targets = [] then (op, .noError)
  else if !ndk.created then (op, .deviceError)
  -- `setRepeatingRequest` fails when there is no session.
  else if op.session.isNone || !ndk.issued then (op, .deviceError)
  else
    let request := ⟨op.targets, op.targets.any fun id => (op.stream id).video⟩
    ({ op with session := some ⟨some request⟩ }, .noError)

def mark (op : Operator) (captureId : Int) (info : CaptureInfo) (streaming : Bool) : Operator :=
  { op with stream := fun id =>
      if id ∈ info.streamIds then
        { op.stream id with
          captureId
          streaming
          shutterCallback := info.enableShutterCallback
          frameCount := 0 }
      else op.stream id }

def Ready (op : Operator) (info : CaptureInfo) : Prop :=
  op.committed = true ∧ op.session.isSome ∧ ∀ id ∈ info.streamIds,
    id ∈ op.ids ∧ (op.stream id).target = true

instance (op : Operator) (info : CaptureInfo) : Decidable (op.Ready info) :=
  inferInstanceAs (Decidable (_ ∧ _ ∧ _))

def submitCapture (op : Operator) (captureId : Int) (info : CaptureInfo) (isStreaming : Bool)
    (ndk : Answers) : Operator × Rc :=
  if ¬ op.Ready info then (op, .invalidArgument)
  else if isStreaming then (op.mark captureId info true).repeatLocked ndk
  else if !ndk.created then (op, .deviceError)
  else (op.mark captureId info false, if ndk.issued then .noError else .deviceError)

/-- `SubmitCapture` gets as far as giving its id to the streams. -/
def Marks (op : Operator) (info : CaptureInfo) (isStreaming : Bool) (ndk : Answers) : Prop :=
  op.Ready info ∧ (isStreaming = true ∨ ndk.created = true)

instance (op : Operator) (info : CaptureInfo) (isStreaming : Bool) (ndk : Answers) :
    Decidable (op.Marks info isStreaming ndk) := inferInstanceAs (Decidable (_ ∧ _))

def carrying (op : Operator) (captureId : Int) : List Int :=
  op.ids.filter fun id => (op.stream id).captureId = captureId

def unmark (op : Operator) (ids : List Int) : Operator :=
  { op with stream := fun id =>
      if id ∈ ids then { op.stream id with captureId := -1, streaming := false } else op.stream id }

def cancelLocked (op : Operator) (captureId : Int)
    (ndk : Answers) : Operator × List EndedInfo × Bool :=
  let carrying := op.carrying captureId
  let ended := carrying.map fun id => ⟨id, (op.stream id).frameCount⟩
  let op₁ := op.unmark carrying
  if carrying.any fun id => (op.stream id).streaming then
    if op₁.anyStreamingLocked then ((op₁.repeatLocked ndk).1, ended, false)
    else (op₁, ended, op.session.isSome)
  else (op₁, ended, false)

def stopRepeating (op : Operator) : Operator := { op with session := op.session.map fun _ => {} }

section Unchanged
variable (op : Operator) (captureId : Int) (info : CaptureInfo) (isStreaming : Bool)
  (ids : List Int) (ndk : Answers)

theorem repeatLocked_eq : ∃ session, (op.repeatLocked ndk).1 = { op with session } ∧
    session.isSome = op.session.isSome := by
  unfold repeatLocked
  split_ifs with htargets hcreated hsession
  · exact ⟨op.session, rfl, rfl⟩
  · exact ⟨op.session, rfl, rfl⟩
  · exact ⟨op.session, rfl, rfl⟩
  · refine ⟨_, rfl, ?_⟩
    cases h : op.session with
    | none => simp [h] at hsession
    | some session => rfl

@[simp] theorem mark_ids : (op.mark captureId info isStreaming).ids = op.ids := rfl

@[simp] theorem unmark_ids : (op.unmark ids).ids = op.ids := rfl

theorem submitCapture_eq : ∃ session rc, op.submitCapture captureId info isStreaming ndk =
    ({ (if op.Marks info isStreaming ndk then op.mark captureId info isStreaming else op) with
      session }, rc) := by
  by_cases hready : op.Ready info
  · cases isStreaming with
    | true =>
      obtain ⟨session, h, -⟩ := (op.mark captureId info true).repeatLocked_eq ndk
      refine ⟨session, ((op.mark captureId info true).repeatLocked ndk).2, ?_⟩
      simp only [submitCapture, Marks, hready]
      exact Prod.ext h rfl
    | false =>
      by_cases hcreated : ndk.created
      · refine ⟨op.session, if ndk.issued then .noError else .deviceError, ?_⟩
        simp [submitCapture, Marks, hready, hcreated, mark]
      · exact ⟨op.session, .deviceError, by simp [submitCapture, Marks, hready, hcreated]⟩
  · exact ⟨op.session, .invalidArgument, by simp [submitCapture, Marks, hready]⟩

theorem cancelLocked_eq : ∃ session stop, op.cancelLocked captureId ndk =
    ({ op.unmark (op.carrying captureId) with session },
      (op.carrying captureId).map (fun id => ⟨id, (op.stream id).frameCount⟩), stop) := by
  simp only [cancelLocked]
  obtain ⟨session, h, -⟩ := (op.unmark (op.carrying captureId)).repeatLocked_eq ndk
  split_ifs with hstreaming hany
  · exact ⟨session, false, by rw [h]⟩
  · exact ⟨op.session, _, rfl⟩
  · exact ⟨op.session, false, rfl⟩

theorem mem_carrying {id : Int} :
    id ∈ op.carrying captureId ↔ id ∈ op.ids ∧ (op.stream id).captureId = captureId := by
  simp [carrying]

end Unchanged

end Operator

end OniroSoc.Camera

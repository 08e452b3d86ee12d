import OniroSoc.Camera.Repeating

/-!
# Which capture a capture error names

`OnCaptureFailedCb` does not look at the request that failed: it goes through `streams_` and tells
the framework that every stream that carries a capture has lost its buffer, with the id of the
capture that the last of them carries.
-/

namespace OniroSoc.Camera
open Support List

inductive StreamError where
  | bufferLost
deriving DecidableEq

structure ErrorInfo where
  streamId : Int
  error : StreamError
deriving DecidableEq

structure CaptureError where
  captureId : Int
  infos : List ErrorInfo
deriving DecidableEq

def CaptureError.streamIds (error : CaptureError) : List Int := error.infos.map ErrorInfo.streamId

structure Target where
  (streamId captureId : Int)
deriving DecidableEq

namespace Operator

def collect (op : Operator) : List Int → Int → List ErrorInfo → Int × List ErrorInfo
  | [], captureId, infos => (captureId, infos)
  | id :: ids, captureId, infos =>
    if (op.stream id).captureId < 0 then op.collect ids captureId infos
    else op.collect ids (op.stream id).captureId (infos ++ [⟨id, .bufferLost⟩])

def onCaptureFailed (op : Operator) (callback failure : Bool) : List CaptureError :=
  if !callback || !failure then []
  else
    let (captureId, infos) := op.collect (op.ids.insertionSort (· ≤ ·)) (-1) []
    if 0 ≤ captureId then [⟨captureId, infos⟩] else []

def Carries (op : Operator) (id : Int) : Prop := id ∈ op.ids ∧ 0 ≤ (op.stream id).captureId

instance (op : Operator) (id : Int) : Decidable (op.Carries id) :=
  inferInstanceAs (Decidable (_ ∧ _))

structure Right (op : Operator) (request : List Target) (errors : List CaptureError) : Prop where
  /-- An error lists streams of its capture only. -/
  belongs : ∀ error ∈ errors, ∀ id ∈ error.streamIds,
    id ∈ op.ids ∧ (op.stream id).captureId = error.captureId
  /-- Every stream of the request is reported under its capture. -/
  reported : ∀ target ∈ request, ∃ error ∈ errors,
    error.captureId = target.captureId ∧ target.streamId ∈ error.streamIds
  /-- No stream of a capture that the request is not for is reported. -/
  spared : ∀ error ∈ errors, ∀ id ∈ error.streamIds,
    ∃ target ∈ request, target.captureId = (op.stream id).captureId

def Sole (op : Operator) (request : List Target) : Prop :=
  (∀ target ∈ request, op.Carries target.streamId) ∧
    (∀ target ∈ request, ∀ id ∈ op.ids, op.Carries id → (op.stream id).captureId = target.captureId)
    ∧ (request = [] → ∀ id ∈ op.ids, ¬ op.Carries id)

instance (op : Operator) (request : List Target) : Decidable (op.Sole request) :=
  inferInstanceAs (Decidable (_ ∧ _ ∧ _))

variable {op : Operator} {request : List Target}

theorem collect_streamIds (op : Operator) (ids : List Int) (captureId : Int)
    (infos : List ErrorInfo) :
    (op.collect ids captureId infos).2.map ErrorInfo.streamId =
      infos.map ErrorInfo.streamId ++ ids.filter fun id => 0 ≤ (op.stream id).captureId := by
  induction ids generalizing captureId infos with
  | nil => simp [collect]
  | cons id ids ih =>
    rw [collect]
    by_cases hneg : (op.stream id).captureId < 0
    · rw [if_pos hneg, ih, filter_cons_of_neg (by simpa using hneg)]
    · rw [if_neg hneg, ih, filter_cons_of_pos (by simpa using hneg), map_append, append_assoc]
      rfl

theorem collect_captureId (op : Operator) (ids : List Int) (captureId : Int)
    (infos : List ErrorInfo) :
    (∀ id ∈ ids, (op.stream id).captureId < 0) ∧ (op.collect ids captureId infos).1 = captureId ∨
    ∃ id ∈ ids, 0 ≤ (op.stream id).captureId ∧
      (op.collect ids captureId infos).1 = (op.stream id).captureId := by
  induction ids generalizing captureId infos with
  | nil => exact .inl ⟨nofun, rfl⟩
  | cons id ids ih =>
    rw [collect]
    by_cases hneg : (op.stream id).captureId < 0
    · rw [if_pos hneg]
      obtain ⟨hall, heq⟩ | ⟨last, hlast, hfound⟩ := ih captureId infos
      · exact .inl ⟨forall_mem_cons.mpr ⟨hneg, hall⟩, heq⟩
      · exact .inr ⟨last, .tail _ hlast, hfound⟩
    · rw [if_neg hneg]
      obtain ⟨-, heq⟩ | ⟨last, hlast, hfound⟩ :=
        ih (op.stream id).captureId (infos ++ [⟨id, .bufferLost⟩])
      -- no later stream carries a capture, so the id is the one of this stream
      · exact .inr ⟨id, .head _, not_lt.mp hneg, heq⟩
      · exact .inr ⟨last, .tail _ hlast, hfound⟩

theorem onCaptureFailed_cases (op : Operator) :
    (∀ id, ¬ op.Carries id) ∧ op.onCaptureFailed true true = [] ∨
    ∃ error, op.onCaptureFailed true true = [error] ∧ (∀ id, id ∈ error.streamIds ↔ op.Carries id) ∧
      ∃ id, op.Carries id ∧ (op.stream id).captureId = error.captureId := by
  have hstreams := op.collect_streamIds (op.ids.insertionSort (· ≤ ·)) (-1) []
  have hdef : op.onCaptureFailed true true =
      if 0 ≤ (op.collect (op.ids.insertionSort (· ≤ ·)) (-1) []).1 then
        [⟨(op.collect (op.ids.insertionSort (· ≤ ·)) (-1) []).1,
          (op.collect (op.ids.insertionSort (· ≤ ·)) (-1) []).2⟩]
      else [] := rfl
  obtain ⟨hall, heq⟩ | ⟨last, hlast, hpos, heq⟩ :=
    op.collect_captureId (op.ids.insertionSort (· ≤ ·)) (-1) []
  · refine .inl ⟨fun id hid => ?_, ?_⟩
    · exact absurd hid.2 (not_le.mpr (hall id ((mem_insertionSort _).mpr hid.1)))
    · rw [hdef, heq]
      rfl
  · rw [hdef, if_pos (heq ▸ hpos)]
    refine .inr ⟨_, rfl, fun id => ?_, last, ⟨(mem_insertionSort _).mp hlast, hpos⟩, heq.symm⟩
    rw [CaptureError.streamIds, hstreams]
    simp [Carries]

theorem right_nil_iff : Right op request [] ↔ request = [] := by
  constructor
  · intro h
    refine eq_nil_iff_forall_not_mem.mpr fun target htarget => ?_
    obtain ⟨_, herror, -⟩ := h.reported target htarget
    exact absurd herror not_mem_nil
  · rintro rfl
    exact ⟨nofun, nofun, nofun⟩

theorem right_iff (op : Operator) (request : List Target) :
    Right op request (op.onCaptureFailed true true) ↔ op.Sole request := by
  obtain ⟨hnone, herrors⟩ | ⟨error, herrors, hstreams, carrier, hcarrier, hid⟩ :=
    op.onCaptureFailed_cases
  all_goals rw [herrors]
  · constructor
    · intro h
      obtain rfl := right_nil_iff.mp h
      exact ⟨nofun, nofun, fun _ id _ => hnone id⟩
    · intro h
      exact ⟨nofun, fun target htarget => absurd (h.1 target htarget) (hnone _), nofun⟩
  · constructor
    · intro h
      refine ⟨fun target htarget => ?_, fun target htarget id _ hcarries => ?_, ?_⟩
      · obtain ⟨_, herror, -, hmem⟩ := h.reported target htarget
        obtain rfl := mem_singleton.mp herror
        exact (hstreams _).mp hmem
      · obtain ⟨_, herror, hcapture, -⟩ := h.reported target htarget
        obtain rfl := mem_singleton.mp herror
        rw [(h.belongs _ herror id ((hstreams id).mpr hcarries)).2, hcapture]
      · rintro rfl id - hcarries
        obtain ⟨target, htarget, -⟩ := h.spared error (.head _) id ((hstreams id).mpr hcarries)
        exact absurd htarget not_mem_nil
    · rintro ⟨hcarry, hsame, hsome⟩
      have hne : request ≠ [] := fun h => hsome h carrier hcarrier.1 hcarrier
      obtain ⟨target₀, htarget₀⟩ := exists_mem_of_ne_nil request hne
      -- every stream that carries a capture carries the one that is reported
      have hone : ∀ id, op.Carries id → (op.stream id).captureId = error.captureId := fun id h => by
        rw [hsame target₀ htarget₀ id h.1 h, ← hid, hsame target₀ htarget₀ carrier hcarrier.1 hcarrier]
      refine ⟨?_, fun target htarget => ⟨error, .head _, ?_, ?_⟩, ?_⟩
      · rintro _ herror id hmem
        obtain rfl := mem_singleton.mp herror
        have hcarries := (hstreams id).mp hmem
        exact ⟨hcarries.1, hone id hcarries⟩
      · rw [← hid, hsame target htarget carrier hcarrier.1 hcarrier]
      · exact (hstreams _).mpr (hcarry target htarget)
      · rintro _ herror id hmem
        obtain rfl := mem_singleton.mp herror
        have hcarries := (hstreams id).mp hmem
        exact ⟨target₀, htarget₀, (hsame target₀ htarget₀ id hcarries.1 hcarries).symm⟩

theorem not_right_of_two (id₁ id₂ : Int) (h₁ : op.Carries id₁) (h₂ : op.Carries id₂)
    (hne : (op.stream id₁).captureId ≠ (op.stream id₂).captureId) (request : List Target) :
    ¬ Right op request (op.onCaptureFailed true true) := by
  rw [right_iff]
  rintro ⟨-, hsame, hsome⟩
  have hempty : request ≠ [] := fun h => hsome h id₁ h₁.1 h₁
  obtain ⟨target, htarget⟩ := exists_mem_of_ne_nil request hempty
  exact hne ((hsame target htarget id₁ h₁.1 h₁).trans (hsame target htarget id₂ h₂.1 h₂).symm)

def requestFor (op : Operator) (ids : List Int) : List Target :=
  ids.map fun id => ⟨id, (op.stream id).captureId⟩

def reissued (op : Operator) (ndk : Answers) : List (List Target) :=
  if op.targets ≠ [] ∧ (op.repeatLocked ndk).2 = .noError then [op.requestFor op.targets] else []

def buildSession (op : Operator) (target : Int → Bool) (built : Bool) : Operator :=
  let op₁ := { op with stream := fun id => { op.stream id with target := target id } }
  if built then { op₁ with session := some {}, committed := true } else op₁

def endShot (op : Operator) (streamId : Int) : Operator :=
  { op with stream := Function.update op.stream streamId { op.stream streamId with captureId := -1 } }

end Operator

namespace Errors

structure Failure where
  op : Operator
  request : List Target
  errors : List CaptureError

structure State where
  op : Operator := {}
  callback : Bool := true
  issued : List (List Target) := []
  failures : List Failure := []

inductive Action where
  | createStreams (infos : List StreamInfo)
  | releaseStreams (streamIds : List Int)
  | closeSession
  | buildSession (target : Int → Bool) (built : Bool)
  | settingsChanged (ndk : Answers)
  | capture (captureId : Int) (info : CaptureInfo) (isStreaming : Bool) (ndk : Answers)
  | cancelCapture (captureId : Int) (ndk : Answers)
  | stopRepeating
  | endShot (streamId : Int)
  | captureFailed (k : Nat) (failure : Bool)

def step (s : State) : Action → Option State
  | .createStreams infos => some { s with op := s.op.createStreams infos }
  | .releaseStreams streamIds => some { s with op := s.op.releaseStreams streamIds }
  | .closeSession => some { s with op := s.op.closeSession }
  | .buildSession target built => some { s with op := s.op.buildSession target built }
  -- the lens stays, or was switched
  | .settingsChanged ndk =>
    if s.op.committed = false ∨ s.op.session = none ∨ s.op.anyStreamingLocked = false then some s
    else some { s with op := (s.op.repeatLocked ndk).1, issued := s.op.reissued ndk ++ s.issued }
  | .capture captureId info isStreaming ndk =>
    let (op, rc) := s.op.submitCapture captureId info isStreaming ndk
    let ids := if isStreaming then op.targets else info.streamIds
    some { s with
      op
      issued :=
        if rc = .noError ∧ (isStreaming = true → ids ≠ []) then op.requestFor ids :: s.issued
        else s.issued }
  | .cancelCapture captureId ndk =>
    let op := (s.op.cancelLocked captureId ndk).1
    let wasStreaming := (s.op.carrying captureId).any fun id => (s.op.stream id).streaming
    some { s with
      op
      issued :=
        (if wasStreaming && op.anyStreamingLocked then op.reissued ndk else []) ++ s.issued }
  | .stopRepeating => some { s with op := s.op.stopRepeating }
  | .endShot streamId => some { s with op := s.op.endShot streamId }
  | .captureFailed k failure => do
    let request ← s.issued[k]?
    some { s with
      failures := ⟨s.op, request, s.op.onCaptureFailed s.callback failure⟩ :: s.failures }

def AllRight (s : State) : Prop :=
  s.callback = true → ∀ failure ∈ s.failures, failure.op.Right failure.request failure.errors

/-- The condition on a callback: the failed request is for the one capture that runs. -/
def FailsAlone (s : State) : Action → Prop
  | .captureFailed k failure => s.callback = true → ∀ request ∈ s.issued[k]?,
      if failure then s.op.Sole request else request = []
  | _ => True

instance (s : State) : DecidablePred (FailsAlone s)
  | .captureFailed k failure =>
    inferInstanceAs (Decidable (s.callback = true → ∀ request ∈ s.issued[k]?,
      if failure then s.op.Sole request else request = []))
  | .createStreams .. | .releaseStreams _ | .closeSession | .buildSession .. | .settingsChanged _
  | .capture .. | .cancelCapture .. | .stopRepeating | .endShot _ =>
    inferInstanceAs (Decidable True)

variable {s s' : State} {a : Action}

theorem step_cases (h : step s a = some s') :
    (∃ k failure request, a = .captureFailed k failure ∧ s.issued[k]? = some request ∧
        s' = { s with
          failures := ⟨s.op, request, s.op.onCaptureFailed s.callback failure⟩ :: s.failures }) ∨
      FailsAlone s a ∧ s'.callback = s.callback ∧ s'.failures = s.failures := by
  cases a with
  | captureFailed k failure =>
    obtain ⟨request, hrequest, h⟩ := Option.bind_eq_some_iff.mp h
    exact .inl ⟨k, failure, request, rfl, hrequest, (Option.some.inj h).symm⟩
  | settingsChanged ndk =>
    rw [step] at h
    split_ifs at h <;> cases h <;> exact .inr ⟨trivial, rfl, rfl⟩
  | _ =>
    cases h
    exact .inr ⟨trivial, rfl, rfl⟩

theorem allRight_step (h : step s a = some s') : AllRight s' ↔ AllRight s ∧ FailsAlone s a := by
  obtain ⟨k, failure, request, rfl, hrequest, rfl⟩ | ⟨halone, hcallback, hfailures⟩ := step_cases h
  · cases hcallback : s.callback with
    | false => simp [AllRight, FailsAlone, hcallback]
    | true =>
      have hright : s.op.Right request (s.op.onCaptureFailed true failure) ↔
          if failure then s.op.Sole request else request = [] := by
        cases failure with
        | true => exact s.op.right_iff request
        | false => exact Operator.right_nil_iff
      simp [AllRight, FailsAlone, hcallback, hrequest, hright, and_comm]
  · rw [AllRight, AllRight, hcallback, hfailures]
    exact (and_iff_left halone).symm

/-- **The errors name the right captures** exactly if every request that fails is for the one
capture that any stream carries at that time, and its streams carry it still. -/
theorem errors_right_iff (s s' : State) (actions : List Action)
    (hrun : run step s actions = some s') (hnone : s.failures = []) :
    Always step AllRight s actions ↔ Along step FailsAlone s actions :=
  always_iff_along (J := AllRight) (fun _ h => h)
    (fun _ _ _ h halone hstep => (allRight_step hstep).mpr ⟨h, halone⟩)
    (fun _ _ _ _ halone hstep h => halone ((allRight_step hstep).mp h).2) hrun
    (fun _ => by rw [hnone]; exact nofun)

def preview : List Action :=
  [.createStreams [⟨1, true, false⟩, ⟨2, true, false⟩], .buildSession (fun _ => true) true,
    .capture 10 ⟨[1], false⟩ true {}]

theorem preview_fails : ∃ s, run step {} (preview ++ [.captureFailed 0 true]) = some s ∧
    s.failures.map Failure.errors = [[⟨10, [⟨1, .bufferLost⟩]⟩]] ∧
    Always step AllRight {} (preview ++ [.captureFailed 0 true]) :=
  ⟨_, rfl, by decide, (errors_right_iff _ _ _ rfl rfl).mpr
    (along_of_check (fun s a => of_decide_eq_true (p := FailsAlone s a)) (by decide))⟩

def photo (k : Nat) : List Action :=
  preview ++ [.capture 20 ⟨[2], false⟩ false {}, .captureFailed k true]

def PhotoBlamed (s : State) : Prop :=
  s.failures.map Failure.errors = [[⟨20, [⟨1, .bufferLost⟩, ⟨2, .bufferLost⟩]⟩]] ∧
    s.issued = [[⟨2, 20⟩], [⟨1, 10⟩]] ∧ ¬ AllRight s

theorem photo_blames_preview : (∃ s, run step {} (photo 0) = some s ∧ PhotoBlamed s) ∧
    ∃ s, run step {} (photo 1) = some s ∧ PhotoBlamed s := by
  constructor
  all_goals
    refine ⟨_, rfl, by decide, by decide, fun h => ?_⟩
    exact Operator.not_right_of_two 1 2 (by decide) (by decide) (by decide) _ (h rfl _ (.head _))

end Errors

end OniroSoc.Camera

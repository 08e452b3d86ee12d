import OniroSoc.Support.Runs
import OniroSoc.Camera.Operator

/-!
# What the session repeats

The operator has no list of the captures that run: it goes by `captureId` and `streaming` of each
stream. Here the operations come one after the other, and every Android call succeeds.
-/

namespace OniroSoc.Camera
open Support List

structure StreamInfo where
  streamId : Int
  producer : Bool := true
  video : Bool := false
deriving DecidableEq

namespace Operator

def createStreams (op : Operator) : List StreamInfo → Operator
  | [] => op
  | info :: infos =>
    if info.streamId ∈ op.ids then op.createStreams infos
    else if !info.producer then op
    else createStreams { op with
        ids := op.ids ++ [info.streamId]
        stream := Function.update op.stream info.streamId { video := info.video } } infos

def releaseStreams (op : Operator) (streamIds : List Int) : Operator :=
  { op with ids := op.ids.filter fun id => id ∉ streamIds }

def closeSession (op : Operator) : Operator := { op with session := none, committed := false }

def buildSessionLocked (op : Operator) : Operator :=
  { op with
    stream :=
      fun id => { op.stream id with target := (op.stream id).target || decide (id ∈ op.ids) }
    session := some {}
    committed := true }

def commitStreams (op : Operator) : Operator :=
  if op.ids = [] then op.closeSession else op.closeSession.buildSessionLocked

def settingsChanged (op : Operator) (switch : Bool) : Operator :=
  if op.committed = false ∨ op.session = none then op
  else
    let op₁ := if switch then op.closeSession.buildSessionLocked else op
    if op₁.anyStreamingLocked then (op₁.repeatLocked {}).1 else op₁

def cancelCapture (op : Operator) (captureId : Int) : Operator :=
  let (op₁, _, stop) := op.cancelLocked captureId {}
  if stop then op₁.stopRepeating else op₁

def repeated (op : Operator) : List Int :=
  match op.session with
  | some ⟨some request⟩ => request.targets
  | _ => []

end Operator

structure Repeating where
  op : Operator := {}
  lens : Int := 0
  accepted : List (Int × List Int) := []

namespace Repeating

inductive Operation where
  | createStreams (infos : List StreamInfo)
  | commitStreams (want : Int)
  | capture (captureId : Int) (info : CaptureInfo) (isStreaming : Bool)
  | cancelCapture (captureId : Int)
  | updateSettings (want : Int)
  | releaseStreams (streamIds : List Int)

def step (s : Repeating) : Operation → Option Repeating
  | .createStreams infos => some { s with op := s.op.createStreams infos }
  | .commitStreams want => some { s with op := s.op.commitStreams, lens := want }
  | .capture captureId info isStreaming =>
    let (op, rc) := s.op.submitCapture captureId info isStreaming {}
    some { s with
      op
      accepted :=
        if rc = .noError ∧ isStreaming = true then (captureId, info.streamIds) :: s.accepted
        else s.accepted }
  | .cancelCapture captureId =>
    some { s with
      op := s.op.cancelCapture captureId
      accepted := s.accepted.filter fun capture => capture.1 ≠ captureId }
  | .updateSettings want =>
    some { s with
      op := s.op.settingsChanged (want ≠ s.lens)
      lens := if s.op.committed = false ∨ s.op.session = none then s.lens else want }
  | .releaseStreams streamIds => some { s with op := s.op.releaseStreams streamIds }

def Wanted (accepted : List (Int × List Int)) (id : Int) : Prop :=
  ∃ capture ∈ accepted, id ∈ capture.2

/-- The condition on an operation.  Streams are committed while no streaming capture runs; a stream
that a streaming capture has is neither released nor taken for a photo or for a streaming capture
with another id; and the id of a streaming capture is not negative. -/
def Fits (s : Repeating) : Operation → Prop
  | .commitStreams _ => ∀ id ∈ s.op.ids, ¬ Wanted s.accepted id
  | .capture captureId info true =>
    ∀ id ∈ info.streamIds, 0 ≤ captureId ∧ ∀ capture ∈ s.accepted,
      id ∈ capture.2 → capture.1 = captureId
  | .capture _ info false => ∀ id ∈ info.streamIds, ¬ Wanted s.accepted id
  | .releaseStreams streamIds => ∀ id ∈ streamIds, ¬ Wanted s.accepted id
  | _ => True

structure Tracked (op : Operator) (accepted : List (Int × List Int)) : Prop where
  streaming : ∀ id ∈ op.ids, (op.stream id).streaming = true ↔ Wanted accepted id
  carried : ∀ capture ∈ accepted, ∀ id ∈ capture.2,
    id ∈ op.ids ∧ 0 ≤ capture.1 ∧ (op.stream id).captureId = capture.1 ∧ (op.stream id).target =
    true

structure InStep (op : Operator) (accepted : List (Int × List Int)) : Prop where
  tracked : Tracked op accepted
  repeats : ∀ id, id ∈ op.repeated ↔ Wanted accepted id
  request : ∀ request, op.session = some ⟨some request⟩ → request.targets ≠ []

section Streams
variable {op : Operator} {accepted : List (Int × List Int)} {id : Int}

namespace Tracked
variable (h : Tracked op accepted)
include h

theorem wanted_mem (hid : Wanted accepted id) : id ∈ op.ids := by
  obtain ⟨capture, hcapture, hid⟩ := hid
  exact (h.carried capture hcapture id hid).1

theorem live_iff (hid : id ∈ op.ids) :
    (op.stream id).live = true ↔ Wanted accepted id := by
  rw [Stream.live, Bool.and_eq_true, h.streaming id hid, decide_eq_true_eq, and_iff_left_iff_imp]
  rintro ⟨capture, hcapture, hid⟩
  obtain ⟨-, hpos, hcaptureId, -⟩ := h.carried capture hcapture id hid
  rw [hcaptureId]
  exact hpos

theorem mem_targets : id ∈ op.targets ↔ Wanted accepted id := by
  rw [Operator.targets, mem_filter, Bool.and_eq_true]
  constructor
  · rintro ⟨hid, hlive, -⟩
    exact (h.live_iff hid).mp hlive
  · intro hid
    have hmem := h.wanted_mem hid
    refine ⟨hmem, (h.live_iff hmem).mpr hid, ?_⟩
    obtain ⟨capture, hcapture, hid⟩ := hid
    exact (h.carried capture hcapture id hid).2.2.2

theorem anyStreaming_iff :
    op.anyStreamingLocked = true ↔ ∃ id, Wanted accepted id := by
  rw [Operator.anyStreamingLocked, any_eq_true]
  constructor
  · rintro ⟨id, hid, hlive⟩
    exact ⟨id, (h.live_iff hid).mp hlive⟩
  · rintro ⟨id, hid⟩
    exact ⟨id, h.wanted_mem hid, (h.live_iff (h.wanted_mem hid)).mpr hid⟩

end Tracked

theorem InStep.of_tracked {op₁ : Operator} {accepted₁ : List (Int × List Int)}
    (h : InStep op accepted) (htracked : Tracked op₁ accepted₁)
    (hsession : op₁.session = op.session)
    (hwanted : ∀ id, Wanted accepted₁ id ↔ Wanted accepted id) : InStep op₁ accepted₁ := by
  refine ⟨htracked, ?_, ?_⟩
  · intro id
    rw [hwanted, ← h.repeats, Operator.repeated, hsession, ← Operator.repeated]
  · intro request hrequest
    exact h.request request (hsession.symm.trans hrequest)

theorem InStep.of_silent (h : Tracked op accepted) (hnone : ∀ id, ¬ Wanted accepted id)
    (hsilent : op.session = none ∨ op.session = some {}) : InStep op accepted := by
  refine ⟨h, fun id => iff_of_false ?_ (hnone id), ?_⟩
  · rcases hsilent with hs | hs <;> rw [Operator.repeated, hs] <;> exact not_mem_nil
  · intro request hrequest
    rcases hsilent with hs | hs <;> cases hs.symm.trans hrequest

theorem InStep.session_isSome (h : InStep op accepted) (hid : Wanted accepted id) :
    op.session.isSome := by
  have hmem := (h.repeats id).mpr hid
  cases hs : op.session with
  | none => rw [Operator.repeated, hs] at hmem; exact absurd hmem not_mem_nil
  | some session => rfl

theorem Tracked.repeatLocked (h : Tracked op accepted) (hsession : op.session.isSome)
    (hsome : ∃ id, Wanted accepted id) :
    InStep (op.repeatLocked {}).1 accepted ∧ (op.repeatLocked {}).2 = .noError := by
  obtain ⟨id, hid⟩ := hsome
  have htargets : op.targets ≠ [] := ne_nil_of_mem (h.mem_targets.mpr hid)
  have hnone : op.session ≠ none := Option.isSome_iff_ne_none.mp hsession
  have heq : op.repeatLocked {} =
      ({ op with session := some ⟨some ⟨op.targets, op.targets.any fun id => (op.stream id).video⟩⟩ },
        .noError) := by
    rw [Operator.repeatLocked, if_neg htargets, if_neg (by simp), if_neg (by simp [hnone])]
  rw [heq]
  refine ⟨⟨{ h with }, fun id => h.mem_targets, ?_⟩, rfl⟩
  rintro request hrequest
  cases hrequest
  exact htargets

theorem Tracked.reissued (h : Tracked op accepted)
    (hsession : (∃ id, Wanted accepted id) → op.session.isSome)
    (hnone : (∀ id, ¬ Wanted accepted id) → InStep op accepted) :
    InStep (if op.anyStreamingLocked then (op.repeatLocked {}).1 else op) accepted := by
  split_ifs with hany
  · have hsome := h.anyStreaming_iff.mp hany
    exact (h.repeatLocked (hsession hsome) hsome).1
  · exact hnone fun id hid => hany (h.anyStreaming_iff.mpr ⟨id, hid⟩)

end Streams

section Operations
variable {op : Operator} {accepted : List (Int × List Int)}

theorem InStep.createStreams (infos : List StreamInfo) (h : InStep op accepted) :
    InStep (op.createStreams infos) accepted := by
  induction infos generalizing op with
  | nil => exact h
  | cons info infos ih =>
    rw [Operator.createStreams]
    split_ifs with hmem hproducer
    · exact ih h
    · exact h
    · refine ih (h.of_tracked ⟨?_, ?_⟩ rfl fun _ => Iff.rfl)
      · intro id hid
        rcases mem_append.mp hid with hid | hid
        · have hne : id ≠ info.streamId := fun heq => hmem (heq ▸ hid)
          simp only [Function.update_of_ne hne]
          exact h.tracked.streaming id hid
        · cases mem_singleton.mp hid
          -- No capture has a stream that was not there.
          simp only [Function.update_self, Bool.false_eq_true, false_iff]
          exact fun hid => hmem (h.tracked.wanted_mem hid)
      · intro capture hcapture id hid
        obtain ⟨hold, hcarried⟩ := h.tracked.carried capture hcapture id hid
        have hne : id ≠ info.streamId := fun heq => hmem (heq ▸ hold)
        simp only [Function.update_of_ne hne]
        exact ⟨mem_append_left _ hold, hcarried⟩

theorem Tracked.rebuilt (h : Tracked op accepted) :
    Tracked op.closeSession.buildSessionLocked accepted := by
  refine ⟨h.streaming, ?_⟩
  intro capture hcapture id hid
  obtain ⟨hmem, hpos, hcaptureId, htarget⟩ := h.carried capture hcapture id hid
  exact ⟨hmem, hpos, hcaptureId, by
    simp only [Operator.buildSessionLocked, Operator.closeSession, htarget, Bool.true_or]⟩

theorem InStep.commitStreams (h : InStep op accepted)
    (hnone : ∀ id ∈ op.ids, ¬ Wanted accepted id) : InStep op.commitStreams accepted := by
  have hnone : ∀ id, ¬ Wanted accepted id := fun id hid => hnone id (h.tracked.wanted_mem hid) hid
  rw [Operator.commitStreams]
  split_ifs
  · exact .of_silent { h.tracked with } hnone (.inl rfl)
  · exact .of_silent h.tracked.rebuilt hnone (.inr rfl)

theorem InStep.settingsChanged (switch : Bool) (h : InStep op accepted) :
    InStep (op.settingsChanged switch) accepted := by
  rw [Operator.settingsChanged]
  by_cases hready : op.committed = false ∨ op.session = none
  · rw [if_pos hready]
    exact h
  rw [if_neg hready]
  cases switch with
  | true =>
    refine h.tracked.rebuilt.reissued (fun _ => rfl) fun hnone => ?_
    exact .of_silent h.tracked.rebuilt hnone (.inr rfl)
  | false =>
    refine h.tracked.reissued ?_ fun _ => h
    rintro ⟨id, hid⟩
    exact h.session_isSome hid

theorem InStep.releaseStreams {streamIds : List Int} (h : InStep op accepted)
    (hfree : ∀ id ∈ streamIds, ¬ Wanted accepted id) :
    InStep (op.releaseStreams streamIds) accepted := by
  refine h.of_tracked ⟨?_, ?_⟩ rfl fun _ => Iff.rfl
  · intro id hid
    exact h.tracked.streaming id (mem_filter.mp hid).1
  · intro capture hcapture id hid
    obtain ⟨hmem, hcarried⟩ := h.tracked.carried capture hcapture id hid
    refine ⟨mem_filter.mpr ⟨hmem, ?_⟩, hcarried⟩
    exact decide_eq_true fun hreleased => hfree id hreleased ⟨capture, hcapture, hid⟩

variable {captureId : Int} {info : CaptureInfo}

theorem InStep.photo (h : InStep op accepted)
    (hfree : ∀ id ∈ info.streamIds, ¬ Wanted accepted id) :
    InStep (op.mark captureId info false) accepted := by
  refine h.of_tracked ⟨?_, ?_⟩ rfl fun _ => Iff.rfl
  · intro id hid
    by_cases hmem : id ∈ info.streamIds
    · simp only [Operator.mark, if_pos hmem, Bool.false_eq_true, false_iff]
      exact hfree id hmem
    · simp only [Operator.mark, if_neg hmem]
      exact h.tracked.streaming id hid
  · intro capture hcapture id hid
    have hmem : id ∉ info.streamIds := fun hmem => hfree id hmem ⟨capture, hcapture, hid⟩
    simp only [Operator.mark, if_neg hmem]
    exact h.tracked.carried capture hcapture id hid

theorem Tracked.mark (h : Tracked op accepted) (hready : op.Ready info)
    (hfits : ∀ id ∈ info.streamIds,
      0 ≤ captureId ∧ ∀ capture ∈ accepted, id ∈ capture.2 → capture.1 = captureId) :
    Tracked (op.mark captureId info true) ((captureId, info.streamIds) :: accepted) := by
  refine ⟨?_, ?_⟩
  · intro id hid
    by_cases hmem : id ∈ info.streamIds
    · simp only [Operator.mark, if_pos hmem, true_iff]
      exact ⟨_, .head _, hmem⟩
    · simp only [Operator.mark, if_neg hmem]
      rw [h.streaming id hid, Wanted, Wanted, exists_mem_cons_iff]
      exact (or_iff_right hmem).symm
  · intro capture hcapture id hid
    by_cases hmem : id ∈ info.streamIds
    · obtain ⟨hstream, htarget⟩ := hready.2.2 id hmem
      have hsame : capture.1 = captureId := by
        rcases mem_cons.mp hcapture with rfl | hcapture
        · rfl
        · exact (hfits id hmem).2 capture hcapture hid
      simp only [Operator.mark, if_pos hmem]
      exact ⟨hstream, hsame ▸ (hfits id hmem).1, hsame.symm, htarget⟩
    · have hcapture : capture ∈ accepted := by
        rcases mem_cons.mp hcapture with rfl | hcapture
        · exact absurd hid hmem
        · exact hcapture
      simp only [Operator.mark, if_neg hmem]
      exact h.carried capture hcapture id hid

theorem InStep.streaming (h : InStep op accepted) (hready : op.Ready info)
    (hfits : ∀ id ∈ info.streamIds,
      0 ≤ captureId ∧ ∀ capture ∈ accepted, id ∈ capture.2 → capture.1 = captureId) :
    InStep ((op.mark captureId info true).repeatLocked {}).1
      ((captureId, info.streamIds) :: accepted) ∧
    ((op.mark captureId info true).repeatLocked {}).2 = .noError := by
  have htracked := h.tracked.mark hready hfits
  by_cases hsome : ∃ id, Wanted ((captureId, info.streamIds) :: accepted) id
  · exact htracked.repeatLocked hready.2.1 hsome
  · -- The capture has no stream, and nothing else runs.
    rw [not_exists] at hsome
    have htargets : (op.mark captureId info true).targets = [] := by
      refine eq_nil_iff_forall_not_mem.mpr fun id hid => hsome id ?_
      exact htracked.mem_targets.mp hid
    rw [Operator.repeatLocked, if_pos htargets]
    refine ⟨h.of_tracked htracked rfl fun id => iff_of_false (hsome id) ?_, rfl⟩
    rintro ⟨capture, hcapture, hid⟩
    exact hsome id ⟨capture, .tail _ hcapture, hid⟩

theorem Tracked.cancelled (h : Tracked op accepted) (captureId : Int) :
    Tracked (op.unmark (op.carrying captureId))
      (accepted.filter fun capture => capture.1 ≠ captureId) := by
  refine ⟨?_, ?_⟩
  · intro id hid
    by_cases hmem : id ∈ op.carrying captureId
    · simp only [Operator.unmark, if_pos hmem, Bool.false_eq_true, false_iff]
      rintro ⟨capture, hcapture, hid⟩
      obtain ⟨hcapture, hne⟩ := mem_filter.mp hcapture
      obtain ⟨-, -, hcarried, -⟩ := h.carried capture hcapture id hid
      exact of_decide_eq_true hne (hcarried.symm.trans ((op.mem_carrying captureId).mp hmem).2)
    · simp only [Operator.unmark, if_neg hmem]
      rw [h.streaming id hid]
      constructor
      · rintro ⟨capture, hcapture, hid'⟩
        refine ⟨capture, mem_filter.mpr ⟨hcapture, decide_eq_true ?_⟩, hid'⟩
        rintro rfl
        exact hmem ((op.mem_carrying _).mpr ⟨hid, (h.carried capture hcapture id hid').2.2.1⟩)
      · rintro ⟨capture, hcapture, hid'⟩
        exact ⟨capture, (mem_filter.mp hcapture).1, hid'⟩
  · intro capture hcapture id hid
    obtain ⟨hcapture, hne⟩ := mem_filter.mp hcapture
    obtain ⟨hmem, hpos, hcarried, htarget⟩ := h.carried capture hcapture id hid
    have hother : id ∉ op.carrying captureId := fun hin =>
      of_decide_eq_true hne (hcarried.symm.trans ((op.mem_carrying captureId).mp hin).2)
    simp only [Operator.unmark, if_neg hother]
    exact ⟨hmem, hpos, hcarried, htarget⟩

theorem Tracked.wanted_cancelled (h : Tracked op accepted)
    (hphoto : ¬ (op.carrying captureId).any (fun id => (op.stream id).streaming) = true)
    (id : Int) :
    Wanted (accepted.filter fun capture => capture.1 ≠ captureId) id ↔ Wanted accepted id := by
  constructor
  · rintro ⟨capture, hcapture, hid⟩
    exact ⟨capture, (mem_filter.mp hcapture).1, hid⟩
  · rintro ⟨capture, hcapture, hid⟩
    refine ⟨capture, mem_filter.mpr ⟨hcapture, decide_eq_true ?_⟩, hid⟩
    rintro rfl
    obtain ⟨hmem, -, hcarried, -⟩ := h.carried capture hcapture id hid
    refine hphoto (any_eq_true.mpr ⟨id, (op.mem_carrying _).mpr ⟨hmem, hcarried⟩, ?_⟩)
    exact (h.streaming id hmem).mpr ⟨capture, hcapture, hid⟩

theorem InStep.cancelCapture (h : InStep op accepted) (captureId : Int) :
    InStep (op.cancelCapture captureId) (accepted.filter fun capture => capture.1 ≠ captureId) := by
  have htracked := h.tracked.cancelled captureId
  rw [Operator.cancelCapture, Operator.cancelLocked]
  by_cases hstreaming : (op.carrying captureId).any (fun id => (op.stream id).streaming) = true
  · rw [if_pos hstreaming]
    by_cases hany : (op.unmark (op.carrying captureId)).anyStreamingLocked = true
    · -- The session goes on with the streams of the others.
      rw [if_pos hany]
      obtain ⟨id, capture, hcapture, hid⟩ := htracked.anyStreaming_iff.mp hany
      have hold : Wanted accepted id := ⟨capture, (mem_filter.mp hcapture).1, hid⟩
      exact (htracked.repeatLocked (h.session_isSome hold) ⟨id, capture, hcapture, hid⟩).1
    · rw [if_neg hany]
      have hnone : ∀ id, ¬ Wanted (accepted.filter fun capture => capture.1 ≠ captureId) id :=
        fun id hid => hany (htracked.anyStreaming_iff.mpr ⟨id, hid⟩)
      cases hsession : op.session with
      | none => exact .of_silent htracked hnone (.inl hsession)
      | some session =>
        refine .of_silent { htracked with } hnone (.inr ?_)
        simp [Operator.stopRepeating, Operator.unmark, hsession]
  · rw [if_neg hstreaming]
    exact h.of_tracked htracked rfl (h.tracked.wanted_cancelled hstreaming)

end Operations

theorem inStep_step {s s' : Repeating} {operation : Operation} (hfits : Fits s operation)
    (hstep : step s operation = some s') (h : InStep s.op s.accepted) :
    InStep s'.op s'.accepted := by
  cases operation with
  | createStreams infos => cases hstep; exact h.createStreams infos
  | commitStreams want => cases hstep; exact h.commitStreams hfits
  | capture captureId info isStreaming =>
    obtain rfl := Option.some.inj hstep
    show InStep (s.op.submitCapture captureId info isStreaming {}).1
      (if (s.op.submitCapture captureId info isStreaming {}).2 = .noError ∧ isStreaming = true
        then (captureId, info.streamIds) :: s.accepted else s.accepted)
    by_cases hready : s.op.Ready info
    · rw [Operator.submitCapture, if_neg (not_not.mpr hready)]
      cases isStreaming with
      | true =>
        obtain ⟨hin, hrc⟩ := h.streaming hready hfits
        rw [if_pos rfl, if_pos ⟨hrc, rfl⟩]
        exact hin
      | false =>
        rw [if_neg Bool.false_ne_true, if_neg (by simp)]
        simpa only [Bool.false_eq_true, and_false, if_false] using h.photo hfits
    · rw [Operator.submitCapture, if_pos hready, if_neg (by simp)]
      exact h
  | cancelCapture captureId => cases hstep; exact h.cancelCapture captureId
  | updateSettings want => cases hstep; exact h.settingsChanged _
  | releaseStreams streamIds => cases hstep; exact h.releaseStreams hfits

theorem inStep_init : InStep {} [] := by
  have hnone : ∀ id, ¬ Wanted [] id := by
    rintro id ⟨capture, hcapture, -⟩
    exact not_mem_nil hcapture
  refine .of_silent ⟨?_, ?_⟩ hnone (.inl rfl)
  · intro id hid
    exact absurd hid not_mem_nil
  · intro capture hcapture
    exact absurd hcapture not_mem_nil

/-- **The repeating request is for the streams of the captures that run**, in every run of
operations that fit. -/
theorem repeating_matches (operations : List Operation) (s : Repeating)
    (hrun : run step {} operations = some s) (hfits : Along step Fits {} operations) :
    (∀ id, id ∈ s.op.repeated ↔ id ∈ s.op.ids ∧ Wanted s.accepted id) ∧
    ((∀ id ∈ s.op.ids, ¬ Wanted s.accepted id) →
       ∀ session, s.op.session = some session → session.repeating = none) := by
  have h : InStep s.op s.accepted :=
    run_invariant_along (I := fun s => InStep s.op s.accepted)
      (fun _ _ _ hin hfits hstep => inStep_step hfits hstep hin) hfits hrun inStep_init
  refine ⟨fun id => ?_, ?_⟩
  · rw [h.repeats, iff_and_self]
    exact h.tracked.wanted_mem
  · rintro hnone ⟨_ | request⟩ hsession
    · rfl
    · obtain ⟨id, hid⟩ := exists_mem_of_ne_nil _ (h.request request hsession)
      have hid : id ∈ s.op.repeated := by rw [Operator.repeated, hsession]; exact hid
      have hwanted := (h.repeats id).mp hid
      exact absurd hwanted (hnone id (h.tracked.wanted_mem hwanted))

def recording : List Operation :=
  [.createStreams [⟨1, true, false⟩, ⟨2, true, true⟩], .commitStreams 0,
    .capture 10 ⟨[1], false⟩ true,
    .capture 11 ⟨[2], false⟩ true, .updateSettings 1, .cancelCapture 11]

theorem repeating_matches_recording : ∃ s, run step {} recording = some s ∧ s.op.repeated = [1] ∧
    (∀ id, id ∈ s.op.repeated ↔ id ∈ s.op.ids ∧ Wanted s.accepted id) := by
  refine ⟨_, rfl, rfl, (repeating_matches recording _ rfl ?_).1⟩
  refine along_cons trivial rfl (along_cons ?_ rfl (along_cons ?_ rfl (along_cons ?_ rfl
    (along_cons trivial rfl (along_cons trivial rfl trivial)))))
  · rintro id - ⟨capture, hcapture, -⟩
    exact not_mem_nil hcapture
  · intro id hid
    exact ⟨by decide, fun capture hcapture => absurd hcapture not_mem_nil⟩
  · intro id hid
    refine ⟨by decide, fun capture hcapture hin => ?_⟩
    cases mem_singleton.mp hid
    cases mem_singleton.mp hcapture
    exact absurd hin (by decide)

def preview : List Operation :=
  [.createStreams [⟨1, true, false⟩, ⟨2, true, false⟩], .commitStreams 0,
    .capture 10 ⟨[1], false⟩ true]

theorem repeating_differs :
    (∃ s, run step {} (preview ++ [.commitStreams 0]) = some s ∧ s.accepted = [(10, [1])] ∧
      1 ∈ s.op.ids ∧ s.op.repeated = []) ∧
    (∃ s, run step {} (preview ++ [.releaseStreams [1]]) = some s ∧ 1 ∉ s.op.ids ∧
      s.op.repeated = [1]) ∧
    (∃ s, run step {}
        (preview ++
          [.capture 11 ⟨[2], false⟩ true, .capture 12 ⟨[1], false⟩ false,
           .updateSettings 0]) = some s ∧
      s.accepted = [(11, [2]), (10, [1])] ∧ 1 ∈ s.op.ids ∧ s.op.repeated = [2]) :=
  ⟨⟨_, rfl, rfl, by decide, rfl⟩, ⟨_, rfl, by decide, rfl⟩, ⟨_, rfl, rfl, by decide, rfl⟩⟩

end Repeating

end OniroSoc.Camera

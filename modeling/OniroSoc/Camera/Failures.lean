import OniroSoc.Camera.Device
import OniroSoc.Camera.Repeating

/-!
# What a failed call leaves in the stream table

`CreateStreams` and `Capture` change several streams before the call of the library or of the
surface that can fail, and hold `lock_` from the first to the last.  Neither takes anything back.
-/

namespace OniroSoc.Camera
open Support List

inductive Fault where
  | producer
  | surface
  | reader
  | window
deriving DecidableEq

structure NewStream where
  streamId : Int
  video : Bool := false
  fault : Option Fault := none
deriving DecidableEq

structure StreamTable where
  op : Operator := {}
  readers : Handles Kind := {}
  reader : Int → Option Object := fun _ => none
  listening : List Object := []

inductive CreateRc where
  | noError | invalidArgument | insufficientResources
deriving DecidableEq

namespace StreamTable

def newReader (t : StreamTable) : StreamTable × Object :=
  let (readers, reader) := t.readers.create .reader
  ({ t with readers, listening := reader :: t.listening }, reader)

def addStream (t : StreamTable) (info : NewStream) (reader : Object) : StreamTable :=
  { t with
    op := { t.op with
      ids := t.op.ids ++ [info.streamId]
      stream := Function.update t.op.stream info.streamId { video := info.video } }
    reader := Function.update t.reader info.streamId (some reader) }

def createStreams (t : StreamTable) : List NewStream → StreamTable × CreateRc
  | [] => (t, .noError)
  | info :: infos =>
    if info.streamId ∈ t.op.ids then t.createStreams infos
    else
      match info.fault with
      | some .producer => (t, .invalidArgument)
      | some .surface | some .reader => (t, .insufficientResources)
      -- the stream goes, its reader does not
      | some .window => (t.newReader.1, .insufficientResources)
      | none => (t.newReader.1.addStream info t.newReader.2).createStreams infos

def tried (ids : List Int) : List NewStream → List NewStream
  | [] => []
  | info :: infos =>
    if info.streamId ∈ ids then tried ids infos else info :: tried (ids ++ [info.streamId]) infos

inductive Attempt where
  | createStreams (infos : List NewStream)
  | capture (captureId : Int) (info : CaptureInfo) (isStreaming : Bool) (ndk : Answers)

def attempt (t : StreamTable) : Attempt → StreamTable × Bool
  | .createStreams infos => ((t.createStreams infos).1, (t.createStreams infos).2 = .noError)
  | .capture captureId info isStreaming ndk =>
    let (op, rc) := t.op.submitCapture captureId info isStreaming ndk
    ({ t with op }, rc = .noError)

structure Unchanged (t t' : StreamTable) : Prop where
  ids : t'.op.ids = t.op.ids
  captureId : ∀ id ∈ t.op.ids, (t'.op.stream id).captureId = (t.op.stream id).captureId
  streaming : ∀ id ∈ t.op.ids, (t'.op.stream id).streaming = (t.op.stream id).streaming
  frameCount : ∀ id ∈ t.op.ids, (t'.op.stream id).frameCount = (t.op.stream id).frameCount
  session : t'.op.session = t.op.session
  readers : t'.readers.opened = t.readers.opened
  listening : t'.listening = t.listening

def FailsLate (op : Operator) (captureId : Int) (info : CaptureInfo) (isStreaming : Bool)
    (ndk : Answers) : Prop :=
  if isStreaming then (op.mark captureId info true).targets ≠ [] ∧ ¬ (ndk.created ∧ ndk.issued)
  else ndk.created = true ∧ ndk.issued = false

def Marked (op : Operator) (captureId : Int) (info : CaptureInfo) (isStreaming : Bool) : Prop :=
  ∀ id ∈ info.streamIds, (op.stream id).captureId = captureId ∧ (op.stream id).streaming =
    isStreaming ∧ (op.stream id).frameCount = 0

def Keeps (t : StreamTable) : Attempt → Prop
  | .createStreams infos =>
    (∀ info ∈ tried t.op.ids infos, info.fault = none) ∨
      ∃ info ∈ (tried t.op.ids infos).head?, info.fault ≠ none ∧ info.fault ≠ some .window
  | .capture captureId info isStreaming ndk =>
    t.op.Ready info → FailsLate t.op captureId info isStreaming ndk →
      Marked t.op captureId info isStreaming

variable {t t' : StreamTable}

theorem Unchanged.refl (t : StreamTable) : Unchanged t t :=
  ⟨rfl, fun _ _ => rfl, fun _ _ => rfl, fun _ _ => rfl, rfl, rfl, rfl⟩

theorem ids_subset_createStreams (t : StreamTable) (infos : List NewStream) :
    t.op.ids ⊆ (t.createStreams infos).1.op.ids := by
  induction infos generalizing t with
  | nil => exact Subset.refl _
  | cons info infos ih =>
    rw [createStreams]
    split
    · exact ih t
    · split
      · exact Subset.refl _
      · exact Subset.refl _
      · exact Subset.refl _
      · exact Subset.refl _
      · exact Subset.trans (subset_append_left _ _) (ih (t.newReader.1.addStream info t.newReader.2))

theorem createStreams_succeeds_iff (t : StreamTable) (infos : List NewStream) :
    (t.createStreams infos).2 = .noError ↔ ∀ info ∈ tried t.op.ids infos, info.fault = none := by
  induction infos generalizing t with
  | nil => simp [createStreams, tried]
  | cons info infos ih =>
    rw [createStreams, tried]
    by_cases hid : info.streamId ∈ t.op.ids
    · rw [if_pos hid, if_pos hid]
      exact ih t
    · rw [if_neg hid, if_neg hid, forall_mem_cons]
      cases hfault : info.fault with
      | none =>
        refine (ih _).trans ?_
        simp [addStream, newReader]
      | some fault => cases fault <;> simp

theorem not_unchanged_of_added {info : NewStream} (hid : info.streamId ∉ t.op.ids)
    (infos : List NewStream) :
    ¬ Unchanged t ((t.newReader.1.addStream info t.newReader.2).createStreams infos).1 := by
  intro h
  have hmem := ids_subset_createStreams (t.newReader.1.addStream info t.newReader.2) infos
    (mem_append_right _ (.head _))
  rw [h.ids] at hmem
  exact hid hmem

theorem not_unchanged_newReader (t : StreamTable) : ¬ Unchanged t t.newReader.1 := fun h =>
  absurd (congrArg List.length h.readers) (Nat.succ_ne_self _)

theorem createStreams_unchanged_iff (t : StreamTable) (infos : List NewStream) :
    ((t.createStreams infos).2 ≠ .noError → Unchanged t (t.createStreams infos).1) ↔
      (∀ info ∈ tried t.op.ids infos, info.fault = none) ∨
      ∃ info ∈ (tried t.op.ids infos).head?, info.fault ≠ none ∧ info.fault ≠ some .window := by
  rw [← createStreams_succeeds_iff]
  induction infos with
  | nil => simp [createStreams]
  | cons info infos ih =>
    rw [createStreams, tried]
    by_cases hid : info.streamId ∈ t.op.ids
    · rw [if_pos hid, if_pos hid]
      exact ih
    · rw [if_neg hid, if_neg hid, head?_cons]
      cases hfault : info.fault with
      | none =>
        have hadded := not_unchanged_of_added hid infos
        simp only [hadded, imp_false, not_not, Option.mem_some_iff, exists_eq_left', hfault, ne_eq,
          not_true_eq_false, false_and, or_false]
      | some fault =>
        have hreader := not_unchanged_newReader t
        cases fault <;> simp [hfault, hreader, Unchanged.refl]

theorem mark_unchanged_iff {op : Operator} {captureId : Int} {info : CaptureInfo}
    {isStreaming : Bool} (hready : t.op.Ready info)
    (hop : op = t.op.mark captureId info isStreaming) :
    Unchanged t { t with op } ↔ Marked t.op captureId info isStreaming := by
  subst hop
  constructor
  · intro h id hid
    have hmem := (hready.2.2 id hid).1
    have hcapture := h.captureId id hmem
    have hstreaming := h.streaming id hmem
    have hcount := h.frameCount id hmem
    simp only [Operator.mark, if_pos hid] at hcapture hstreaming hcount
    exact ⟨hcapture.symm, hstreaming.symm, hcount.symm⟩
  · intro h
    refine ⟨rfl, fun id _ => ?_, fun id _ => ?_, fun id _ => ?_, rfl, rfl, rfl⟩
    all_goals
      simp only [Operator.mark]
      split
      · next hid => simp [h id hid]
      · rfl

theorem repeatLocked_cases (op : Operator) (ndk : Answers) (hsession : op.session.isSome) :
    (op.targets ≠ [] ∧ ¬ (ndk.created ∧ ndk.issued)) ∧ op.repeatLocked ndk = (op, .deviceError) ∨
      ¬ (op.targets ≠ [] ∧ ¬ (ndk.created ∧ ndk.issued)) ∧ (op.repeatLocked ndk).2 = .noError := by
  obtain ⟨session, hsome⟩ := Option.isSome_iff_exists.mp hsession
  unfold Operator.repeatLocked
  split_ifs with htargets hcreated hissued <;> simp_all

theorem submitCapture_cases (op : Operator) (captureId : Int) (info : CaptureInfo)
    (isStreaming : Bool) (ndk : Answers) :
    (op.Ready info ∧ FailsLate op captureId info isStreaming ndk) ∧
    op.submitCapture captureId info isStreaming ndk =
      (op.mark captureId info isStreaming, .deviceError) ∨
    ¬ (op.Ready info ∧ FailsLate op captureId info isStreaming ndk) ∧
    ((op.submitCapture captureId info isStreaming ndk).1 = op ∨
     (op.submitCapture captureId info isStreaming ndk).2 = .noError) := by
  unfold Operator.submitCapture
  by_cases hready : op.Ready info
  · rw [if_neg (not_not.mpr hready)]
    cases isStreaming with
    | true =>
      obtain ⟨hlate, hfails⟩ | ⟨hlate, hgoes⟩ :=
        repeatLocked_cases (op.mark captureId info true) ndk hready.2.1
      · exact .inl ⟨⟨hready, hlate⟩, hfails⟩
      · exact .inr ⟨fun h => hlate h.2, .inr hgoes⟩
    | false =>
      obtain ⟨created, issued⟩ := ndk
      cases created <;> cases issued <;> simp [FailsLate, hready]
  · rw [if_pos hready]
    exact .inr ⟨fun h => hready h.1, .inl rfl⟩

theorem capture_unchanged_iff (t : StreamTable) (captureId : Int) (info : CaptureInfo)
    (isStreaming : Bool) (ndk : Answers) :
    ((t.attempt (.capture captureId info isStreaming ndk)).2 = false →
      Unchanged t (t.attempt (.capture captureId info isStreaming ndk)).1) ↔
      Keeps t (.capture captureId info isStreaming ndk) := by
  simp only [attempt, Keeps]
  obtain ⟨hlate, hfails⟩ | ⟨hlate, hsame | hgoes⟩ :=
    submitCapture_cases t.op captureId info isStreaming ndk
  · rw [hfails]
    refine Iff.trans ⟨fun h => h rfl, fun h _ => h⟩ ((mark_unchanged_iff hlate.1 rfl).trans ?_)
    exact ⟨fun h _ _ => h, fun h => h hlate.1 hlate.2⟩
  · rw [hsame]
    exact iff_of_true (fun _ => .refl t) fun hready h => absurd ⟨hready, h⟩ hlate
  · rw [hgoes]
    exact iff_of_true nofun fun hready h => absurd ⟨hready, h⟩ hlate

/-- **A failed call leaves the stream table alone** exactly if a batch fails at the first stream
that it tries to create and before that has a reader, and a capture that fails late finds its
streams marked. -/
theorem failed_unchanged_iff (t : StreamTable) (a : Attempt) :
    ((t.attempt a).2 = false → Unchanged t (t.attempt a).1) ↔ t.Keeps a := by
  cases a with
  | createStreams infos =>
    refine Iff.trans ?_ (t.createStreams_unchanged_iff infos)
    simp [attempt]
  | capture captureId info isStreaming ndk =>
    exact t.capture_unchanged_iff captureId info isStreaming ndk

def committedOne : StreamTable where
  op := ⟨[1], fun _ => { target := true }, some {}, true⟩

theorem failed_half_applied :
    (∃ t',
       ({} : StreamTable).attempt (.createStreams [⟨1, false, none⟩, ⟨2, false, some .surface⟩]) =
         (t', false) ∧
       t'.op.ids = [1]) ∧
    (∃ t', ({} : StreamTable).attempt (.createStreams [⟨1, false, some .window⟩]) = (t', false) ∧
       t'.op.ids = [] ∧
       t'.readers.opened.length = 1 ∧
       t'.listening = t'.readers.opened) ∧
    ∀ isStreaming,
      ∃ t', committedOne.attempt (.capture 7 ⟨[1], false⟩ isStreaming ⟨true, false⟩) = (t', false) ∧
        (t'.op.stream 1).captureId = 7 ∧ (committedOne.op.stream 1).captureId = -1 := by
  refine ⟨⟨_, rfl, by decide⟩, ⟨_, rfl, by decide, by decide, by decide⟩, fun isStreaming => ?_⟩
  cases isStreaming
  all_goals exact ⟨_, rfl, by decide, by decide⟩

end StreamTable

end OniroSoc.Camera

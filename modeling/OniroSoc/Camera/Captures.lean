import OniroSoc.Support.Pool
import OniroSoc.Camera.Operator

/-!
# The end of a capture

A streaming capture ends when it is cancelled, a one-shot capture when its image was delivered or
when it is cancelled before.  `HandleImage` reports with no lock held and clears the id at the end,
and meanwhile `CancelCapture` and new captures change the same field.

Beside the operator stands what there is to be seen of the captures: how often a stream was given
the id of a capture, the pairs of a capture and a stream that `OnCaptureEnded` was called with, and
the pairs that a stream stopped carrying in a step of a thread that had not reported them and was
not going to.  The last are read off the `captureId` of the streams before and after each step.
-/

namespace OniroSoc.Camera
open Support List Option

structure Captures where
  op : Operator := {}
  /-- The id that the stream carries is that of an accepted capture. -/
  accepted : Int → Bool := fun _ => false
  /-- Pairs of a capture and a stream: given to the stream, reported as ended, lost. -/
  (begun reported lost : List (Int × Int) := [])

namespace Captures

/-- What `HandleImage` reads under the lock. -/
structure Shot where
  captureId : Int
  (shutter streaming : Bool)
deriving DecidableEq

def Shot.oneShot (shot : Shot) : Bool := !shot.streaming && 0 ≤ shot.captureId

inductive Instr where
  -- `Capture`
  | submit (captureId : Int) (info : CaptureInfo) (isStreaming : Bool)
  | captureStarted (captureId : Int) (targets : List Int)
  -- `CancelCapture`
  | cancel (captureId : Int)
  | stopRepeating
  | captureEnded (captureId : Int) (ended : List EndedInfo)
  -- `HandleImage`
  | acquire (streamId : Int)
  | deliver (streamId : Int) (shot : Shot)
  | count (streamId : Int) (shot : Shot)
  | frameShutter (streamId : Int) (shot : Shot) (frameCount : Nat)
  | imageEnded (streamId : Int) (shot : Shot) (frameCount : Nat)
  | clear (streamId : Int) (shot : Shot)
deriving DecidableEq

structure Env where
  ndk : Answers := {}
  delivered : Bool := true
deriving DecidableEq

def captureId (s : Captures) (id : Int) : Int := (s.op.stream id).captureId

/-- `stream->captureId = -1` at the end of `HandleImage`. -/
def clearId (s : Captures) (id : Int) : Captures :=
  { s with op.stream := Function.update s.op.stream id { s.op.stream id with captureId := -1 } }

/-- What one instruction does. -/
def perform (s : Captures) (env : Env) : Instr → Captures × List Instr
  | .submit captureId info isStreaming =>
    let (op, rc) := s.op.submitCapture captureId info isStreaming env.ndk
    ({ s with
        op
        accepted := fun id =>
          if s.op.Marks info isStreaming env.ndk ∧ id ∈ info.streamIds then rc = .noError
          else s.accepted id
        begun := if s.op.Marks info isStreaming env.ndk
          then info.streamIds.dedup.map (captureId, ·) ++ s.begun else s.begun },
      if rc = .noError then [.captureStarted captureId info.streamIds] else [])
  | .captureStarted _ _ => (s, [])
  | .cancel captureId =>
    let (op, ended, stop) := s.op.cancelLocked captureId env.ndk
    ({ s with op }, (if stop then [.stopRepeating] else []) ++
      (if ended = [] then [] else [.captureEnded captureId ended]))
  | .stopRepeating => ({ s with op := s.op.stopRepeating }, [])
  | .captureEnded captureId ended =>
    ({ s with reported := ended.map (fun info => (captureId, info.streamId)) ++ s.reported }, [])
  | .acquire id =>
    let stream := s.op.stream id
    (s, if id ∈ s.op.ids ∧ stream.surface = true then
        [.deliver id ⟨stream.captureId, stream.shutterCallback, stream.streaming⟩]
      else [])
  | .deliver id shot => (s, if env.delivered && 0 ≤ shot.captureId then [.count id shot] else [])
  | .count id shot =>
    let stream := { s.op.stream id with frameCount := (s.op.stream id).frameCount + 1 }
    ({ s with op.stream := Function.update s.op.stream id stream },
      [.frameShutter id shot stream.frameCount])
  | .frameShutter id shot frameCount =>
    (s, if shot.streaming then [] else [.imageEnded id shot frameCount])
  | .imageEnded id shot _ =>
    ({ s with reported := (shot.captureId, id) :: s.reported }, [.clear id shot])
  | .clear id _ => (s.clearId id, [])

/-- What the thread is going to report. -/
def Instr.owes : Instr → List (Int × Int)
  | .captureEnded captureId ended => ended.map fun info => (captureId, info.streamId)
  | _ => []

/-- What the thread has reported and is going to clear. -/
def Instr.closes : Instr → Option (Int × Int)
  | .clear id shot => some (shot.captureId, id)
  | _ => none

/-- The stream carries an accepted capture. -/
def Carries (s : Captures) (id : Int) : Prop := s.accepted id = true ∧ s.captureId id ≠ -1

instance (s : Captures) (id : Int) : Decidable (s.Carries id) := inferInstanceAs (Decidable (_ ∧ _))

/-- What streams stop carrying between `s` and `s'`, but for the pairs `told`. -/
def dropped (s s' : Captures) (told : List (Int × Int)) : List (Int × Int) :=
  (s.op.ids.filter fun id => s.Carries id ∧ s'.captureId id ≠ s.captureId id ∧
    (s.captureId id, id) ∉ told).map fun id => (s.captureId id, id)

def exec (s : Captures) (env : Env) (instr : Instr) : Captures × List Instr :=
  let (s', todo) := s.perform env instr
  let told := instr.closes.toList.filter (· ∈ s.reported) ++ todo.flatMap Instr.owes
  ({ s' with lost := s.dropped s' told ++ s.lost }, todo)

inductive Call where
  | capture (captureId : Int) (info : CaptureInfo) (isStreaming : Bool)
  | cancelCapture (captureId : Int)
  | imageAvailable (streamId : Int)

def Call.program : Call → List Instr
  | .capture captureId info isStreaming => [.submit captureId info isStreaming]
  | .cancelCapture captureId => [.cancel captureId]
  | .imageAvailable streamId => [.acquire streamId]

def machine : Machine Captures Instr Call Env where
  start s call := some (s, call.program)
  exec s env instr := some (s.exec env instr)

/-! ### The condition -/

/-- The image of a one-shot capture that a thread has in hand. -/
def Instr.handling : Instr → Option (Int × Shot)
  | .deliver id shot => if shot.oneShot then some (id, shot) else none
  | .count id shot | .frameShutter id shot _ => if shot.streaming then none else some (id, shot)
  | .imageEnded id shot _ | .clear id shot => some (id, shot)
  | _ => none

def Instr.handles (instr : Instr) : Option Int := instr.handling.map Prod.fst

/-- No thread has an image of a one-shot capture of the stream in hand. -/
def Free (others : List Instr) (id : Int) : Prop := ∀ instr ∈ others, instr.handles ≠ some id

/-- The condition on an instruction, with what is left to do besides it.  A capture gets streams
that carry none, and that no `HandleImage` is still going to clear; a capture is cancelled, and an
image of a one-shot capture is taken, while no other image of a one-shot capture is in hand for the
stream. -/
def Apart (s : Captures) (others : List Instr) (_ : Env) : Instr → Prop
  | .submit _ info _ => ∀ id ∈ info.streamIds, ¬ s.Carries id ∧ Free others id
  | .cancel captureId => ∀ id ∈ s.op.carrying captureId, Free others id
  | .acquire id =>
    (s.op.stream id).streaming = false → 0 ≤ (s.op.stream id).captureId → Free others id
  | _ => True

/-! ### The order of the captures -/

/-- The invariant.  A pair is reported, owed or carried as often as it was begun, but for a thread
between its report and its clearing. -/
structure InOrder (s : Captures) (work : List Instr) : Prop where
  lost : s.lost = []
  ids : s.op.ids.Nodup
  counted : ∀ c id, c ≠ -1 → s.reported.count (c, id) + (work.flatMap Instr.owes).count (c, id) +
    (if s.captureId id = c then 1 else 0) ≤
      s.begun.count (c, id) + (work.filterMap Instr.closes).count (c, id)
  apart : (work.filterMap Instr.handles).Nodup
  handled : ∀ instr ∈ work, ∀ id shot, instr.handling = some (id, shot) →
    s.captureId id = shot.captureId
  told : ∀ pair ∈ work.filterMap Instr.closes, pair ∈ s.reported

section Steps
variable {s s' : Captures} {instr : Instr} {rest todo work work' : List Instr} {id c : Int}
  {shot : Shot} {env : Env}

theorem handles_of_handling (h : instr.handling = some (id, shot)) : instr.handles = some id := by
  rw [Instr.handles, h]
  rfl

theorem InOrder.perm (h : InOrder s work) (hw : work.Perm work') : InOrder s work' where
  lost := h.lost
  ids := h.ids
  counted c id hc := by
    rw [← (hw.flatMap_right _).count_eq, ← (hw.filterMap _).count_eq]
    exact h.counted c id hc
  apart := (hw.filterMap _).nodup_iff.mp h.apart
  handled instr hi := h.handled instr (hw.mem_iff.mpr hi)
  told pair hpair := h.told pair ((hw.filterMap _).mem_iff.mpr hpair)

/-- A pair that is about to be cleared is still carried, and by one thread only. -/
theorem InOrder.closing (h : InOrder s work) (c id : Int) :
    (work.filterMap Instr.closes).count (c, id) ≤ if s.captureId id = c then 1 else 0 := by
  have hsub : ∀ work : List Instr, (work.filterMap Instr.closes).count (c, id) ≤
      (work.filterMap Instr.handles).count id := by
    intro work
    induction work with
    | nil => exact le_rfl
    | cons instr work ih => cases instr <;> grind [Instr.closes, Instr.handles, Instr.handling]
  split_ifs with hcarried
  · exact (hsub work).trans (nodup_iff_count_le_one.mp h.apart id)
  · refine (count_eq_zero.mpr fun hmem => hcarried ?_).le
    obtain ⟨instr, hinstr, hcloses⟩ := mem_filterMap.mp hmem
    cases instr with
    | clear id' shot =>
      obtain ⟨rfl, rfl⟩ := Prod.mk.inj (Option.some.inj hcloses)
      exact h.handled _ hinstr id' shot rfl
    | _ => cases hcloses

/-- **A pair is reported at most as often as it was begun.** -/
theorem InOrder.reported_le (h : InOrder s work) (hc : c ≠ -1) :
    s.reported.count (c, id) ≤ s.begun.count (c, id) := by
  have hcounted := h.counted c id hc
  have hclosing := h.closing c id
  omega

theorem dropped_eq_nil {told : List (Int × Int)} (h : ∀ id ∈ s.op.ids, s.Carries id →
    s'.captureId id ≠ s.captureId id → (s.captureId id, id) ∈ told) : s.dropped s' told = [] := by
  simp only [dropped, map_eq_nil_iff, filter_eq_nil_iff, decide_eq_true_eq]
  rintro id hid ⟨hcarries, hchanged, htold⟩
  exact htold (h id hid hcarries hchanged)

theorem lost_of_same {told : List (Int × Int)} (hlost : s.lost = [])
    (hsame : ∀ id, s'.captureId id = s.captureId id) : s.dropped s' told ++ s.lost = [] := by
  rw [hlost, dropped_eq_nil fun id _ _ hchanged => absurd (hsame id) hchanged]
  rfl

/-- The images in hand after a step, when the thread goes on with those it had and the streams of
the images in hand carry what they did. -/
theorem InOrder.hand (h : InOrder s (instr :: rest)) (s' : Captures) (todo : List Instr)
    (hhandling : ∀ i ∈ todo, i.handling = none ∨ todo = [i] ∧ i.handling = instr.handling)
    (hsame : ∀ i ∈ todo ++ rest, ∀ id, i.handles = some id → s'.captureId id = s.captureId id) :
    ((todo ++ rest).filterMap Instr.handles).Nodup ∧
      ∀ i ∈ todo ++ rest, ∀ id shot, i.handling = some (id, shot) →
        s'.captureId id = shot.captureId := by
  have hhandled : ∀ i ∈ todo ++ rest, ∀ id shot, i.handling = some (id, shot) →
      s'.captureId id = shot.captureId := by
    intro i hi id shot hhandles
    rw [hsame i hi id (handles_of_handling hhandles)]
    rcases mem_append.mp hi with htodo | hrest
    · rcases hhandling i htodo with hnone | ⟨-, heq⟩
      · rw [hnone] at hhandles
        cases hhandles
      · exact h.handled instr mem_cons_self id shot (heq ▸ hhandles)
    · exact h.handled i (mem_cons_of_mem _ hrest) id shot hhandles
  have hsub : (todo.filterMap Instr.handles).Sublist ([instr].filterMap Instr.handles) := by
    by_cases hnone : ∀ i ∈ todo, i.handling = none
    · rw [filterMap_eq_nil_iff.mpr fun i hi => by rw [Instr.handles, hnone i hi]; rfl]
      exact nil_sublist _
    · push Not at hnone
      obtain ⟨i, hi, hsome⟩ := hnone
      obtain ⟨rfl, heq⟩ := (hhandling i hi).resolve_left hsome
      simp [filterMap_cons, Instr.handles, heq]
  refine ⟨Sublist.nodup ?_ h.apart, hhandled⟩
  rw [← singleton_append, filterMap_append, filterMap_append]
  exact hsub.append_right _

/-- A step that changes neither what the streams carry nor what is owed. -/
theorem InOrder.pass (h : InOrder s (instr :: rest)) (hperform : s.perform env instr = (s', todo))
    (hids : s'.op.ids = s.op.ids) (hsame : ∀ id, s'.captureId id = s.captureId id)
    (hlog : s'.begun = s.begun ∧ s'.reported = s.reported)
    (howes : instr.owes = []) (hcloses : instr.closes = none)
    (htodo : ∀ i ∈ todo, i.owes = [] ∧ i.closes = none)
    (hhandling : ∀ i ∈ todo, i.handling = none ∨ todo = [i] ∧ i.handling = instr.handling) :
    InOrder (s.exec env instr).1 ((s.exec env instr).2 ++ rest) := by
  obtain ⟨hapart, hhandled⟩ := h.hand s' todo hhandling (fun i _ id _ => hsame id)
  have howed : (todo ++ rest).flatMap Instr.owes = (instr :: rest).flatMap Instr.owes := by
    simp [howes, flatMap_eq_nil_iff.mpr fun i hi => (htodo i hi).1]
  have hclosed : (todo ++ rest).filterMap Instr.closes = (instr :: rest).filterMap Instr.closes :=
    by
    simp [hcloses, filterMap_eq_nil_iff.mpr fun i hi => (htodo i hi).2]
  simp only [Captures.exec, hperform]
  refine ⟨lost_of_same h.lost hsame, hids ▸ h.ids, fun c id hc => ?_, hapart, hhandled, ?_⟩
  · rw [howed, hclosed, hlog.1, hlog.2]
    exact (congrArg (fun n => _ + (if n = c then 1 else 0)) (hsame id)).trans_le (h.counted c id hc)
  · rw [hclosed, hlog.2]
    exact h.told

theorem count_pairs {ids : List Int} (h : ids.Nodup) (c c' id : Int) :
    (ids.map (c, ·)).count (c', id) = if c' = c ∧ id ∈ ids then 1 else 0 := by
  induction ids with
  | nil => simp
  | cons id' ids ih => grind

namespace InOrder

/-- A step that changes what the streams carry, but for the streams of the images in hand. -/
theorem change (h : InOrder s (instr :: rest))
    (hperform : s.perform env instr = (s', todo)) (hids : s'.op.ids = s.op.ids)
    (hreported : s'.reported = s.reported) (howes : instr.owes = [])
    (htodo : ∀ i ∈ todo, i.closes = none ∧ i.handling = none)
    (htold : ∀ id ∈ s.op.ids, s.Carries id → s'.captureId id ≠ s.captureId id →
      instr.closes = some (s.captureId id, id) ∨ (s.captureId id, id) ∈ todo.flatMap Instr.owes)
    (hsame : ∀ i ∈ rest, ∀ id, i.handles = some id → s'.captureId id = s.captureId id)
    (hcounted : ∀ c id, c ≠ -1 →
      (todo.flatMap Instr.owes).count (c, id) + (if s'.captureId id = c then 1 else 0) +
        s.begun.count (c, id) + instr.closes.toList.count (c, id) ≤
        (if s.captureId id = c then 1 else 0) + s'.begun.count (c, id)) :
    InOrder (s.exec env instr).1 ((s.exec env instr).2 ++ rest) := by
  obtain ⟨hapart, hhandled⟩ := h.hand s' todo (fun i hi => .inl (htodo i hi).2) (by
    intro i hi id hhandles
    rcases mem_append.mp hi with hi | hi
    · rw [Instr.handles, (htodo i hi).2] at hhandles
      cases hhandles
    · exact hsame i hi id hhandles)
  have hcloses : (todo ++ rest).filterMap Instr.closes = rest.filterMap Instr.closes := by
    simp [filterMap_eq_nil_iff.mpr fun i hi => (htodo i hi).1]
  have hcons : (instr :: rest).filterMap Instr.closes =
      instr.closes.toList ++ rest.filterMap Instr.closes := by
    cases hclose : instr.closes <;> simp [hclose]
  simp only [Captures.exec, hperform]
  refine ⟨?_, hids ▸ h.ids, fun c id hc => ?_, hapart, hhandled, fun pair hpair => ?_⟩
  · rw [h.lost, append_nil]
    refine dropped_eq_nil fun id hid hcarries hchanged => mem_append.mpr ?_
    refine (htold id hid hcarries hchanged).imp_left fun hclosed => ?_
    have hmem := h.told (s.captureId id, id) (hcons ▸ mem_append_left _ (by simp [hclosed]))
    simp [hclosed, hmem]
  · have hbefore := h.counted c id hc
    have hstep := hcounted c id hc
    rw [hcons, flatMap_cons, howes, nil_append, count_append] at hbefore
    rw [hcloses, flatMap_append, count_append, hreported]
    change _ + _ + (if s'.captureId id = c then 1 else 0) ≤ s'.begun.count (c, id) + _
    omega
  · rw [hreported]
    refine h.told pair ?_
    rw [hcons]
    exact mem_append_right _ (hcloses ▸ hpair)

theorem exec_submit {info : CaptureInfo} {isStreaming : Bool}
    (h : InOrder s (.submit c info isStreaming :: rest))
    (happart : Apart s rest env (.submit c info isStreaming)) :
    InOrder (s.exec env (.submit c info isStreaming)).1
      ((s.exec env (.submit c info isStreaming)).2 ++ rest) := by
  obtain ⟨session, rc, heq⟩ := s.op.submitCapture_eq c info isStreaming env.ndk
  rcases hperform : s.perform env (.submit c info isStreaming) with ⟨s', todo⟩
  obtain ⟨hs', htodo'⟩ : _ ∧ _ := by simpa only [perform, heq, Prod.mk.injEq] using hperform
  have hnew : ∀ id, s'.captureId id =
      if s.op.Marks info isStreaming env.ndk ∧ id ∈ info.streamIds then c else s.captureId id := by
    intro id
    rw [← hs']
    by_cases hmarks : s.op.Marks info isStreaming env.ndk
    · by_cases hid : id ∈ info.streamIds <;> simp [captureId, Operator.mark, hmarks, hid]
    · simp [captureId, hmarks]
  have htodo : ∀ i ∈ todo, i.owes = [] ∧ i.closes = none ∧ i.handling = none := by
    rw [← htodo']
    split_ifs <;> simp [Instr.owes, Instr.closes, Instr.handling]
  obtain ⟨hids, hreported, hbegun⟩ : s'.op.ids = s.op.ids ∧ s'.reported = s.reported ∧
      s'.begun = if s.op.Marks info isStreaming env.ndk
        then info.streamIds.dedup.map (c, ·) ++ s.begun else s.begun := by
    rw [← hs']
    refine ⟨?_, rfl, rfl⟩
    split_ifs <;> rfl
  refine h.change hperform hids hreported rfl (fun i hi => (htodo i hi).2) ?_ ?_ ?_
  · intro id _ hcarries hchanged
    refine absurd (hnew id) ?_
    rwa [if_neg fun hm => (happart id hm.2).1 hcarries]
  · intro i hi id hhandles
    exact (hnew id).trans (if_neg fun hm => (happart id hm.2).2 i hi hhandles)
  · intro c' id hc
    have hpairs := count_pairs (nodup_dedup info.streamIds) c c' id
    simp only [mem_dedup] at hpairs
    rw [hnew, hbegun, flatMap_eq_nil_iff.mpr fun i hi => (htodo i hi).1]
    grind [Instr.closes]

theorem exec_cancel (h : InOrder s (.cancel c :: rest))
    (happart : Apart s rest env (.cancel c)) :
    InOrder (s.exec env (.cancel c)).1 ((s.exec env (.cancel c)).2 ++ rest) := by
  obtain ⟨session, stop, heq⟩ := s.op.cancelLocked_eq c env.ndk
  rcases hperform : s.perform env (.cancel c) with ⟨s', todo⟩
  obtain ⟨hs', htodo'⟩ : _ ∧ _ := by simpa only [perform, heq, Prod.mk.injEq] using hperform
  have hnew : ∀ id, s'.captureId id = if id ∈ s.op.carrying c then -1 else s.captureId id := by
    intro id
    rw [← hs']
    by_cases hid : id ∈ s.op.carrying c <;> simp [captureId, Operator.unmark, hid]
  have howes : todo.flatMap Instr.owes = (s.op.carrying c).map (c, ·) := by
    rw [← htodo']
    cases hcarrying : s.op.carrying c <;> cases stop <;> simp [Instr.owes]
  obtain ⟨hids, hreported, hbegun⟩ : s'.op.ids = s.op.ids ∧ s'.reported = s.reported ∧
      s'.begun = s.begun := by
    rw [← hs']
    exact ⟨rfl, rfl, rfl⟩
  refine h.change hperform hids hreported rfl ?_ ?_ ?_ ?_
  · rw [← htodo']
    intro i hi
    grind [Instr.closes, Instr.handling]
  · intro id hid hcarries hchanged
    rw [hnew] at hchanged
    grind [s.op.mem_carrying c, captureId]
  · intro i hi id hhandles
    exact (hnew id).trans (if_neg fun hm => happart id hm i hi hhandles)
  · intro c' id hc
    have hnodup : (s.op.carrying c).Nodup := h.ids.filter _
    rw [hnew, howes, hbegun, count_pairs hnodup]
    grind [s.op.mem_carrying c, captureId, Instr.closes]

theorem exec_captureEnded {ended : List EndedInfo}
    (h : InOrder s (.captureEnded c ended :: rest)) :
    InOrder (s.exec env (.captureEnded c ended)).1 rest := by
  obtain ⟨hapart, hhandled⟩ := h.hand s [] nofun fun _ _ _ _ => rfl
  refine ⟨lost_of_same h.lost fun _ => rfl, h.ids, fun c' id hc => ?_, hapart, hhandled, ?_⟩
  · have hcounted := h.counted c' id hc
    simp only [flatMap_cons, Instr.owes, count_append, filterMap_cons, Instr.closes] at hcounted
    simp only [Captures.exec, perform, count_append]
    change _ + _ + (if s.captureId id = c' then 1 else 0) ≤ _
    omega
  · intro pair hpair
    exact mem_append_right _ (h.told pair hpair)

theorem exec_imageEnded {frameCount : Nat}
    (h : InOrder s (.imageEnded id shot frameCount :: rest)) :
    InOrder (s.exec env (.imageEnded id shot frameCount)).1 (.clear id shot :: rest) := by
  obtain ⟨hapart, hhandled⟩ := h.hand s [.clear id shot]
    (by simp [Instr.handling]) fun _ _ _ _ => rfl
  refine ⟨lost_of_same h.lost fun _ => rfl, h.ids, fun c' id' hc => ?_, hapart, hhandled, ?_⟩
  · have hcounted := h.counted c' id' hc
    simp only [flatMap_cons, Instr.owes, nil_append, filterMap_cons, Instr.closes] at hcounted ⊢
    simp only [Captures.exec, perform, count_cons]
    change _ + _ + (if s.captureId id' = c' then 1 else 0) ≤ _
    omega
  · intro pair hpair
    rcases mem_cons.mp hpair with rfl | hpair
    · exact mem_cons_self
    · exact mem_cons_of_mem _ (h.told pair hpair)

theorem exec_clear (h : InOrder s (.clear id shot :: rest)) :
    InOrder (s.exec env (.clear id shot)).1 rest := by
  have hnew : ∀ id', (s.clearId id).captureId id' = if id' = id then -1 else s.captureId id' := by
    intro id'
    by_cases hid : id' = id
    · subst hid
      simp [clearId, captureId]
    · simp [clearId, captureId, hid]
  have hcarried : s.captureId id = shot.captureId := h.handled _ mem_cons_self id shot rfl
  have hperform : s.perform env (.clear id shot) = (s.clearId id, []) := rfl
  refine h.change hperform rfl rfl rfl nofun ?_ ?_ ?_
  · intro id' _ _ hchanged
    grind [Instr.closes]
  · intro i hi id' hhandles
    refine (hnew id').trans (if_neg ?_)
    rintro rfl
    have hnodup : (id' :: rest.filterMap Instr.handles).Nodup := h.apart
    exact (nodup_cons.mp hnodup).1 (mem_filterMap.mpr ⟨i, hi, hhandles⟩)
  · intro c' id' hc
    rw [hnew]
    grind [Instr.closes, clearId]

theorem exec_acquire (h : InOrder s (.acquire id :: rest))
    (happart : Apart s rest env (.acquire id)) :
    InOrder (s.exec env (.acquire id)).1 ((s.exec env (.acquire id)).2 ++ rest) := by
  by_cases hgoes : id ∈ s.op.ids ∧ (s.op.stream id).surface = true
  swap
  · have hperform : s.perform env (.acquire id) = (s, []) := by simp [perform, hgoes]
    exact h.pass hperform rfl (fun _ => rfl) ⟨rfl, rfl⟩ rfl rfl nofun nofun
  obtain ⟨shot, hshot⟩ : ∃ shot : Shot, shot = ⟨(s.op.stream id).captureId,
    (s.op.stream id).shutterCallback, (s.op.stream id).streaming⟩ := ⟨_, rfl⟩
  have hperform : s.perform env (.acquire id) = (s, [.deliver id shot]) := by
    simp [perform, hgoes, hshot]
  by_cases honeShot : shot.oneShot
  swap
  · refine h.pass hperform rfl (fun _ => rfl) ⟨rfl, rfl⟩ rfl rfl ?_ ?_
    · simp [Instr.owes, Instr.closes]
    · simp [Instr.handling, honeShot]
  have hhandling : (Instr.deliver id shot).handling = some (id, shot) := by
    simp [Instr.handling, honeShot]
  have hfree : Free rest id := by
    refine happart ?_ ?_ <;> simp_all [Shot.oneShot]
  simp only [Captures.exec, hperform]
  refine ⟨lost_of_same h.lost fun _ => rfl, h.ids, h.counted, ?_, ?_, h.told⟩
  · rw [singleton_append, filterMap_cons_some (handles_of_handling hhandling), nodup_cons]
    refine ⟨fun hmem => ?_, h.apart⟩
    obtain ⟨i, hi, hid⟩ := mem_filterMap.mp hmem
    exact hfree i hi hid
  · intro i hi id' shot' hhandles
    rcases mem_cons.mp hi with rfl | hi
    · rw [hhandling] at hhandles
      obtain ⟨rfl, rfl⟩ := Prod.mk.inj (Option.some.inj hhandles)
      rw [hshot]
      rfl
    · exact h.handled i (mem_cons_of_mem _ hi) id' shot' hhandles

/-- What each instruction leaves of the order, under the condition. -/
theorem exec (h : InOrder s (instr :: rest)) (happart : Apart s rest env instr) :
    InOrder (s.exec env instr).1 ((s.exec env instr).2 ++ rest) := by
  cases instr with
  | submit captureId info isStreaming => exact h.exec_submit happart
  | cancel captureId => exact h.exec_cancel happart
  | captureEnded captureId ended => exact h.exec_captureEnded
  | acquire id => exact h.exec_acquire happart
  | imageEnded id shot frameCount => exact h.exec_imageEnded
  | clear id shot => exact h.exec_clear
  | captureStarted captureId targets =>
    exact h.pass rfl rfl (fun _ => rfl) ⟨rfl, rfl⟩ rfl rfl nofun nofun
  | stopRepeating => exact h.pass rfl rfl (fun _ => rfl) ⟨rfl, rfl⟩ rfl rfl nofun nofun
  | deliver id shot =>
    refine h.pass rfl rfl (fun _ => rfl) ⟨rfl, rfl⟩ rfl rfl ?_ ?_
    · grind [Instr.owes, Instr.closes]
    · grind [Instr.handling, Shot.oneShot]
  | count id shot =>
    refine h.pass rfl rfl (fun id' => ?_) ⟨rfl, rfl⟩ rfl rfl ?_ ?_
    · by_cases hid : id' = id
      · subst hid
        simp [Captures.captureId]
      · simp [Captures.captureId, hid]
    · simp [Instr.owes, Instr.closes]
    · simp [Instr.handling]
  | frameShutter id shot frameCount =>
    refine h.pass rfl rfl (fun _ => rfl) ⟨rfl, rfl⟩ rfl rfl ?_ ?_
    · grind [Instr.owes, Instr.closes]
    · grind [Instr.handling]

end InOrder

end Steps

/-- What a call starts with owes nothing and has no image in hand. -/
theorem InOrder.begin {s : Captures} {work : List Instr} (h : InOrder s work) (call : Call) :
    InOrder s (call.program ++ work) := by
  cases call <;>
    exact ⟨h.lost, h.ids, h.counted, h.apart, fun i hi id shot hhandling =>
      (mem_cons.mp hi).elim (fun heq => by rw [heq] at hhandling; cases hhandling)
        (fun hi => h.handled i hi id shot hhandling), h.told⟩

def Allowed : Pool Captures Instr → PoolAction Call Env → Prop :=
  Machine.Allowed (fun _ _ _ => True) Apart

/-- **Every capture ends once** in every interleaving whose steps keep apart: `OnCaptureEnded` is
called for a capture and a stream at most as often as the stream was given the capture, and a stream
stops carrying an accepted capture only when the pair was reported or is going to be. -/
theorem captures_end_once (op : Operator) (hids : op.ids.Nodup)
    (hnew : ∀ id, (op.stream id).captureId = -1)
    (actions : List (PoolAction Call Env)) (p : Pool Captures Instr)
    (hrun : Support.run machine.step ⟨{ op }, []⟩ actions = some p)
    (hapart : Along machine.step Allowed ⟨{ op }, []⟩ actions) :
    (∀ c id, c ≠ -1 → p.shared.reported.count (c, id) ≤ p.shared.begun.count (c, id)) ∧
      p.shared.lost = [] := by
  have hstart : InOrder { op } ([] : List Instr) := by
    refine ⟨rfl, hids, fun c id hc => ?_, nodup_nil, nofun, nofun⟩
    simp [captureId, hnew, hc.symm]
  have hkept : InOrder p.shared p.work := by
    refine Machine.run_invariant (I := InOrder) InOrder.perm ?_ ?_ hapart hrun hstart
    · rintro s work call s' program h - hcall
      obtain ⟨rfl, rfl⟩ := Prod.mk.inj (Option.some.inj hcall)
      exact h.begin call
    · rintro s rest env instr s' todo h hdoes hexec
      obtain ⟨rfl, rfl⟩ := Prod.mk.inj (Option.some.inj hexec)
      exact h.exec hdoes
  exact ⟨fun c id hc => hkept.reported_le hc, hkept.lost⟩

def viewfinder : Operator where
  ids := [1, 2]
  stream _ := { target := true }
  session := some {}
  committed := true

/-- A preview and a photo meanwhile; the photo ends with its image, the preview is cancelled. -/
def photo : List (PoolAction Call Env) :=
  [.start (.capture 7 { streamIds := [1] } true), .run 0 {}, .run 0 {},
    .start (.capture 8 { streamIds := [2] } false), .run 1 {}, .run 1 {},
    .start (.imageAvailable 2), .run 2 {}, .run 2 {}, .run 2 {}, .run 2 {}, .run 2 {}, .run 2 {},
    .start (.cancelCapture 7), .run 3 {}, .run 3 {}, .run 3 {}]

theorem captures_end_once_photo :
    ∃ p, Support.run machine.step ⟨{ op := viewfinder }, []⟩ photo = some p ∧
      p.shared.begun = [(8, 2), (7, 1)] ∧ p.shared.reported = [(7, 1), (8, 2)] ∧
      (∀ c id, c ≠ -1 → p.shared.reported.count (c, id) ≤ p.shared.begun.count (c, id)) ∧
      p.shared.lost = [] := by
  have hfree : ∀ id, Free [] id := fun id i hi => absurd hi not_mem_nil
  have hapart : Along machine.step Allowed ⟨{ op := viewfinder }, []⟩ photo := by
    refine along_cons trivial rfl ?_
    refine along_cons (Machine.allowed_run rfl fun id hid => ⟨nofun, hfree id⟩) rfl ?_
    refine along_cons (Machine.allowed_run rfl trivial) rfl ?_
    refine along_cons trivial rfl ?_
    refine along_cons (Machine.allowed_run rfl fun id hid => ⟨?_, hfree id⟩) rfl ?_
    · obtain rfl := mem_singleton.mp hid
      decide
    refine along_cons (Machine.allowed_run rfl trivial) rfl ?_
    refine along_cons trivial rfl ?_
    refine along_cons (Machine.allowed_run rfl fun _ _ => hfree 2) rfl ?_
    iterate 5 refine along_cons (Machine.allowed_run rfl trivial) rfl ?_
    refine along_cons trivial rfl ?_
    refine along_cons (Machine.allowed_run rfl fun id _ => hfree id) rfl ?_
    refine along_cons (Machine.allowed_run rfl trivial) rfl ?_
    exact along_cons (Machine.allowed_run rfl trivial) rfl trivial
  obtain ⟨p, hrun, hbegun, hreported⟩ :
      ∃ p, Support.run machine.step ⟨{ op := viewfinder }, []⟩ photo = some p ∧
        p.shared.begun = [(8, 2), (7, 1)] ∧ p.shared.reported = [(7, 1), (8, 2)] :=
          ⟨_, rfl, rfl, rfl⟩
  exact ⟨p, hrun, hbegun, hreported,
    captures_end_once viewfinder (by decide) (fun _ => rfl) photo p hrun hapart⟩

/-- A photo is taken while `HandleImage` is still going to clear the stream of the one before, and a
photo is cancelled between its report and its clearing. -/
theorem captures_end_wrong :
    (∃ p, Support.run machine.step ⟨{ op := viewfinder }, []⟩
        [.start (.capture 7 { streamIds := [2] } false), .run 0 {}, .start (.imageAvailable 2),
         .run 1 {}, .run 1 {}, .run 1 {}, .run 1 {}, .run 1 {},
         .start (.capture 8 { streamIds := [2] } false), .run 2 {}, .run 1 {}] = some p ∧
      p.shared.reported = [(7, 2)] ∧ (8, 2) ∈ p.shared.lost ∧ p.shared.captureId 2 = -1) ∧
    ∃ p, Support.run machine.step ⟨{ op := viewfinder }, []⟩
        [.start (.capture 7 { streamIds := [2] } false), .run 0 {}, .start (.imageAvailable 2),
         .run 1 {}, .run 1 {}, .run 1 {}, .run 1 {}, .start (.cancelCapture 7), .run 2 {},
         .run 2 {}, .run 1 {}] = some p ∧
      p.shared.begun = [(7, 2)] ∧ p.shared.reported = [(7, 2), (7, 2)] :=
  ⟨⟨_, rfl, rfl, by decide, rfl⟩, ⟨_, rfl, rfl, rfl⟩⟩

end Captures

end OniroSoc.Camera

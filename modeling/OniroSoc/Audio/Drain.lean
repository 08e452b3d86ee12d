import OniroSoc.Audio.StreamRuns

/-!
# Audio — drains

A DRAIN is answered when the ring has run empty and the renderer agrees.  Until then the stream
holds its tag (`drainPending`, `drainTag`), and the sink the work: requested, being drained, or
reported to the protocol loop.
-/

namespace OniroSoc.Audio
open Support

def OhosSink.Draining (s : OhosSink) : Prop :=
  s.drainRequested = true ∨ s.render = .draining ∨ s.pending.drained = true

def Render.isDraining : Render → Bool
  | .draining => true
  | _ => false

def OhosSink.stages (s : OhosSink) : Nat :=
  s.drainRequested.toNat + s.render.isDraining.toNat + s.pending.drained.toNat

def Segment.acks (tag : UInt32) : Segment → Bool
  | .cork t _ => t == tag
  | .flush t => t == tag
  | _ => false

def Segment.drains (tag : UInt32) : Segment → Bool
  | .drain t => t == tag
  | _ => false

theorem Stream.takeEvents_acks (s : Stream) (version tag : UInt32) :
    (s.takeEvents version).2.count (.reply tag []) =
      if s.sink.pending.drained && s.drainPending then (s.drainTag == tag).toNat else 0 := by
  have hcount : ∀ (b : Bool) (m : Message), m ≠ .reply tag [] →
      (if b then [m] else []).count (.reply tag []) = 0 := by
    intro b m hm
    cases b <;> simp [hm]
  show _ = if s.sink.takeEvents.1.drained && s.drainPending then (s.drainTag == tag).toNat else 0
  simp only [takeEvents, List.count_append]
  rw [hcount _ _ (by simp), hcount _ _ (by simp)]
  cases s.sink.takeEvents.1.drained && s.drainPending with
  | false => rfl
  | true =>
    by_cases he : s.drainTag = tag
    · simp [he]
    · simp [he, beq_false_of_ne he]

namespace Live

def acked (s : Live) (tag : UInt32) : Nat := s.sent.count (.reply tag [])

def awaiting (s : Live) (tag : UInt32) : Nat :=
  if s.stream.drainPending = true ∧ s.stream.drainTag = tag then 1 else 0

/-- No drain is forgotten: under every tag, the acknowledgements sent, and the one still to come if
a drain is pending, are as many as the commands acknowledged at once and the drains accepted; and a
pending drain is in progress in the sink. -/
structure DrainsKept (s : Live) : Prop where
  balance : ∀ tag, s.acked tag + s.awaiting tag =
    s.done.countP (Segment.acks tag) + s.done.countP (Segment.drains tag)
  inProgress : s.stream.drainPending = true → s.stream.sink.Draining

variable {s : Live} {segs : List Segment}

theorem DrainsKept.answered (h : s.DrainsKept) {tag : UInt32} (hd : Segment.drain tag ∈ s.done) :
    Message.reply tag [] ∈ s.sent ∨ (s.stream.drainPending = true ∧ s.stream.drainTag = tag) := by
  have hpos : 0 < s.done.countP (Segment.drains tag) :=
    List.countP_pos_iff.mpr ⟨_, hd, by simp [Segment.drains]⟩
  have hb := h.balance tag
  by_cases hw : s.stream.drainPending = true ∧ s.stream.drainTag = tag
  · exact .inr hw
  · refine .inl (List.count_pos_iff.mp ?_)
    simp only [acked, awaiting, if_neg hw] at hb
    omega

def Orderly (s : Live) : Action → Prop
  | .proceed =>
    match s.todo with
    | .drain _ :: _ => s.stream.drainPending = false
    | .flush _ :: _ => s.stream.sink.drainRequested = false
    | _ => True
  | _ => True

structure Drains (s : Live) : Prop where
  balance : ∀ tag, s.acked tag + s.awaiting tag =
    s.done.countP (Segment.acks tag) + s.done.countP (Segment.drains tag)
  stages : s.stream.sink.stages = s.stream.drainPending.toNat

theorem stages_pos_iff (s : OhosSink) : 0 < s.stages ↔ s.Draining := by
  unfold OhosSink.stages OhosSink.Draining
  cases s.drainRequested <;> cases s.pending.drained <;> cases s.render <;>
    simp [Render.isDraining]

theorem Drains.kept (h : s.Drains) : s.DrainsKept := by
  refine ⟨h.balance, fun hp => (stages_pos_iff _).mp ?_⟩
  rw [h.stages, hp]
  decide

theorem drains_created (h : s.Created) : s.Drains := by
  have hf := h.fresh
  refine ⟨fun tag => ?_, ?_⟩
  · simp [acked, awaiting, hf.sent, hf.done, hf.drainPending]
  · simp [OhosSink.stages, Render.isDraining, hf.drainRequested, hf.render, hf.pending,
      hf.drainPending]

theorem rendered_stages {s s' : OhosSink} (h : s.Rendered s') (h₁ : s.stages ≤ 1) :
    s'.stages = s.stages := by
  unfold OhosSink.stages at h₁ ⊢
  cases h with
  | startDrain hw hr => simp [hw, hr, Render.isDraining]
  | endDrain hd =>
    simp only [hd, Render.isDraining, Bool.toNat_true, Bool.toNat_false] at h₁ ⊢
    omega
  | exit hw => simp [hw, Render.isDraining]
  | pop hw => simp [hw, Render.isDraining]
  | wrote chunk started hw => simp [OhosSink.written, hw, Render.isDraining]
  | _ => rfl

theorem acked_proceed (s : Live) (seg : Segment) (segs : List Segment) (tag : UInt32) :
    (s.proceed seg segs).acked tag = s.acked tag + (s.stream.exec seg).2.count (.reply tag []) :=
  List.count_append

theorem countP_done_proceed (s : Live) (seg : Segment) (segs : List Segment) (p : Segment → Bool) :
    (s.proceed seg segs).done.countP p = s.done.countP p + (p seg).toNat := by
  show (s.done ++ [seg]).countP p = _
  cases hp : p seg <;> simp [hp]

variable {seg : Segment}

theorem balance_proceed (h : s.Drains) {tag : UInt32}
    (hb : (s.stream.exec seg).2.count (.reply tag []) + (s.proceed seg segs).awaiting tag =
      s.awaiting tag + (Segment.acks tag seg).toNat + (Segment.drains tag seg).toNat) :
    (s.proceed seg segs).acked tag + (s.proceed seg segs).awaiting tag =
      (s.proceed seg segs).done.countP (Segment.acks tag) +
        (s.proceed seg segs).done.countP (Segment.drains tag) := by
  have := h.balance tag
  rw [acked_proceed, countP_done_proceed, countP_done_proceed]
  omega

theorem awaiting_drain (s : Live) (tag t : UInt32) (segs : List Segment) :
    (s.proceed (.drain tag) segs).awaiting t = (tag == t).toNat := by
  by_cases he : tag = t
  · simp [awaiting, proceed, Stream.exec, Stream.drain, he]
  · simp [awaiting, proceed, Stream.exec, Stream.drain, he, beq_false_of_ne he]

theorem Drains.frame (h : s.Drains)
    (hst : (s.stream.exec seg).1.sink.stages = s.stream.sink.stages)
    (hp : (s.stream.exec seg).1.drainPending = s.stream.drainPending)
    (ht : (s.stream.exec seg).1.drainTag = s.stream.drainTag)
    (hm : ∀ tag, (s.stream.exec seg).2.count (.reply tag []) =
      (Segment.acks tag seg).toNat + (Segment.drains tag seg).toNat) :
    (s.proceed seg segs).Drains := by
  refine ⟨fun tag => balance_proceed h ?_, ?_⟩
  · have : (s.proceed seg segs).awaiting tag = s.awaiting tag := by
      simp only [awaiting, proceed, hp, ht]
    rw [this, hm]
    omega
  · simp only [proceed, hst, hp]
    exact h.stages

theorem Drains.drain (h : s.Drains) (hn : s.stream.drainPending = false) (tag : UInt32)
    (segs : List Segment) : (s.proceed (.drain tag) segs).Drains := by
  have hst := h.stages
  simp only [OhosSink.stages, hn, Bool.toNat_false] at hst
  refine ⟨fun t => balance_proceed h ?_, ?_⟩
  · have hbefore : s.awaiting t = 0 := by simp [awaiting, hn]
    rw [hbefore, awaiting_drain]
    simp [Stream.exec, Stream.drain, Segment.acks, Segment.drains]
  · simp only [proceed, Stream.exec, Stream.drain, OhosSink.requestDrain, OhosSink.stages,
      Bool.toNat_true]
    omega

theorem Drains.takeEvents (h : s.Drains) (version : UInt32) (segs : List Segment) :
    (s.proceed (.takeEvents version) segs).Drains := by
  have hst := h.stages
  have hother := s.stream.takeEvents_acks version
  cases hd : s.stream.sink.pending.drained with
  | false =>
    refine h.frame ?_ ?_ rfl fun tag => ?_
    · simp [Stream.exec, Stream.takeEvents, OhosSink.takeEvents, OhosSink.stages, hd]
    · simp [Stream.exec, Stream.takeEvents, OhosSink.takeEvents, hd]
    · simp [Stream.exec, hother, hd, Segment.acks, Segment.drains]
  | true =>
    have hp : s.stream.drainPending = true := by
      cases hp : s.stream.drainPending with
      | true => rfl
      | false => simp [OhosSink.stages, hd, hp] at hst
    simp only [OhosSink.stages, hd, hp, Bool.toNat_true] at hst
    refine ⟨fun tag => balance_proceed h ?_, ?_⟩
    · have hafter : (s.proceed (.takeEvents version) segs).awaiting tag = 0 := by
        simp [awaiting, proceed, Stream.exec, Stream.takeEvents, OhosSink.takeEvents, hd, hp]
      rw [hafter]
      by_cases he : s.stream.drainTag = tag <;>
        simp [Stream.exec, hother, hd, hp, he, awaiting, Segment.acks, Segment.drains]
    · simp only [proceed, Stream.exec, Stream.takeEvents, OhosSink.takeEvents, OhosSink.stages, hd,
        hp, Bool.and_self, if_true, Bool.toNat_false]
      omega

theorem Drains.flush (h : s.Drains) (hn : s.stream.sink.drainRequested = false)
    (tag : UInt32) (segs : List Segment) : (s.proceed (.flush tag) segs).Drains := by
  refine h.frame ?_ rfl rfl fun t => ?_
  · simp [Stream.exec, Stream.flush, OhosSink.flush, OhosSink.stages, hn]
  · by_cases he : tag = t
    · simp [Stream.exec, Stream.flush, Segment.acks, Segment.drains, he]
    · simp [Stream.exec, Stream.flush, Segment.acks, Segment.drains, he, beq_false_of_ne he]

theorem Drains.other (h : s.Drains) (hd : ∀ tag, seg ≠ .drain tag) (hf : ∀ tag, seg ≠ .flush tag) :
    (s.proceed seg segs).Drains := by
  cases seg with
  | drain tag => exact absurd rfl (hd tag)
  | flush tag => exact absurd rfl (hf tag)
  | takeEvents version => exact h.takeEvents version segs
  | receive data =>
    refine h.frame ?_ rfl rfl fun tag => ?_
    · simp only [Stream.exec, Stream.receive, OhosSink.push]
      split <;> rfl
    · simp only [Stream.exec, Stream.receive]
      split <;> simp [Segment.acks, Segment.drains]
  | maybeRequest =>
    refine h.frame ?_ ?_ ?_ fun tag => ?_ <;> simp only [Stream.exec, Stream.maybeRequest] <;>
      split <;> simp [Segment.acks, Segment.drains]
  | cork tag cork =>
    refine h.frame rfl rfl rfl fun t => ?_
    by_cases he : tag = t
    · simp [Stream.exec, Stream.cork, Segment.acks, Segment.drains, he]
    · simp [Stream.exec, Stream.cork, Segment.acks, Segment.drains, he, beq_false_of_ne he]
  | latency tag sec usec version out =>
    refine h.frame rfl rfl rfl fun t => ?_
    simp [Stream.exec, Stream.latencyReply, Segment.acks, Segment.drains]

theorem step_drains {s s' : Live} {a : Action} (h : s.Drains) (ha : s.Orderly a)
    (hs : s.step a = some s') : s'.Drains := by
  cases a with
  | begin hd =>
    simp only [step] at hs
    split at hs
    · cases hs
      exact { h with }
    · cases hs
  | render r =>
    obtain ⟨sink, hr, rfl⟩ := Option.map_eq_some_iff.mp hs
    have hle : s.stream.sink.stages ≤ 1 := h.stages ▸ Bool.toNat_le _
    exact ⟨h.balance, (rendered_stages (OhosSink.renderStep_rendered hr) hle).trans h.stages⟩
  | proceed =>
    simp only [step] at hs
    split at hs
    · cases hs
    · next seg segs ht =>
        cases hs
        cases seg with
        | drain tag => exact h.drain (by simpa [Orderly, ht] using ha) tag segs
        | flush tag => exact h.flush (by simpa [Orderly, ht] using ha) tag segs
        | _ => exact h.other (by simp) (by simp)

theorem step_forgets {s s' : Live} {a : Action} (h : s.Drains) (ha : ¬ s.Orderly a)
    (hs : s.step a = some s') : ¬ s'.DrainsKept := by
  intro hk
  cases a with
  | begin hd => exact ha trivial
  | render r => exact ha trivial
  | proceed =>
    simp only [step] at hs
    split at hs
    · cases hs
    · next seg segs ht =>
        cases hs
        cases seg with
        | drain tag =>
          -- the tag pending before is overwritten, and its drain is counted no longer
          have hp : s.stream.drainPending = true := by simpa [Orderly, ht] using ha
          have hb := h.balance s.stream.drainTag
          have hb' := hk.balance s.stream.drainTag
          have hold : s.awaiting s.stream.drainTag = 1 := by simp [awaiting, hp]
          have hnone : (s.stream.exec (.drain tag)).2.count (.reply s.stream.drainTag []) = 0 :=
            rfl
          rw [acked_proceed, countP_done_proceed, countP_done_proceed, awaiting_drain, hnone] at hb'
          simp only [Segment.acks, Segment.drains, Bool.toNat_false] at hb'
          omega
        | flush tag =>
          -- the request is cleared, and the drain was in no other stage
          have hr : s.stream.sink.drainRequested = true := by simpa [Orderly, ht] using ha
          have hst := h.stages
          have hp : s.stream.drainPending = true := by
            cases hp : s.stream.drainPending with
            | true => rfl
            | false =>
              simp only [OhosSink.stages, hr, hp, Bool.toNat_true, Bool.toNat_false] at hst
              omega
          simp only [OhosSink.stages, hr, hp, Bool.toNat_true] at hst
          have hpos := (stages_pos_iff _).mpr (hk.inProgress hp)
          simp only [proceed, Stream.exec, Stream.flush, OhosSink.flush, OhosSink.stages,
            Bool.toNat_false] at hpos
          omega
        | _ => exact ha (by simp [Orderly, ht])

/-- **When drains are kept**: exactly if no DRAIN comes in while one is pending and no FLUSH while
the sink has one requested. -/
theorem drains_kept_iff {s₀ s : Live} {as : List Action} (h₀ : s₀.Created)
    (h : run step s₀ as = some s) :
    (Always step DrainsKept s₀ as ↔ Along step Orderly s₀ as) ∧
    (Along step Orderly s₀ as →
       ∀ tag, Segment.drain tag ∈ s.done →
           Message.reply tag [] ∈ s.sent ∨
           (s.stream.drainPending = true ∧ s.stream.drainTag = tag)) :=
    by
  have hstep : ∀ s a s', s.Drains → s.Orderly a → step s a = some s' → s'.Drains :=
    fun _ _ _ hj ha hs => step_drains hj ha hs
  refine ⟨always_iff_along (fun _ hj => Drains.kept hj) hstep
    (fun _ _ _ hj ha hs => step_forgets hj ha hs) h (drains_created h₀), fun ho tag hd => ?_⟩
  exact (run_invariant_along hstep ho h (drains_created h₀)).kept.answered hd

def drainFlushed : List Action :=
  [.begin (.drain 5), .proceed, .begin (.flush 6), .proceed]

def drainTwice : List Action := [.begin (.drain 5), .proceed, .begin (.drain 6), .proceed]

theorem drains_forgotten :
    (∃ s, run step twoFrames drainFlushed = some s ∧ s.stream.drainPending = true ∧
       ¬ s.stream.sink.Draining) ∧
    ∃ s, run step twoFrames drainTwice = some s ∧ Segment.drain 5 ∈ s.done ∧
      Message.reply 5 [] ∉ s.sent ∧ ¬ s.stream.drainTag = 5 := by
  refine ⟨⟨_, rfl, by decide, ?_⟩, ⟨_, rfl, .head _, by decide, by decide⟩⟩
  rw [← stages_pos_iff]
  decide

theorem drains_kept_iff_flushed :
    twoFrames.Created ∧ (run step twoFrames drainFlushed).isSome ∧
    (Always step DrainsKept twoFrames drainFlushed ↔ Along step Orderly twoFrames drainFlushed) :=
  ⟨twoFrames_created, by decide, (drains_kept_iff twoFrames_created rfl).1⟩

end Live

end OniroSoc.Audio

import OniroSoc.Audio.StreamRuns

/-!
# Audio — STARTED and UNDERFLOW

The render thread starts to play and runs dry, in turn.  It leaves both for the protocol loop in two
flags, and a `PumpSinks` pass sends STARTED for the one and UNDERFLOW for the other, in that order.
-/

namespace OniroSoc.Audio
open Support Option

inductive Notice where
  | started
  | underflow
  deriving DecidableEq, Repr

def Message.notice? : Message → Option Notice
  | .started _ => some .started
  | .underflow _ _ => some .underflow
  | _ => none

def notices (ms : List Message) : List Notice := ms.filterMap Message.notice?

@[simp] theorem notices_append (ms ns : List Message) :
    notices (ms ++ ns) = notices ms ++ notices ns :=
  List.filterMap_append

theorem Stream.takeEvents_notices (s : Stream) (version : UInt32) :
    notices (s.takeEvents version).2 =
      (if s.sink.pending.started then [Notice.started] else []) ++
        if s.sink.pending.underflow then [Notice.underflow] else [] := by
  have hsent : ∀ (b : Bool) (m : Message),
      notices (if b then [m] else []) = if b then m.notice?.toList else [] := by
    intro b m
    cases b with
    | true => cases h : m.notice? <;> simp [notices, h]
    | false => rfl
  have hack : notices (if s.sink.takeEvents.1.drained && s.drainPending then [.reply s.drainTag []]
      else []) = [] := by
    split <;> rfl
  simp only [takeEvents, notices_append]
  rw [hack, hsent, hsent, List.append_nil]
  rfl

theorem Stream.exec_notices {s : Stream} {seg : Segment}
    (h : ∀ version, seg ≠ .takeEvents version) : notices (s.exec seg).2 = [] := by
  cases seg with
  | takeEvents version => exact absurd rfl (h version)
  | receive data =>
    simp only [exec, receive]
    split <;> rfl
  | maybeRequest =>
    simp only [exec, maybeRequest]
    split <;> rfl
  | _ => rfl

theorem Stream.exec_pending {s : Stream} {seg : Segment}
    (h : ∀ version, seg ≠ .takeEvents version) : (s.exec seg).1.sink.pending = s.sink.pending := by
  cases seg with
  | takeEvents version => exact absurd rfl (h version)
  | receive data =>
    simp only [exec, receive, OhosSink.push]
    split <;> rfl
  | maybeRequest =>
    simp only [exec, maybeRequest]
    split <;> rfl
  | _ => rfl

def transition (before after : OhosSink) : Option Notice :=
  if before.playing = after.playing then none else if after.playing then some .started
    else some .underflow

structure Noted where
  live : Live
  last : Option Notice := none

namespace Noted

def note (s : Noted) (live : Live) : Action → Noted
  | .render _ => { live, last := (transition s.live.stream.sink live.stream.sink).or s.last }
  | _ => { s with live }

def step (s : Noted) (a : Action) : Option Noted := (s.live.step a).map fun live => s.note live a

/-- After a pass made now, the last notice the client was sent is the last transition. -/
def Truthful (s : Noted) : Prop :=
  ∀ version, (notices (s.live.sent ++ (s.live.stream.takeEvents version).2)).getLast? = s.last

/-- The stream does not start while there is an underflow to be sent. -/
def Reported (s : Noted) : Action → Prop
  | .render (.written _) =>
    s.live.stream.sink.playing = false → s.live.stream.sink.pending.underflow = false
  | _ => True

instance (s : Noted) (a : Action) : Decidable (s.Reported a) := by
  unfold Reported
  split <;> infer_instance

structure Flags (s : Noted) : Prop where
  underflow : s.live.stream.sink.pending.underflow = true → s.last = some .underflow
  started : s.live.stream.sink.pending.started = true → s.live.stream.sink.pending.underflow =
    false → s.last = some .started
  told : s.live.stream.sink.pending.started = false → s.live.stream.sink.pending.underflow = false →
    (notices s.live.sent).getLast? = s.last

theorem flags_created {s₀ : Live} (h₀ : s₀.Created) : Flags { live := s₀ } := by
  have hf := h₀.fresh
  refine ⟨?_, ?_, ?_⟩
  · simp [hf.pending]
  · simp [hf.pending]
  · simp [hf.sent, notices]

variable {s : Noted}

theorem Flags.truthful (h : s.Flags) : s.Truthful := by
  intro version
  rw [notices_append, Stream.takeEvents_notices]
  cases hu : s.live.stream.sink.pending.underflow with
  | true =>
    rw [h.underflow hu]
    cases s.live.stream.sink.pending.started <;> simp
  | false =>
    cases hst : s.live.stream.sink.pending.started with
    | true =>
      rw [h.started hst hu]
      simp
    | false =>
      rw [← h.told hst hu]
      simp

theorem Truthful.last (h : s.Truthful) (hu : s.live.stream.sink.pending.underflow = true) :
    s.last = some .underflow := by
  rw [← h 0, notices_append, Stream.takeEvents_notices, hu]
  cases s.live.stream.sink.pending.started <;> simp

theorem Flags.proceed {s : Noted} (h : s.Flags) (seg : Segment) (segs : List Segment) :
    Flags { s with live := s.live.proceed seg segs } := by
  by_cases hseg : ∃ version, seg = .takeEvents version
  · obtain ⟨version, rfl⟩ := hseg
    exact ⟨nofun, nofun, fun _ _ => h.truthful version⟩
  · rw [not_exists] at hseg
    have hpending := s.live.stream.exec_pending hseg
    have hsent : notices (s.live.sent ++ (s.live.stream.exec seg).2) = notices s.live.sent := by
      rw [notices_append, Stream.exec_notices hseg, List.append_nil]
    refine ⟨?_, ?_, ?_⟩ <;> simp only [Live.proceed, hpending, hsent]
    · exact h.underflow
    · exact h.started
    · exact h.told

theorem Flags.rendered (h : s.Flags) {sink : OhosSink} (hr : s.live.stream.sink.Rendered sink)
    (ha : sink.playing = true → s.live.stream.sink.playing = false →
      s.live.stream.sink.pending.underflow = false) (r : RenderStep) :
    Flags (s.note (s.live.withSink sink) (.render r)) := by
  have hstay : ∀ sink' : OhosSink,
    sink'.playing = s.live.stream.sink.playing → sink'.pending.underflow =
      s.live.stream.sink.pending.underflow → sink'.pending.started =
      s.live.stream.sink.pending.started → Flags
      (s.note (s.live.withSink sink') (.render r)) := by
    intro sink' hp hu hst
    have hlast : (s.note (s.live.withSink sink') (.render r)).last = s.last := by
      simp [note, transition, Live.withSink, hp]
    refine ⟨?_, ?_, ?_⟩ <;> rw [hlast] <;> simp only [note, Live.withSink, hu, hst]
    · exact h.underflow
    · exact h.started
    · exact h.told
  cases hr with
  | ranDry _ _ _ hp =>
    have hlast : transition s.live.stream.sink { s.live.stream.sink with
        playing := false, pending := { s.live.stream.sink.pending with underflow := true } } =
          some .underflow := by
      simp [transition, hp]
    exact ⟨fun _ => congrArg (or · s.last) hlast, fun _ hu => Bool.noConfusion hu,
      fun _ hu => Bool.noConfusion hu⟩
  | wrote chunk started =>
    cases hp : s.live.stream.sink.playing with
    | true =>
      refine hstay _ (by rw [hp]; rfl) rfl ?_
      simp [OhosSink.written, hp]
    | false =>
      have hu := ha rfl hp
      have hlast : transition s.live.stream.sink (s.live.stream.sink.written chunk started) =
          some .started := by
        simp [transition, OhosSink.written, hp]
      refine ⟨fun hu' => ?_, fun _ _ => congrArg (or · s.last) hlast, fun hst => ?_⟩
      · exact absurd (hu'.symm.trans hu) (by decide)
      · simp [note, Live.withSink, OhosSink.written, hp] at hst
  | _ => exact hstay _ rfl rfl rfl

theorem wake_playing {s : OhosSink} (h : s.wake.playing = true) : s.playing = true := by
  revert h
  simp only [OhosSink.wake]
  split_ifs <;> simp

theorem step_flags {s' : Noted} {a : Action} (h : s.Flags) (ha : s.Reported a)
    (hs : s.step a = some s') : s'.Flags := by
  obtain ⟨live, hl, rfl⟩ := map_eq_some_iff.mp hs
  cases a with
  | begin hd =>
    simp only [Live.step] at hl
    split at hl
    · cases hl
      exact { h with }
    · cases hl
  | proceed =>
    simp only [Live.step] at hl
    split at hl
    · cases hl
    · next seg segs _ =>
        cases hl
        exact h.proceed seg segs
  | render r =>
    obtain ⟨sink, hr, rfl⟩ := map_eq_some_iff.mp hl
    refine h.rendered (OhosSink.renderStep_rendered hr) ?_ r
    intro hp hn
    cases r with
    | wake =>
      simp only [OhosSink.renderStep] at hr
      split at hr
      · cases hr
        exact absurd ((wake_playing hp).symm.trans hn) (by decide)
      · cases hr
    | drained =>
      simp only [OhosSink.renderStep] at hr
      split at hr
      · cases hr
        exact absurd (hp.symm.trans hn) (by decide)
      · cases hr
    | written started => exact ha hn

theorem step_untruthful {s' : Noted} {a : Action} (ha : ¬ s.Reported a) (hs : s.step a = some s') :
    ¬ s'.Truthful := by
  intro htrue
  obtain ⟨live, hl, rfl⟩ := map_eq_some_iff.mp hs
  cases a with
  | begin hd => exact ha trivial
  | proceed => exact ha trivial
  | render r =>
    cases r with
    | wake => exact ha trivial
    | drained => exact ha trivial
    | written started =>
      simp only [Reported, Classical.not_imp, Bool.not_eq_false] at ha
      obtain ⟨hp, hu⟩ := ha
      obtain ⟨sink, hr, rfl⟩ := map_eq_some_iff.mp hl
      simp only [OhosSink.renderStep] at hr
      split at hr
      · next chunk _ =>
          cases hr
          have hlast : transition s.live.stream.sink (s.live.stream.sink.written chunk started) =
              some .started := by
            simp [transition, OhosSink.written, hp]
          have hwrong := htrue.last hu
          simp only [note, Live.withSink, hlast, some_or] at hwrong
          cases hwrong
      · cases hr

/-- **When the client is told the truth**: exactly if the stream never starts while an underflow has
yet to be sent. -/
theorem notices_truthful_iff {s₀ : Live} {as : List Action} {s : Noted} (h₀ : s₀.Created)
    (h : run step { live := s₀ } as = some s) :
    (Always step Truthful { live := s₀ } as ↔ Along step Reported { live := s₀ } as) ∧
    (Along step Reported { live := s₀ } as →
       ∀ version segs s', s.live.todo = .takeEvents version :: segs → s.step .proceed = some s' →
           (notices s'.live.sent).getLast? = s.last) := by
  have hstep : ∀ (s : Noted) a s', s.Flags → s.Reported a → step s a = some s' → s'.Flags :=
    fun _ _ _ hj ha hs => step_flags hj ha hs
  refine ⟨always_iff_along (fun _ hj => Flags.truthful hj) hstep
    (fun _ _ _ _ ha hs => step_untruthful ha hs) h (flags_created h₀), ?_⟩
  intro hok version segs s' ht hs
  have hflags := run_invariant_along hstep hok h (flags_created h₀)
  obtain ⟨live, hl, rfl⟩ := map_eq_some_iff.mp hs
  obtain rfl : s.live.proceed (.takeEvents version) segs = live := by simpa [Live.step, ht] using hl
  exact hflags.truthful version

def restarted : List Action :=
  [.begin (.data [0, 1, 2, 3]), .proceed, .proceed, .render .wake, .render (.written true),
    .begin (.pump 13), .proceed, .proceed, .render .wake, .begin (.data [4, 5, 6, 7]), .proceed,
    .proceed, .render .wake, .render (.written false), .begin (.pump 13), .proceed]

theorem notices_reversed :
    Live.twoFrames.Created ∧
    ∃ s,
      run step { live := Live.twoFrames } restarted = some s ∧ s.live.stream.sink.playing = true ∧
      s.last = some .started ∧ notices s.live.sent = [.started, .started, .underflow] :=
  ⟨Live.twoFrames_created, _, rfl, by decide, by decide, by decide⟩

theorem notices_truthful_dry :
    Live.twoFrames.Created ∧ (run step { live := Live.twoFrames } (restarted.take 9)).isSome ∧
    (Always step Truthful { live := Live.twoFrames } (restarted.take 9) ↔
       Along step Reported { live := Live.twoFrames } (restarted.take 9)) :=
  ⟨Live.twoFrames_created, by decide, (notices_truthful_iff Live.twoFrames_created rfl).1⟩

end Noted

end OniroSoc.Audio

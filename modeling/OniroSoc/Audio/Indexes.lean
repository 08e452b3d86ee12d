import OniroSoc.Audio.Credit

/-!
# Audio — the playback indexes

The client takes the difference of the write index and the read index for the audio still to be
heard: the bytes in the ring and those the render thread has popped and not yet counted as read.
-/

namespace OniroSoc.Audio
open Support

def Message.indexes : Message → Option (Int64 × Int64)
  | .reply _ (_ :: _ :: _ :: _ :: _ :: .s64 write :: .s64 read :: _) => some (write, read)
  | _ => none

def Render.inHand : Render → Nat
  | .writing chunk => chunk.length
  | _ => 0

def OhosSink.held (s : OhosSink) : Nat := s.ring.fill + s.render.inHand

namespace Live

/-- The indexes a client would be told now differ by what the sink holds. -/
def Agrees (s : Live) : Prop :=
  ∀ tag sec usec version out, ∃ write read,
    (s.stream.latencyReply tag sec usec version out).indexes = some
    (write, read) ∧ write - read = Int64.ofNat s.stream.sink.held

def drift (s : Live) : UInt64 :=
  s.stream.writeIndex - s.stream.sink.readIndex - UInt64.ofNat s.stream.sink.held

theorem agrees_iff (s : Live) : s.Agrees ↔ s.drift = 0 := by
  have hsub : ∀ w r : UInt64, ∀ n : Nat,
      w.toInt64 - r.toInt64 = Int64.ofNat n ↔ w - r - UInt64.ofNat n = 0 := by
    intro w r n
    rw [← UInt64.toInt64_sub]
    constructor
    · intro h
      have : w - r = UInt64.ofNat n := congrArg Int64.toUInt64 h
      rw [this]
      exact UInt64.sub_self _
    · intro h
      have : w - r = UInt64.ofNat n := by grind
      rw [this]
      rfl
  constructor
  · intro h
    obtain ⟨w, r, hi, he⟩ := h 0 0 0 0 ⟨0, 0, false⟩
    cases hi
    exact (hsub _ _ _).mp he
  · intro h tag sec usec version out
    exact ⟨_, _, rfl, (hsub _ _ _).mpr h⟩

def lost (s : Live) : Action → Nat
  | .proceed =>
    match s.todo with
    | .receive data :: _ => data.length - (s.stream.sink.push data).1
    | .flush _ :: _ => s.stream.sink.buffered
    | _ => 0
  | _ => 0

/-- A step that loses nothing: a data packet that fits the free part of the ring, a FLUSH of an
empty ring, anything else. -/
def Keeps (s : Live) : Action → Prop
  | .proceed =>
    match s.todo with
    | .receive data :: _ => data.length ≤ s.stream.sink.ring.size - s.stream.sink.ring.fill
    | .flush _ :: _ => s.stream.sink.ring.fill = 0
    | _ => True
  | _ => True

variable {s : Live} {segs : List Segment}

theorem keeps_iff (hl : s.Ledger) (a : Action) : s.Keeps a ↔ s.lost a = 0 := by
  cases a with
  | proceed =>
    simp only [Keeps, lost]
    split
    · next data segs ht =>
        simp only [OhosSink.push, hl.quit]
        show _ ↔ data.length - min data.length _ = 0
        omega
    · exact Iff.rfl
    · simp
  | begin h => simp [Keeps, lost]
  | render r => simp [Keeps, lost]

theorem lost_lt (hl : s.Ledger) (a : Action) : s.lost a < 2 ^ 64 := by
  have hmax := s.stream.sane.maxlength_le
  have hsize := hl.size
  have hfill := s.stream.sink.ring.fill_le_size
  have habs : absoluteMaxBuffer = 16777216 := by decide
  cases a with
  | proceed =>
    simp only [lost]
    split
    · next data segs ht =>
        have hp : Pending (.receive data :: segs) := ht ▸ hl.pending
        cases hp
        omega
    · simp only [OhosSink.buffered]
      omega
    · omega
  | begin h => simp [lost]
  | render r => simp [lost]

theorem rendered_held {s s' : OhosSink} (h : s.Rendered s') :
    s'.readIndex + UInt64.ofNat s'.held = s.readIndex + UInt64.ofNat s.held := by
  cases h with
  | pop hw =>
    have hle : min s.chunkSize s.ring.fill ≤ s.ring.fill := min_le_right _ _
    simp only [OhosSink.held, Render.inHand, hw, Ring.pop_fill, Ring.pop_length]
    congr 2
    omega
  | wrote chunk started hw =>
    simp only [OhosSink.held, OhosSink.written, Render.inHand, hw, Nat.add_zero, UInt64.ofNat_add]
    grind
  | _ => simp_all [OhosSink.held, Render.inHand]

theorem receive_drift (hl : s.Ledger) {data : List UInt8} (ht : s.todo = .receive data :: segs) :
    (s.proceed (.receive data) segs).drift = s.drift + UInt64.ofNat (s.lost .proceed) := by
  have hring := s.stream.receive_ring hl.quit data
  have hpush : s.stream.sink.push data = ((s.stream.sink.ring.push data).1,
      { s.stream.sink with ring := (s.stream.sink.ring.push data).2 }) := by
    simp [OhosSink.push, hl.quit]
  have hle : s.stream.sink.ring.accepts data.length ≤ data.length := min_le_left _ _
  have hsplit : data.length = s.stream.sink.ring.accepts data.length +
      (data.length - s.stream.sink.ring.accepts data.length) := by omega
  have hlost : s.lost .proceed = data.length - s.stream.sink.ring.accepts data.length := by
    simp [lost, ht, hpush]
  have hlen : UInt64.ofNat data.length = UInt64.ofNat (s.stream.sink.ring.accepts data.length) +
      UInt64.ofNat (s.lost .proceed) := by
    rw [← UInt64.ofNat_add, hlost, ← hsplit]
  have hwrite : (s.proceed (.receive data) segs).stream.writeIndex =
      s.stream.writeIndex + UInt64.ofNat data.length := rfl
  have hread : (s.proceed (.receive data) segs).stream.sink.readIndex = s.stream.sink.readIndex :=
    by
    simp [proceed, Stream.exec, Stream.receive, hpush]
  have hheld : (s.proceed (.receive data) segs).stream.sink.held =
      s.stream.sink.held + s.stream.sink.ring.accepts data.length := by
    simp only [proceed, Stream.exec, Stream.receive, hpush, OhosSink.held, Ring.push_fill]
    omega
  simp only [drift, hwrite, hread, hheld, hlen, UInt64.ofNat_add]
  grind

theorem flush_drift {tag : UInt32} (ht : s.todo = .flush tag :: segs) :
    (s.proceed (.flush tag) segs).drift = s.drift + UInt64.ofNat (s.lost .proceed) := by
  have hheld : s.stream.sink.held = (s.proceed (.flush tag) segs).stream.sink.held +
      s.lost .proceed := by
    simp only [lost, ht, proceed, Stream.exec, Stream.flush, OhosSink.flush, OhosSink.held,
      OhosSink.buffered, Ring.clear_fill]
    omega
  simp only [drift, hheld, UInt64.ofNat_add]
  show s.stream.writeIndex - s.stream.sink.readIndex - _ = _
  grind

theorem other_drift {seg : Segment} (hr : ∀ data, seg ≠ .receive data)
    (hf : ∀ tag, seg ≠ .flush tag) : (s.proceed seg segs).drift = s.drift := by
  cases seg with
  | receive data => exact absurd rfl (hr data)
  | flush tag => exact absurd rfl (hf tag)
  | maybeRequest =>
    simp only [drift, proceed, Stream.exec, Stream.maybeRequest]
    split <;> rfl
  | _ => rfl

theorem step_drift {s s' : Live} {a : Action} (hl : s.Ledger) (hs : s.step a = some s') :
    s'.drift = s.drift + UInt64.ofNat (s.lost a) := by
  cases a with
  | begin h =>
    simp only [step] at hs
    split at hs
    · cases hs
      exact (UInt64.add_zero _).symm
    · cases hs
  | render r =>
    obtain ⟨sink, hr, rfl⟩ := Option.map_eq_some_iff.mp hs
    have hheld := rendered_held (OhosSink.renderStep_rendered hr)
    show s.stream.writeIndex - sink.readIndex - UInt64.ofNat sink.held =
      s.stream.writeIndex - s.stream.sink.readIndex - UInt64.ofNat s.stream.sink.held + 0
    grind
  | proceed =>
    simp only [step] at hs
    split at hs
    · cases hs
    · next seg segs ht =>
        cases hs
        cases seg with
        | receive data => exact receive_drift hl ht
        | flush tag => exact flush_drift ht
        | _ =>
          rw [other_drift (by simp) (by simp)]
          simp [lost, ht]

theorem drift_created (h : s.Created) : s.drift = 0 := by
  have hf := h.fresh
  simp [drift, OhosSink.held, Render.inHand, hf.writeIndex, hf.readIndex, hf.fill, hf.render]

/-- **The indexes agree as long as nothing is lost**: exactly if every data packet fits the free
part of the ring and every FLUSH finds it empty. -/
theorem indexes_agree_iff {s₀ s : Live} {as : List Action} (h₀ : s₀.Created)
    (h : run step s₀ as = some s) : Always step Agrees s₀ as ↔ Along step Keeps s₀ as := by
  have hgood : ∀ s a s', s.Ledger ∧ s.Agrees → step s a = some s' → (s'.Agrees ↔ s.Keeps a) := by
    rintro s a s' ⟨hl, hg⟩ hs
    have hlt := lost_lt hl a
    rw [agrees_iff, step_drift hl hs, (agrees_iff s).mp hg, UInt64.zero_add, keeps_iff hl]
    constructor
    · intro hz
      have := congrArg UInt64.toNat hz
      rwa [UInt64.toNat_ofNat', Nat.mod_eq_of_lt hlt] at this
    · intro hz
      rw [hz]
      rfl
  refine always_iff_along (J := fun s => s.Ledger ∧ s.Agrees) (fun _ hj => hj.2)
    (fun s a s' hj ha hs => ⟨step_ledger hj.1 (step_inv hs), (hgood s a s' hj hs).mpr ha⟩)
      (fun s a s' hj ha hs hp => ha ((hgood s a s'
    hj hs).mp hp)) h ⟨ledger_created h₀, (agrees_iff s₀).mpr (drift_created h₀)⟩

def flushed : List Action :=
  [.begin (.data [1, 2, 3, 4]), .proceed, .proceed, .begin (.flush 7), .proceed]

def overrun : List Action := [.begin (.data [1, 2, 3, 4, 5, 6, 7, 8, 9, 10, 11, 12]), .proceed]

theorem indexes_disagree :
    (∃ s, run step twoFrames flushed = some s ∧ s.stream.sink.held = 0 ∧ ¬ s.Agrees) ∧
    ∃ s, run step twoFrames overrun = some s ∧ s.stream.sink.held = 8 ∧ ¬ s.Agrees := by
  refine ⟨⟨_, rfl, by decide, ?_⟩, ⟨_, rfl, by decide, ?_⟩⟩
  · rw [agrees_iff]
    decide
  · rw [agrees_iff]
    decide

theorem indexes_agree_iff_flushed : twoFrames.Created ∧ (run step twoFrames flushed).isSome ∧
      (Always step Agrees twoFrames flushed ↔ Along step Keeps twoFrames flushed) :=
  ⟨twoFrames_created, by decide, indexes_agree_iff twoFrames_created rfl⟩

end Live

end OniroSoc.Audio

import OniroSoc.Audio.Credit

/-!
# Audio — whole frames

A chunk for the renderer is up to 20 ms of audio, whole frames, but no less than `minWriteChunk`
bytes, which need not be: a frame of 24-bit samples is three or six bytes.
-/

namespace OniroSoc.Audio
open Support List Option

structure Chunk where
  start : Nat
  bytes : List UInt8
  deriving DecidableEq, Repr

def Chunk.Whole (frame : Nat) (c : Chunk) : Prop :=
  frame ∣ c.start ∧ frame ∣ c.start + c.bytes.length

structure Framed where
  live : Live
  pos : Nat := 0
  chunks : List Chunk := []

namespace Framed

def frame (s : Framed) : Nat := s.live.stream.ss.frameSize

def note (s : Framed) (live : Live) : Action → Framed
  | .render .wake =>
    match live.stream.sink.render with
    | .writing bytes =>
      { live, pos := s.pos + bytes.length, chunks := s.chunks ++ [⟨s.pos, bytes⟩] }
    | _ => { s with live }
  | .proceed =>
    match s.live.todo with
    | .flush _ :: _ => { s with live, pos := 0 }
    | _ => { s with live }
  | _ => { s with live }

def step (s : Framed) (a : Action) : Option Framed :=
  (s.live.step a).map fun live => s.note live a

def WholeFrames (s : Framed) : Action → Prop
  | .begin (.data bs) => s.frame ∣ bs.length ∧ (bs.length : Int) ≤ s.live.credit
  | _ => True

end Framed

/-- No chunk is cut by the floor: it is whole frames, or 20 ms are more, or all the frames that fit
the target are no more. -/
def Stream.Fits (s : Stream) : Prop :=
  s.ss.frameSize ∣ minWriteChunk ∨ minWriteChunk ≤ (s.ss.usecToBytes writeChunkUsec).toNat ∨
    s.attr.tlength.toNat / s.ss.frameSize * s.ss.frameSize ≤ minWriteChunk

instance (s : Stream) : Decidable s.Fits := by unfold Stream.Fits; infer_instance

theorem SampleSpec.Valid.frameSize_dvd {ss : SampleSpec} (h : ss.Valid) :
    ss.frameSize ∣ (ss.usecToBytes writeChunkUsec).toNat := by
  have hrate : ss.rate.toNat ≤ 384000 := h.2.2.2.1
  have hframe := h.frameSize_le
  have husec : (writeChunkUsec * ss.rate.toUInt64 / 1000000).toNat =
      20000 * ss.rate.toNat / 1000000 := by
    rw [UInt64.toNat_div, UInt64.toNat_mul, UInt32.toNat_toUInt64]
    show 20000 * ss.rate.toNat % 2 ^ 64 / 1000000 = _
    rw [Nat.mod_eq_of_lt (by omega)]
  have hfs : ss.frameSize.toUInt64.toNat = ss.frameSize := Nat.mod_eq_of_lt (by omega)
  have hlt : 20000 * ss.rate.toNat / 1000000 * ss.frameSize < 2 ^ 64 := by
    calc 20000 * ss.rate.toNat / 1000000 * ss.frameSize
        ≤ 7680 * 128 := Nat.mul_le_mul (by omega) hframe
      _ < 2 ^ 64 := by decide
  rw [usecToBytes, UInt64.toNat_mul, husec, hfs, Nat.mod_eq_of_lt hlt]
  exact Nat.dvd_mul_left _ _

theorem OhosSink.wake_pop {s : OhosSink} (hq : s.quit = false) (hc : s.corked = false)
    (hf : 0 < s.ring.fill) :
    s.wake = { s with
      ring := (s.ring.pop s.chunkSize).2, render := .writing (s.ring.pop s.chunkSize).1 } := by
  have hne : ¬ (s.ring.pop s.chunkSize).1.length = 0 := by
    have := s.chunkSize_pos
    rw [Ring.pop_length]
    omega
  simp [wake, hq, hc, hf, -Ring.pop_length, hne]

theorem OhosSink.min_chunkSize (s : OhosSink) : min s.chunkSize s.ring.fill =
      min (max (s.spec.usecToBytes writeChunkUsec).toNat minWriteChunk) s.ring.fill := by
  have hfill := s.ring.fill_le_size
  unfold chunkSize
  omega

theorem Stream.Fits.pop {s : Stream} (h : s.Fits) (hv : s.ss.Valid) (hspec : s.sink.spec = s.ss)
    (hfill : s.ss.frameSize ∣ s.sink.ring.fill) (hle : s.sink.ring.fill ≤ s.attr.tlength.toNat) :
    s.ss.frameSize ∣ min s.sink.chunkSize s.sink.ring.fill := by
  have husec := hv.frameSize_dvd
  -- the largest chunk is whole frames, unless it is the floor
  have hmax : s.ss.frameSize ∣ minWriteChunk ∨ minWriteChunk ≤
    (s.ss.usecToBytes writeChunkUsec).toNat →
      s.ss.frameSize ∣ max (s.ss.usecToBytes writeChunkUsec).toNat minWriteChunk := by
    rintro (hd | hge)
    · rcases max_choice (s.ss.usecToBytes writeChunkUsec).toNat minWriteChunk with he | he
      · rwa [he]
      · rwa [he]
    · rwa [max_eq_left hge]
  have hmin : ∀ n, s.ss.frameSize ∣ n → s.ss.frameSize ∣ min n s.sink.ring.fill := by
    intro n hn
    rcases min_choice n s.sink.ring.fill with he | he
    · rwa [he]
    · rwa [he]
  rw [OhosSink.min_chunkSize, hspec]
  rcases h with h | h | h
  · exact hmin _ (hmax (.inl h))
  · exact hmin _ (hmax (.inr h))
  · -- the ring holds no more than the floor, and is popped empty
    obtain ⟨k, hk⟩ := hfill
    have hdiv : k ≤ s.attr.tlength.toNat / s.ss.frameSize := by
      rw [Nat.le_div_iff_mul_le hv.frameSize_pos, Nat.mul_comm, ← hk]
      exact hle
    have hall : s.sink.ring.fill ≤ minWriteChunk := by
      calc s.sink.ring.fill = k * s.ss.frameSize := by rw [hk, Nat.mul_comm]
        _ ≤ s.attr.tlength.toNat / s.ss.frameSize * s.ss.frameSize := Nat.mul_le_mul_right _ hdiv
        _ ≤ minWriteChunk := h
    rw [min_eq_right (hall.trans (le_max_right _ _))]
    exact ⟨k, hk⟩

namespace Stream

theorem exec_fill {s : Stream} {seg : Segment} (hr : ∀ data, seg ≠ .receive data)
    (hf : ∀ tag, seg ≠ .flush tag) : (s.exec seg).1.sink.ring.fill = s.sink.ring.fill := by
  cases seg with
  | receive data => exact absurd rfl (hr data)
  | flush tag => exact absurd rfl (hf tag)
  | maybeRequest =>
    simp only [exec, maybeRequest]
    split <;> rfl
  | _ => rfl

theorem exec_outstanding {s : Stream} {seg : Segment} (hr : ∀ data, seg ≠ .receive data) :
    s.outstanding ≤ (s.exec seg).1.outstanding := by
  cases seg with
  | receive data => exact absurd rfl (hr data)
  | maybeRequest =>
    have hpos := s.sane.minreq_pos
    simp only [exec, maybeRequest]
    split
    · exact le_refl _
    · dsimp only
      omega
  | _ => exact le_refl _

end Stream

theorem OhosSink.Rendered.spec {s s' : OhosSink} (h : s.Rendered s') : s'.spec = s.spec := by
  cases h <;> rfl

theorem Live.step_format {s s' : Live} (h : s.Step s') :
    s'.stream.ss = s.stream.ss ∧ s'.stream.sink.spec = s.stream.sink.spec := by
  cases h with
  | begin => exact ⟨rfl, rfl⟩
  | proceed seg segs => exact (s.stream.exec_frame seg).2.2
  | render sink hr => exact ⟨rfl, hr.spec⟩

namespace Framed

theorem note_render {s : Framed} {r : RenderStep} {sink : OhosSink}
    (h : s.live.stream.sink.renderStep r = some sink) :
    (s.note (s.live.withSink sink) (.render r) = { s with live := s.live.withSink sink } ∧
        sink.ring = s.live.stream.sink.ring) ∨
      (sink.ring = (s.live.stream.sink.ring.pop s.live.stream.sink.chunkSize).2 ∧
        s.note (s.live.withSink sink) (.render r) = {
          live := s.live.withSink sink
          pos := s.pos + (s.live.stream.sink.ring.pop s.live.stream.sink.chunkSize).1.length
          chunks := s.chunks ++ [⟨s.pos, (s.live.stream.sink.ring.pop s.live.stream.sink.chunkSize).1⟩] }) := by
  cases r with
  | wake =>
    simp only [OhosSink.renderStep] at h
    split at h
    · next hw =>
        cases h
        have hstay : ∀ sink : OhosSink, (∀ bytes, sink.render ≠ .writing bytes) →
            s.note (s.live.withSink sink) (.render .wake) = { s with live := s.live.withSink sink } := by
          intro sink hn
          simp only [note, Live.withSink]
        generalize hsink : s.live.stream.sink.wake = sink
        have hr : s.live.stream.sink.Rendered sink := hsink ▸ OhosSink.wake_rendered hw
        cases hr with
        | pop => exact .inr ⟨rfl, rfl⟩
        | idle | pause | ranDry =>
          exact .inl ⟨hstay _ fun bytes he => (by rw [hw] at he; cases he), rfl⟩
        | exit | startDrain | endDrain | wrote => exact .inl ⟨hstay _ (by rintro _ ⟨⟩), rfl⟩
    · cases h
  | drained | written =>
    simp only [OhosSink.renderStep] at h
    split at h
    · cases h
      exact .inl ⟨rfl, rfl⟩
    · cases h

end Framed

namespace Framed

structure Even (s : Framed) : Prop where
  valid : s.live.stream.ss.Valid
  spec : s.live.stream.sink.spec = s.live.stream.ss
  fits : s.live.stream.Fits
  honest : s.live.Honest
  credit : 0 ≤ s.live.stream.outstanding
  packet : ∀ data segs, s.live.todo = .receive data :: segs → s.frame ∣ data.length
  fill : s.frame ∣ s.live.stream.sink.ring.fill
  pos : s.frame ∣ s.pos
  chunks : ∀ c ∈ s.chunks, c.Whole s.frame

variable {s : Framed}

theorem Even.fill_le (h : s.Even) :
    s.live.stream.sink.ring.fill ≤ s.live.stream.attr.tlength.toNat := by
  have hw := h.honest.ledger.within
  have hc := h.credit
  omega

variable {s₀ : Live}

theorem created_format (h₀ : s₀.Created) :
    s₀.stream.ss.Valid ∧ s₀.stream.sink.spec = s₀.stream.ss := by
  obtain ⟨ss, valid, cm, asked, corked, channel, index, created, now, ho, -⟩ := h₀
  obtain ⟨sink, hsink, hstream⟩ := map_eq_some_iff.mp ho
  have hspec : sink.spec = ss := by
    simp only [OhosSink.open] at hsink
    split_ifs at hsink
    cases hsink
    rfl
  rw [← hstream]
  exact ⟨valid, hspec⟩

theorem even_created (h₀ : s₀.Created) (hfits : s₀.stream.Fits) : Even { live := s₀ } := by
  have hf := h₀.fresh
  have hon : s₀.Honest :=
    Live.run_honest h₀ (show Along Live.step Live.InCredit s₀ [] from trivial) rfl
  obtain ⟨hvalid, hspec⟩ := created_format h₀
  refine ⟨hvalid, hspec, hfits, hon, ?_, ?_, ?_, Nat.dvd_zero _, nofun⟩
  · rw [hf.outstanding]
    omega
  · intro data segs ht
    rw [hf.todo] at ht
    cases ht
  · show s₀.stream.ss.frameSize ∣ s₀.stream.sink.ring.fill
    rw [hf.fill]
    exact Nat.dvd_zero _

variable {s' : Framed} {a : Action}

theorem Even.next (h : s.Even) (hs : s.live.step a = some s'.live) (ha : s.live.InCredit a)
    (credit : 0 ≤ s'.live.stream.outstanding)
    (packet : ∀ data segs, s'.live.todo = .receive data :: segs → s.frame ∣ data.length)
    (fill : s.frame ∣ s'.live.stream.sink.ring.fill) (pos : s.frame ∣ s'.pos)
    (chunks : ∀ c ∈ s'.chunks, c.Whole s.frame) : s'.Even := by
  obtain ⟨hss, hspec⟩ := Live.step_format (Live.step_inv hs)
  have hattr := Live.step_attr (Live.step_inv hs)
  have hframe : s'.frame = s.frame := by rw [frame, hss, frame]
  refine ⟨hss ▸ h.valid, ?_, ?_, Live.step_honest h.honest ha hs, credit, ?_, ?_, ?_, ?_⟩
  · rw [hspec, hss]
    exact h.spec
  · have hfits := h.fits
    unfold Stream.Fits at hfits ⊢
    rwa [hss, hattr]
  · rw [hframe]
    exact packet
  · rw [hframe]
    exact fill
  · rw [hframe]
    exact pos
  · rw [hframe]
    exact chunks

theorem Even.begin (h : s.Even) {hd : Handler} (ha : s.WholeFrames (.begin hd)) {live : Live}
    (hs : s.live.step (.begin hd) = some live) : Even { s with live } := by
  have hcredit : s.live.InCredit (.begin hd) := by
    cases hd with
    | data bs => exact ha.2
    | _ => trivial
  have hlive : live = { s.live with todo := hd.program } := by
    simp only [Live.step] at hs
    split at hs
    · exact (Option.some.inj hs).symm
    · cases hs
  subst hlive
  refine h.next hs hcredit h.credit ?_ h.fill h.pos h.chunks
  intro data segs ht
  cases hd with
  | data bs =>
    obtain ⟨rfl, -⟩ : bs = data ∧ _ := by simpa [Handler.program, onData] using ht
    exact ha.1
  | _ => simp [Handler.program, onCork, onFlush, onDrain, onLatency, onPump] at ht

theorem Even.render (h : s.Even) {r : RenderStep} {sink : OhosSink}
    (hr : s.live.stream.sink.renderStep r = some sink) :
    Even (s.note (s.live.withSink sink) (.render r)) := by
  have hs : s.live.step (.render r) = some (s.live.withSink sink) := by
    simp only [Live.step, hr, map_some]
  rcases note_render hr with ⟨hn, hring⟩ | ⟨hring, hn⟩
  · rw [hn]
    refine h.next hs trivial h.credit h.packet ?_ h.pos h.chunks
    simp only [Live.withSink, hring]
    exact h.fill
  · -- whole frames are popped, so whole frames stay behind
    have hpop := h.fits.pop h.valid h.spec h.fill h.fill_le
    have hlen := s.live.stream.sink.ring.pop_length s.live.stream.sink.chunkSize
    have hend : s.frame ∣ s.pos + (s.live.stream.sink.ring.pop s.live.stream.sink.chunkSize).1.length := by
      rw [hlen]
      exact Nat.dvd_add h.pos hpop
    rw [hn]
    refine h.next hs trivial h.credit h.packet ?_ hend ?_
    · simp only [Live.withSink, hring, Ring.pop_fill]
      exact Nat.dvd_sub h.fill hpop
    · intro c hc
      rcases mem_append.mp hc with hc | hc
      · exact h.chunks c hc
      · rw [mem_singleton] at hc
        rw [hc]
        exact ⟨h.pos, hend⟩

theorem Even.proceed {s : Framed} (h : s.Even) {seg : Segment} {segs : List Segment}
    (ht : s.live.todo = seg :: segs) : Even (s.note (s.live.proceed seg segs) .proceed) := by
  have hs : s.live.step .proceed = some (s.live.proceed seg segs) := by simp only [Live.step, ht]
  have hp : Live.Pending (seg :: segs) := ht ▸ h.honest.ledger.pending
  have hpacket : ∀ data rest, segs = .receive data :: rest → s.frame ∣ data.length := by
    intro data rest hr
    cases hp <;> cases hr
  cases hseg : seg with
  | receive data =>
    subst hseg
    have hfits := h.honest.fits data segs ht
    have hn : s.note (s.live.proceed (.receive data) segs) .proceed =
        { s with live := s.live.proceed (.receive data) segs } := by simp only [note, ht]
    rw [hn]
    refine h.next hs trivial ?_ hpacket ?_ h.pos h.chunks
    · show 0 ≤ s.live.stream.outstanding - data.length
      omega
    · show s.frame ∣ (s.live.stream.receive data).1.sink.ring.fill
      rw [Stream.receive_ring h.honest.ledger.quit, Ring.push_fill, h.honest.ledger.accepts hfits]
      exact Nat.dvd_add h.fill (h.packet data segs ht)
  | flush tag =>
    subst hseg
    have hn : s.note (s.live.proceed (.flush tag) segs) .proceed =
        { s with live := s.live.proceed (.flush tag) segs, pos := 0 } := by simp only [note, ht]
    rw [hn]
    exact h.next hs trivial h.credit hpacket (Nat.dvd_zero _) (Nat.dvd_zero _) h.chunks
  | _ =>
    have hn : s.note (s.live.proceed seg segs) .proceed = { s with live := s.live.proceed seg segs } := by
      simp only [note, ht, hseg]
    rw [← hseg, hn]
    refine h.next hs trivial ?_ hpacket ?_ h.pos h.chunks
    · exact h.credit.trans (Stream.exec_outstanding (by simp [hseg]))
    · show s.frame ∣ (s.live.stream.exec seg).1.sink.ring.fill
      rw [Stream.exec_fill (by simp [hseg]) (by simp [hseg])]
      exact h.fill

theorem step_frame (hs : s.step a = some s') : s'.frame = s.frame := by
  obtain ⟨live, hl, rfl⟩ := map_eq_some_iff.mp hs
  obtain ⟨hss, -⟩ := Live.step_format (Live.step_inv hl)
  have hlive : (s.note live a).live = live := by
    unfold note
    split
    · split <;> rfl
    · split <;> rfl
    · rfl
  rw [frame, hlive, hss, frame]

theorem step_even (h : s.Even) (ha : s.WholeFrames a) (hs : s.step a = some s') : s'.Even := by
  obtain ⟨live, hl, rfl⟩ := map_eq_some_iff.mp hs
  cases a with
  | begin hd => exact h.begin ha hl
  | render r =>
    obtain ⟨sink, hr, rfl⟩ := map_eq_some_iff.mp hl
    exact h.render hr
  | proceed =>
    simp only [Live.step] at hl
    split at hl
    · cases hl
    · next seg segs ht =>
        cases hl
        exact h.proceed ht

def uncork : List Action := [.begin (.cork 0 false), .proceed, .proceed]

def fillUp (s : Stream) : List Action :=
  [.begin (.data (List.replicate (s.attr.tlength.toNat / s.ss.frameSize * s.ss.frameSize) 0)),
    .proceed, .render .wake]

structure Idle (s : Live) : Prop where
  todo : s.todo = []
  corked : s.stream.sink.corked = false
  render : s.stream.sink.render = .waiting
  fill : s.stream.sink.ring.fill = 0
  outstanding : s.stream.outstanding = s.stream.attr.tlength.toNat
  spec : s.stream.sink.spec = s.stream.ss
  ledger : s.Ledger

theorem uncork_idle (h₀ : s₀.Created) : ∃ live, run step { live := s₀ } uncork = some { live } ∧
      Along step WholeFrames { live := s₀ } uncork ∧ Idle live ∧ live.stream.ss = s₀.stream.ss ∧
      live.stream.attr = s₀.stream.attr := by
  have hf := h₀.fresh
  let live₁ : Live := { s₀ with todo := onCork 0 false }
  let live₂ : Live := live₁.proceed (.cork 0 false) [.maybeRequest]
  have h₁ : s₀.step (.begin (.cork 0 false)) = some live₁ := by
    simp [Live.step, hf.todo, Handler.Admitted, Handler.program, live₁]
  have hnone : live₂.stream.maybeRequest = (live₂.stream, []) := by
    refine if_pos ?_
    have hpos := s₀.stream.sane.minreq_pos
    show (s₀.stream.attr.tlength.toNat : Int) - s₀.stream.sink.ring.fill - s₀.stream.outstanding < _
    rw [hf.fill, hf.outstanding]
    show _ < (s₀.stream.attr.minreq.toNat : Int)
    omega
  have h₃ : live₂.step .proceed = some (live₂.proceed .maybeRequest []) := rfl
  have hstream : (live₂.proceed .maybeRequest []).stream = live₂.stream := by
    simp only [Live.proceed, Stream.exec, hnone]
  have hrun : run step { live := s₀ } uncork = some { live := live₂.proceed .maybeRequest [] } := by
    simp only [uncork, run, step, h₁, map_some, bind_some]
    rfl
  have hledger : (live₂.proceed .maybeRequest []).Ledger :=
    Live.run_ledger h₀ (show run Live.step s₀ uncork = some _ by
      simp only [uncork, run, h₁, bind_some]
      rfl)
  refine ⟨_, hrun, along_of_forall (by simp [uncork, WholeFrames]) _, ?_, ?_, ?_⟩
  · refine ⟨rfl, ?_, ?_, ?_, ?_, ?_, hledger⟩ <;> rw [hstream]
    · rfl
    · exact hf.render
    · exact hf.fill
    · exact hf.outstanding
    · exact (created_format h₀).2
  · rw [hstream]
    rfl
  · rw [hstream]
    rfl

theorem fillUp_cuts {live : Live} (h : Idle live) (hn : ¬ live.stream.Fits) :
    ∃ s, run step { live } (fillUp live.stream) = some s ∧
      Along step WholeFrames { live } (fillUp live.stream) ∧
      ∃ c ∈ s.chunks, ¬ c.Whole live.stream.ss.frameSize := by
  simp only [Stream.Fits, not_or, not_le] at hn
  obtain ⟨hdvd, husec, hmore⟩ := hn
  unfold fillUp
  generalize hlen : live.stream.attr.tlength.toNat / live.stream.ss.frameSize *
    live.stream.ss.frameSize = n at hmore
  have hle : n ≤ live.stream.attr.tlength.toNat := hlen ▸ Nat.div_mul_le_self _ _
  have htarget := live.stream.sane.tlength_le
  have hmax := live.stream.sane.maxlength_le
  let data : List UInt8 := List.replicate n 0
  have hdata : data.length = n := length_replicate
  have hcredit : (n : Int) ≤ live.stream.outstanding := by
    rw [h.outstanding]
    omega
  let live₁ : Live := { live with todo := onData data }
  let live₂ : Live := live₁.proceed (.receive data) [.maybeRequest]
  have h₁ : live.step (.begin (.data data)) = some live₁ := by
    have hadm : data.length ≤ absoluteMaxBuffer := by omega
    simp [Live.step, h.todo, Handler.Admitted, hadm, Handler.program, live₁]
  have hring : live₂.stream.sink.ring = (live.stream.sink.ring.push data).2 :=
    Stream.receive_ring h.ledger.quit data
  have hfill : live₂.stream.sink.ring.fill = n := by
    rw [hring, Ring.push_fill, hdata, h.fill, h.ledger.accepts hcredit, Nat.zero_add]
  have hsink : live₂.stream.sink = { live.stream.sink with ring := live₂.stream.sink.ring } := by
    show (live.stream.receive data).1.sink = _
    rw [hring]
    simp [Stream.receive, OhosSink.push, h.ledger.quit]
  have hchunk : live₂.stream.sink.chunkSize = minWriteChunk := by
    have hspec : live₂.stream.sink.spec = live.stream.ss := by
      rw [hsink]
      exact h.spec
    have hsize : live₂.stream.sink.ring.size = live.stream.attr.maxlength.toNat := by
      rw [hring, Ring.push_size, h.ledger.size]
    rw [OhosSink.chunkSize, hspec, hsize, max_eq_right husec.le]
    exact min_eq_left (by omega)
  have hpop : (live₂.stream.sink.ring.pop live₂.stream.sink.chunkSize).1.length = minWriteChunk :=
    by
    rw [Ring.pop_length, hchunk, hfill]
    exact min_eq_left hmore.le
  have hrender : live₂.stream.sink.render = .waiting := by
    rw [hsink]
    exact h.render
  have hwake := OhosSink.wake_pop (s := live₂.stream.sink) (by rw [hsink]; exact h.ledger.quit)
    (by rw [hsink]; exact h.corked) (by omega)
  have h₃ : live₂.step (.render .wake) = some (live₂.withSink live₂.stream.sink.wake) := by
    simp only [Live.step, OhosSink.renderStep, hrender, if_true, map_some]
  refine ⟨note { live := live₂ } (live₂.withSink live₂.stream.sink.wake) (.render .wake), ?_, ?_,
    ?_⟩
  · show run step { live } [.begin (.data data), .proceed, .render .wake] = _
    simp only [run, step, h₁, map_some, bind_some]
    show (run step { live := live₂ } [.render .wake]) = _
    simp only [run, step, h₃, map_some, bind_some]
  · have hwhole : live.stream.ss.frameSize ∣ data.length := by
      rw [hdata, ← hlen]
      exact Nat.dvd_mul_left _ _
    refine ⟨⟨hwhole, ?_⟩, fun _ _ => ⟨trivial, fun _ _ => ⟨trivial, fun _ _ => trivial⟩⟩⟩
    show (data.length : Int) ≤ live.credit
    rw [hdata, Live.credit, ← h.ledger.balance]
    exact hcredit
  · refine ⟨⟨0, (live₂.stream.sink.ring.pop live₂.stream.sink.chunkSize).1⟩, ?_, fun hw => hdvd ?_⟩
    · simp only [note, Live.withSink, hwake, nil_append, mem_singleton]
    · have hend := hw.2
      rwa [hpop, Nat.zero_add] at hend

theorem uncork_fillUp_cuts (h₀ : s₀.Created) (hn : ¬ s₀.stream.Fits) :
    ∃ s, run step { live := s₀ } (uncork ++ fillUp s₀.stream) = some s ∧
      Along step WholeFrames { live := s₀ } (uncork ++ fillUp s₀.stream) ∧
      ∃ c ∈ s.chunks, ¬ c.Whole s₀.stream.ss.frameSize := by
  obtain ⟨live, hrun, halong, hidle, hss, hattr⟩ := uncork_idle h₀
  have hfill : fillUp s₀.stream = fillUp live.stream := by rw [fillUp, fillUp, hss, hattr]
  have hn' : ¬ live.stream.Fits := by
    unfold Stream.Fits at hn ⊢
    rwa [hss, hattr]
  obtain ⟨s, hcut, hcutAlong, hbad⟩ := fillUp_cuts hidle hn'
  refine ⟨s, ?_, ?_, hss ▸ hbad⟩
  · rw [run_append, hrun, bind_some, hfill]
    exact hcut
  · rw [hfill]
    exact halong.append hrun hcutAlong

/-- **When the renderer gets whole frames only**: exactly if the floor of a chunk is whole frames,
or 20 ms are no less than it, or the whole frames of the target are no more than it. -/
theorem whole_frames_iff {s₀ : Live} (h₀ : s₀.Created) :
    (∀ as s, run step { live := s₀ } as = some s → Along step WholeFrames { live := s₀ } as →
        ∀ c ∈ s.chunks, c.Whole s₀.stream.ss.frameSize) ↔ s₀.stream.Fits := by
  constructor
  · intro hall
    by_contra hn
    obtain ⟨s, hrun, halong, c, hc, hbad⟩ := uncork_fillUp_cuts h₀ hn
    exact hbad (hall _ s hrun halong c hc)
  · intro hfits as s hrun halong
    have hframe : s.frame = s₀.stream.ss.frameSize :=
      run_invariant (I := fun s => s.frame = s₀.stream.ss.frameSize)
        (fun s a s' hs hstep => (step_frame hstep).trans hs) hrun rfl
    have heven : s.Even :=
      run_invariant_along (fun _ _ _ h ha hs => step_even h ha hs) halong hrun (even_created h₀ hfits)
    exact hframe ▸ heven.chunks

def lowRate : Live where
  stream := (openStream { format := sampleS24le, channels := 1, rate := 8000 } (by decide) {}
    { maxlength := 4800, tlength := 4800 } false 0 0 true 0).get (by decide)

theorem lowRate_created : lowRate.Created :=
  ⟨{ format := sampleS24le, channels := 1, rate := 8000 }, by decide, {},
    { maxlength := 4800, tlength := 4800 }, false, 0, 0, true, 0,
    eq_some_of_isSome (by decide), rfl, rfl, rfl⟩

theorem frame_cut :
    lowRate.Created ∧
    ∃ s, run step { live := lowRate } (uncork ++ fillUp lowRate.stream) = some s ∧
      Along step WholeFrames { live := lowRate } (uncork ++ fillUp lowRate.stream) ∧
      ∃ c ∈ s.chunks, ¬ c.Whole lowRate.stream.ss.frameSize :=
  ⟨lowRate_created, uncork_fillUp_cuts lowRate_created (by decide)⟩

theorem whole_frames_twoFrames :
    Live.twoFrames.Created ∧
    ∀ as s, run step { live := Live.twoFrames } as = some s →
        Along step WholeFrames { live := Live.twoFrames } as → ∀ c ∈ s.chunks, c.Whole 4 :=
  ⟨Live.twoFrames_created, (whole_frames_iff Live.twoFrames_created).mpr (by decide)⟩

end Framed

end OniroSoc.Audio

import OniroSoc.Audio.Sink

/-!
# Audio — playback streams and their flow control

The `Stream` of `waydroid_audio_main.cpp` and what the server does to one.
-/

namespace OniroSoc.Audio
open List

inductive Message where
  | reply (tag : UInt32) (values : List Value)
  | error (tag : UInt32) (e : Error)
  | request (channel amount : UInt32)
  | overflow (channel : UInt32)
  | started (channel : UInt32)
  | underflow (channel : UInt32) (at? : Option Int64)
  deriving DecidableEq

def Message.values : Message → List Value
  | .reply tag values => .u32 Command.reply.code :: .u32 tag :: values
  | .error tag e => [.u32 Command.error.code, .u32 tag, .u32 e.code]
  | .request channel amount =>
    [.u32 Command.request.code, .u32 invalidIndex, .u32 channel, .u32 amount]
  | .overflow channel => [.u32 Command.overflow.code, .u32 invalidIndex, .u32 channel]
  | .started channel => [.u32 Command.started.code, .u32 invalidIndex, .u32 channel]
  | .underflow channel at? =>
    [.u32 Command.underflow.code, .u32 invalidIndex, .u32 channel] ++ (at?.map Value.s64).toList

def requested (ms : List Message) : Nat :=
  (ms.map fun | .request _ amount => amount.toNat | _ => 0).sum

@[simp] theorem requested_nil : requested [] = 0 := rfl

@[simp] theorem requested_append (ms ns : List Message) :
    requested (ms ++ ns) = requested ms + requested ns := by
  simp [requested]

theorem requested_eq_zero {ms : List Message} (h : ∀ ch amount, Message.request ch amount ∉ ms) :
    requested ms = 0 := by
  refine sum_eq_zero fun n hn => ?_
  obtain ⟨m, hm, rfl⟩ := mem_map.mp hn
  cases m with
  | request ch amount => exact absurd hm (h ch amount)
  | _ => rfl

def defaultMaxlengthUsec : UInt64 := 2000000

def defaultTlengthUsec : UInt64 := 200000

def absoluteMaxBuffer : Nat := 16 * 1024 * 1024

def settle (asked default : UInt32) (frame limit : Nat) : UInt32 :=
  let value := if asked = invalidIndex ∨ asked = 0 then default else asked
  (min (max value.toNat frame) limit).toUInt32

def normaliseAttr (ss : SampleSpec) (attr : BufferAttr) : BufferAttr :=
  let frame := ss.frameSize
  let maxlength :=
    settle attr.maxlength (ss.usecToBytes defaultMaxlengthUsec).toUInt32 frame absoluteMaxBuffer
  let tlength :=
    settle attr.tlength (ss.usecToBytes defaultTlengthUsec).toUInt32 frame maxlength.toNat
  let minreq := settle attr.minreq (tlength / 4) frame tlength.toNat
  let prebuf := min (if attr.prebuf = invalidIndex then tlength else attr.prebuf) tlength
  { maxlength, tlength, prebuf, minreq }

structure BufferAttr.Sane (attr : BufferAttr) : Prop where
  minreq_pos : 0 < attr.minreq.toNat
  minreq_le : attr.minreq.toNat ≤ attr.tlength.toNat
  tlength_le : attr.tlength.toNat ≤ attr.maxlength.toNat
  maxlength_le : attr.maxlength.toNat ≤ absoluteMaxBuffer

variable {ss : SampleSpec}

theorem SampleSpec.Valid.frameSize_pos (h : ss.Valid) : 0 < ss.frameSize := by
  have hc : 0 < ss.channels.toNat := h.1
  have hw : 0 < ss.width := by
    unfold width
    split_ifs <;> omega
  exact Nat.mul_pos hw hc

theorem SampleSpec.Valid.frameSize_le (h : ss.Valid) : ss.frameSize ≤ 128 := by
  have hc : ss.channels.toNat ≤ 32 := h.2.1
  have hw : ss.width ≤ 4 := by
    unfold width
    split_ifs <;> omega
  exact Nat.mul_le_mul hw hc

theorem settle_bounds (asked default : UInt32) {frame limit : Nat} (hf : frame ≤ limit)
    (hl : limit < 2 ^ 32) :
    frame ≤ (settle asked default frame limit).toNat ∧
    (settle asked default frame limit).toNat ≤ limit := by
  have hlt : min (max (if asked = invalidIndex ∨ asked = 0 then default else asked).toNat frame)
      limit < 2 ^ 32 := lt_of_le_of_lt (min_le_right _ _) hl
  have : (settle asked default frame limit).toNat =
      min (max (if asked = invalidIndex ∨ asked = 0 then default else asked).toNat frame) limit :=
    Nat.mod_eq_of_lt hlt
  rw [this]
  exact ⟨le_min (le_max_right _ _) hf, min_le_right _ _⟩

theorem normaliseAttr_sane (h : ss.Valid) (attr : BufferAttr) : (normaliseAttr ss attr).Sane := by
  have hpos := h.frameSize_pos
  have hmax : ss.frameSize ≤ absoluteMaxBuffer := h.frameSize_le.trans (by decide)
  obtain ⟨hm₁, hm₂⟩ := settle_bounds attr.maxlength (ss.usecToBytes defaultMaxlengthUsec).toUInt32
    hmax (by decide)
  obtain ⟨ht₁, ht₂⟩ := settle_bounds attr.tlength (ss.usecToBytes defaultTlengthUsec).toUInt32
    hm₁ (UInt32.toNat_lt _)
  obtain ⟨hr₁, hr₂⟩ :=
    settle_bounds attr.minreq ((normaliseAttr ss attr).tlength / 4) ht₁ (UInt32.toNat_lt _)
  exact ⟨hpos.trans_le hr₁, hr₂, ht₂, hm₂⟩

theorem BufferAttr.Sane.maxlength_pos {attr : BufferAttr} (h : attr.Sane) :
    0 < attr.maxlength.toNat :=
  h.minreq_pos.trans_le (h.minreq_le.trans h.tlength_le)

structure Stream where
  (channel index : UInt32)
  ss : SampleSpec
  cm : ChannelMap
  attr : BufferAttr
  sane : attr.Sane
  corked : Bool
  sink : OhosSink
  writeIndex : UInt64 := 0
  outstanding : Int
  (underrunFor playingFor : UInt64 := 0)
  startedAtUsec : UInt64
  drainPending : Bool := false
  drainTag : UInt32 := 0

def openStream (ss : SampleSpec) (valid : ss.Valid) (cm : ChannelMap) (asked : BufferAttr)
    (corked : Bool) (channel index : UInt32) (created : Bool) (now : UInt64) : Option Stream :=
  let attr := normaliseAttr ss asked
  have sane := normaliseAttr_sane valid asked
  (OhosSink.open ss attr.maxlength.toNat sane.maxlength_pos created).map fun sink =>
    { channel, index, ss, cm, attr, sane, corked
      sink := sink.setCorked corked
      outstanding := attr.tlength.toNat
      startedAtUsec := now }

structure Outside where
  (now latency : UInt64)
  created : Bool

inductive Segment where
  | receive (data : List UInt8)
  | maybeRequest
  | cork (tag : UInt32) (cork : Bool)
  | flush (tag : UInt32)
  | drain (tag : UInt32)
  | latency (tag sec usec version : UInt32) (out : Outside)
  | takeEvents (version : UInt32)

namespace Stream

def receive (s : Stream) (data : List UInt8) : Stream × List Message :=
  let p := s.sink.push data
  ({ s with
      writeIndex := s.writeIndex + data.length.toUInt64
      outstanding := s.outstanding - data.length
      sink := p.2 },
    if p.1 < data.length then [.overflow s.channel] else [])

def owed (s : Stream) : Int := s.attr.tlength.toNat - s.sink.buffered - s.outstanding

def maybeRequest (s : Stream) : Stream × List Message :=
  if s.owed < s.attr.minreq.toNat then (s, [])
  else ({ s with outstanding := s.outstanding + s.owed },
    [.request s.channel (UInt32.ofInt s.owed)])

def cork (s : Stream) (tag : UInt32) (cork : Bool) : Stream × List Message :=
  ({ s with corked := cork, sink := s.sink.setCorked cork }, [.reply tag []])

def flush (s : Stream) (tag : UInt32) : Stream × List Message :=
  ({ s with sink := s.sink.flush }, [.reply tag []])

def drain (s : Stream) (tag : UInt32) : Stream × List Message :=
  ({ s with drainPending := true, drainTag := tag, sink := s.sink.requestDrain }, [])

def latencyReply (s : Stream) (tag sec usec version : UInt32) (out : Outside) : Message :=
  .reply tag ([.usec out.latency, .usec 0, .bool s.sink.isPlaying, .timeval sec usec,
    .timeval (out.now / 1000000).toUInt32 (out.now % 1000000).toUInt32,
    .s64 s.writeIndex.toInt64, .s64 s.sink.readIndex.toInt64] ++
    if version ≥ 13 then [.u64 s.underrunFor, .u64 s.playingFor] else [])

/-- The part of `PumpSinks` before its `MaybeRequest`.  The UNDERFLOW of version 23 reads the read
index in a section of its own; no connection speaks it. -/
def takeEvents (s : Stream) (version : UInt32) : Stream × List Message :=
  let ev := s.sink.takeEvents.1
  let acked := ev.drained && s.drainPending
  ({ s with
      sink := s.sink.takeEvents.2
      playingFor := if ev.credit > 0 then s.playingFor + s.ss.bytesToUsec ev.credit
        else s.playingFor
      underrunFor := if ev.underflow then s.underrunFor + 1 else s.underrunFor
      drainPending := if acked then false else s.drainPending },
    (if ev.started then [.started s.channel] else []) ++
    (if ev.underflow then
      [.underflow s.channel (if version ≥ 23 then some s.sink.readIndex.toInt64 else none)]
      else []) ++
    (if acked then [.reply s.drainTag []] else []))

theorem takeEvents_mem {s : Stream} {version : UInt32} {m : Message}
    (h : m ∈ (s.takeEvents version).2) :
    m = .started s.channel ∨ (∃ at?, m = .underflow s.channel at?) ∨
    (m = .reply s.drainTag [] ∧ s.sink.pending.drained = true ∧ s.drainPending = true) := by
  simp only [takeEvents, mem_append] at h
  rcases h with (h | h) | h
  · split at h
    · exact .inl (mem_singleton.mp h)
    · cases h
  · split at h
    · exact .inr (.inl ⟨_, mem_singleton.mp h⟩)
    · cases h
  · split at h
    · next hc =>
        rw [Bool.and_eq_true] at hc
        exact .inr (.inr ⟨mem_singleton.mp h, hc.1, hc.2⟩)
    · cases h

theorem takeEvents_requested (s : Stream) (version : UInt32) :
    requested (s.takeEvents version).2 = 0 :=
  requested_eq_zero fun ch amount h => by
    rcases takeEvents_mem h with h | ⟨_, h⟩ | ⟨h, -⟩ <;> cases h

def exec (s : Stream) : Segment → Stream × List Message
  | .receive data => s.receive data
  | .maybeRequest => s.maybeRequest
  | .cork tag cork => s.cork tag cork
  | .flush tag => s.flush tag
  | .drain tag => s.drain tag
  | .latency tag sec usec version out => (s, [s.latencyReply tag sec usec version out])
  | .takeEvents version => s.takeEvents version

def execAll (s : Stream) : List Segment → Stream × List Message
  | [] => (s, [])
  | seg :: segs =>
    let p := s.exec seg
    let q := p.1.execAll segs
    (q.1, p.2 ++ q.2)

end Stream

def onData (data : List UInt8) : List Segment := [.receive data, .maybeRequest]

def onCork (tag : UInt32) (cork : Bool) : List Segment := [.cork tag cork, .maybeRequest]

def onFlush (tag : UInt32) : List Segment := [.flush tag, .maybeRequest]

def onDrain (tag : UInt32) : List Segment := [.drain tag]

def onLatency (tag sec usec version : UInt32) (out : Outside) : List Segment :=
  [.latency tag sec usec version out]

def onPump (version : UInt32) : List Segment := [.takeEvents version, .maybeRequest]

end OniroSoc.Audio

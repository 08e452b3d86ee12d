import OniroSoc.Support.Runs
import OniroSoc.Audio.Stream

/-!
# Audio — runs of a live stream

The protocol loop runs one handler after the other, each a list of segments, and the render thread
its sections in between.  A `Live` state is the stream, what is left of the handler, and two logs:
the messages queued for the client and the segments done.
-/

namespace OniroSoc.Audio
open Support

inductive Handler where
  | data (bs : List UInt8)
  | cork (tag : UInt32) (cork : Bool)
  | flush (tag : UInt32)
  | drain (tag : UInt32)
  | latency (tag sec usec version : UInt32) (out : Outside)
  | pump (version : UInt32)

def Handler.program : Handler → List Segment
  | .data bs => onData bs
  | .cork tag b => onCork tag b
  | .flush tag => onFlush tag
  | .drain tag => onDrain tag
  | .latency tag sec usec version out => onLatency tag sec usec version out
  | .pump version => onPump version

def Handler.Admitted : Handler → Prop
  | .data bs => bs.length ≤ absoluteMaxBuffer
  | _ => True

instance (h : Handler) : Decidable h.Admitted := by
  cases h <;> simp only [Handler.Admitted] <;> infer_instance

structure Live where
  stream : Stream
  todo : List Segment := []
  sent : List Message := []
  done : List Segment := []

inductive Action where
  | begin (h : Handler)
  | proceed
  | render (r : RenderStep)

namespace Live

def withSink (s : Live) (sink : OhosSink) : Live := { s with stream := { s.stream with sink } }

def proceed (s : Live) (seg : Segment) (segs : List Segment) : Live where
  stream := (s.stream.exec seg).1
  todo := segs
  sent := s.sent ++ (s.stream.exec seg).2
  done := s.done ++ [seg]

def step (s : Live) : Action → Option Live
  | .begin h => if s.todo.isEmpty ∧ h.Admitted then some { s with todo := h.program } else none
  | .proceed =>
    match s.todo with
    | [] => none
    | seg :: segs => some (s.proceed seg segs)
  | .render r => (s.stream.sink.renderStep r).map s.withSink

def Created (s : Live) : Prop :=
  ∃ ss valid cm asked corked channel index created now,
    openStream ss valid cm asked corked channel index
    created now = some s.stream ∧ s.todo = [] ∧ s.sent = [] ∧ s.done = []

structure Fresh (s : Live) : Prop where
  todo : s.todo = []
  sent : s.sent = []
  done : s.done = []
  outstanding : s.stream.outstanding = s.stream.attr.tlength.toNat
  writeIndex : s.stream.writeIndex = 0
  drainPending : s.stream.drainPending = false
  size : s.stream.sink.ring.size = s.stream.attr.maxlength.toNat
  fill : s.stream.sink.ring.fill = 0
  quit : s.stream.sink.quit = false
  drainRequested : s.stream.sink.drainRequested = false
  pending : s.stream.sink.pending = {}
  readIndex : s.stream.sink.readIndex = 0
  render : s.stream.sink.render = .waiting

theorem Created.fresh {s : Live} (h : s.Created) : s.Fresh := by
  obtain ⟨ss, valid, cm, asked, corked, channel, index, created, now, ho, ht, hs, hd⟩ := h
  obtain ⟨sink, hsink, hstream⟩ := Option.map_eq_some_iff.mp ho
  simp only [OhosSink.open] at hsink
  split_ifs at hsink
  cases hsink
  constructor <;> simp [← hstream, OhosSink.setCorked, ht, hs, hd]

def twoFrames : Live where
  stream := (openStream {} (by decide) {} { maxlength := 8, tlength := 8, minreq := 4 } false 0 0
    true 0).get (by decide)

theorem twoFrames_created : twoFrames.Created :=
  ⟨{}, by decide, {}, { maxlength := 8, tlength := 8, minreq := 4 }, false, 0, 0, true, 0,
    Option.eq_some_of_isSome (by decide), rfl, rfl, rfl⟩

def received (s : Live) : Nat := (s.done.map fun | .receive data => data.length | _ => 0).sum

inductive Pending : List Segment → Prop where
  | nil : Pending []
  | receive (data : List UInt8) (h : data.length ≤ absoluteMaxBuffer) : Pending (onData data)
  | request : Pending [.maybeRequest]
  | cork (tag : UInt32) (cork : Bool) : Pending (onCork tag cork)
  | flush (tag : UInt32) : Pending (onFlush tag)
  | drain (tag : UInt32) : Pending (onDrain tag)
  | latency (tag sec usec version : UInt32) (out : Outside) : Pending
    (onLatency tag sec usec version out)
  | pump (version : UInt32) : Pending (onPump version)

theorem Pending.program {h : Handler} (ha : h.Admitted) : Pending h.program := by
  cases h with
  | data bs => exact .receive bs ha
  | cork tag cork => exact .cork tag cork
  | flush tag => exact .flush tag
  | drain tag => exact .drain tag
  | latency tag sec usec version out => exact .latency tag sec usec version out
  | pump version => exact .pump version

theorem Pending.tail {seg : Segment} {segs : List Segment} (h : Pending (seg :: segs)) :
    Pending segs := by
  cases h with
  | receive | cork | flush | pump => exact .request
  | request => exact .nil
  | drain => exact .nil
  | latency => exact .nil

inductive Step (s : Live) : Live → Prop where
  | begin (h : Handler) : s.todo = [] → h.Admitted → Step s { s with todo := h.program }
  | proceed (seg : Segment) (segs : List Segment) : s.todo = seg :: segs → Step s
    (s.proceed seg segs)
  | render (sink : OhosSink) : s.stream.sink.Rendered sink → Step s (s.withSink sink)

theorem step_inv {s s' : Live} {a : Action} (h : s.step a = some s') : s.Step s' := by
  cases a with
  | begin hd =>
    simp only [step] at h
    split at h
    · next hc => cases h; exact .begin hd (by simpa using hc.1) hc.2
    · cases h
  | proceed =>
    simp only [step] at h
    split at h
    · cases h
    · next seg segs ht => cases h; exact .proceed seg segs ht
  | render r =>
    obtain ⟨sink, hr, rfl⟩ := Option.map_eq_some_iff.mp h
    exact .render sink (OhosSink.renderStep_rendered hr)

end Live

end OniroSoc.Audio

import OniroSoc.Support.Circular
import OniroSoc.Audio.Wire

/-!
# Audio — the sink of a playback stream

`ohos_sink.cpp`: the ring between the protocol loop, which pushes, and the render thread, which pops
and hands to the renderer.  Every wait may end at any time, so `notify_` and `cv_` are left out.
-/

namespace OniroSoc.Audio
open Support (overwrite length_overwrite)

structure Ring where
  cells : List UInt8
  (head fill : Nat)
  head_lt : head < cells.length
  fill_le : fill ≤ cells.length
  deriving DecidableEq, Repr

namespace Ring

def size (r : Ring) : Nat := r.cells.length

theorem size_pos (r : Ring) : 0 < r.size := Nat.zero_lt_of_lt r.head_lt

def empty (n : Nat) (h : 0 < n) : Ring where
  cells := List.replicate n 0
  head := 0
  fill := 0
  head_lt := by simpa using h
  fill_le := Nat.zero_le _

def accepts (r : Ring) (n : Nat) : Nat := min n (r.size - r.fill)

def pushCells (r : Ring) (data : List UInt8) : List UInt8 :=
  let accepted := r.accepts data.length
  let tail := (r.head + r.fill) % r.size
  let first := min accepted (r.size - tail)
  let cells := overwrite r.cells tail (data.take first)
  if accepted > first then overwrite cells 0 ((data.drop first).take (accepted - first)) else cells

@[simp] theorem length_pushCells (r : Ring) (data : List UInt8) :
    (r.pushCells data).length = r.cells.length := by
  unfold pushCells
  dsimp only
  split <;> simp only [length_overwrite]

theorem fill_add_accepts_le (r : Ring) (n : Nat) : r.fill + r.accepts n ≤ r.size := by
  have : r.fill ≤ r.size := r.fill_le
  unfold accepts
  omega

def push (r : Ring) (data : List UInt8) : Nat × Ring :=
  (r.accepts data.length, {
    cells := r.pushCells data
    head := r.head
    fill := r.fill + r.accepts data.length
    head_lt := by rw [length_pushCells]; exact r.head_lt
    fill_le := by rw [length_pushCells]; exact r.fill_add_accepts_le _ })

def chunk (r : Ring) (got : Nat) : List UInt8 :=
  let first := min got (r.size - r.head)
  let front := (r.cells.drop r.head).take first
  if got > first then front ++ r.cells.take (got - first) else front

def pop (r : Ring) (want : Nat) : List UInt8 × Ring :=
  let got := min want r.fill
  (r.chunk got, {
    cells := r.cells
    head := (r.head + got) % r.size
    fill := r.fill - got
    head_lt := Nat.mod_lt _ r.size_pos
    fill_le := (Nat.sub_le _ _).trans r.fill_le })

def clear (r : Ring) : Ring where
  cells := r.cells
  head := 0
  fill := 0
  head_lt := r.size_pos
  fill_le := Nat.zero_le _

@[simp] theorem empty_size (n : Nat) (h : 0 < n) : (empty n h).size = n := by simp [empty, size]

@[simp] theorem empty_fill (n : Nat) (h : 0 < n) : (empty n h).fill = 0 := rfl

section
variable (r : Ring)

@[simp] theorem push_accepted (data : List UInt8) : (r.push data).1 = r.accepts data.length := rfl

@[simp] theorem push_fill (data : List UInt8) :
    (r.push data).2.fill = r.fill + r.accepts data.length := rfl

@[simp] theorem push_size (data : List UInt8) : (r.push data).2.size = r.size :=
  length_pushCells r data

@[simp] theorem pop_fill (want : Nat) : (r.pop want).2.fill = r.fill - min want r.fill :=
  rfl

theorem length_chunk {got : Nat} (h : got ≤ r.size) : (r.chunk got).length = got := by
  have := r.head_lt
  unfold size at h
  unfold chunk size
  dsimp only
  split <;> simp only [List.length_append, List.length_take, List.length_drop] <;> omega

@[simp] theorem pop_length (want : Nat) : (r.pop want).1.length = min want r.fill :=
  r.length_chunk ((min_le_right _ _).trans r.fill_le)

@[simp] theorem clear_fill : r.clear.fill = 0 := rfl

theorem fill_le_size : r.fill ≤ r.size := r.fill_le

end

end Ring

structure Events where
  credit : UInt64 := 0
  (underflow started drained : Bool := false)
  deriving DecidableEq, Repr

inductive Render where
  | waiting
  | draining
  | writing (chunk : List UInt8)
  | exited
  deriving DecidableEq, Repr

structure OhosSink where
  spec : SampleSpec
  ring : Ring
  corked : Bool := true
  (quit drainRequested : Bool := false)
  playing : Bool := false
  pending : Events := {}
  readIndex : UInt64 := 0
  rendererRunning : Bool := false
  render : Render := .waiting
  deriving DecidableEq, Repr

def supportedFormat (format : UInt8) : Bool :=
  format = sampleU8 || format = sampleS16le || format = sampleS24le || format = sampleS32le ||
    format = sampleFloat32le

def writeChunkUsec : UInt64 := 20000

def minWriteChunk : Nat := 1024

namespace OhosSink

def «open» (ss : SampleSpec) (ringBytes : Nat) (h : 0 < ringBytes)
    (created : Bool) : Option OhosSink :=
  if supportedFormat ss.format = false then none
  else if ss.channels < 1 ∨ ss.channels > 2 then none
  else if created = false then none
  else some { spec := ss, ring := Ring.empty ringBytes h }

def push (s : OhosSink) (data : List UInt8) : Nat × OhosSink :=
  if s.quit then (0, s)
  else
    let p := s.ring.push data
    (p.1, { s with ring := p.2 })

def buffered (s : OhosSink) : Nat := s.ring.fill

def flush (s : OhosSink) : OhosSink :=
  { s with ring := s.ring.clear, playing := false, drainRequested := false }

def setCorked (s : OhosSink) (corked : Bool) : OhosSink := { s with corked }

def requestDrain (s : OhosSink) : OhosSink := { s with drainRequested := true }

def takeEvents (s : OhosSink) : Events × OhosSink := (s.pending, { s with pending := {} })

def isPlaying (s : OhosSink) : Bool := s.playing && !s.corked

def chunkSize (s : OhosSink) : Nat :=
  min (max (s.spec.usecToBytes writeChunkUsec).toNat minWriteChunk) s.ring.size

end OhosSink

inductive RenderStep where
  | wake
  | drained
  | written (started : Bool)
  deriving DecidableEq, Repr

namespace OhosSink

def wake (s : OhosSink) : OhosSink :=
  if s.quit then { s with render := .exited }
  else if !s.corked && s.ring.fill > 0 then
    let p := s.ring.pop s.chunkSize
    if p.1.length = 0 then { s with ring := p.2 }
      else { s with ring := p.2, render := .writing p.1 }
  else if s.drainRequested && s.ring.fill = 0 then
    { s with drainRequested := false, render := .draining }
  else if s.corked && s.rendererRunning then
    { s with rendererRunning := false }
  else if !s.corked && s.ring.fill = 0 && s.playing then
    -- ran dry while uncorked: report it once
    { s with playing := false, pending := { s.pending with underflow := true } }
  else s

def written (s : OhosSink) (chunk : List UInt8) (started : Bool) : OhosSink :=
  { s with
    rendererRunning := s.rendererRunning || started
    readIndex := s.readIndex + chunk.length.toUInt64
    pending := { s.pending with
      credit := s.pending.credit + chunk.length.toUInt64
      started := s.pending.started || !s.playing }
    playing := true
    render := .waiting }

def renderStep (s : OhosSink) : RenderStep → Option OhosSink
  | .wake => if s.render = .waiting then some s.wake else none
  | .drained =>
    if s.render = .draining then
      some { s with pending := { s.pending with drained := true }, render := .waiting }
    else none
  | .written started =>
    match s.render with
    | .writing chunk => some (s.written chunk started)
    | _ => none

theorem chunkSize_pos (s : OhosSink) : 0 < s.chunkSize := by
  have h : 0 < minWriteChunk := by decide
  exact lt_min (h.trans_le (le_max_right _ _)) s.ring.size_pos

inductive Rendered (s : OhosSink) : OhosSink → Prop where
  | idle : s.render = .waiting → Rendered s s
  | exit : s.render = .waiting → s.quit = true → Rendered s { s with render := .exited }
  | pop : s.render = .waiting → s.corked = false → (s.ring.pop s.chunkSize).1.length ≠ 0 →
    Rendered s { s with
        ring := (s.ring.pop s.chunkSize).2, render := .writing (s.ring.pop s.chunkSize).1 }
  | startDrain : s.render = .waiting → s.drainRequested = true → s.ring.fill = 0 →
      Rendered s { s with drainRequested := false, render := .draining }
  | pause : s.render = .waiting → s.corked = true → Rendered s { s with rendererRunning := false }
  | ranDry : s.render = .waiting → s.corked = false → s.ring.fill = 0 → s.playing = true →
      Rendered s { s with playing := false, pending := { s.pending with underflow := true } }
  | endDrain : s.render = .draining →
      Rendered s { s with pending := { s.pending with drained := true }, render := .waiting }
  | wrote (chunk : List UInt8) (started : Bool) : s.render = .writing chunk →
      Rendered s (s.written chunk started)

theorem wake_rendered {s : OhosSink} (h : s.render = .waiting) : s.Rendered s.wake := by
  unfold wake
  dsimp only
  split_ifs with hq hp hz hd hc hu
  · exact .exit h hq
  · simp only [Bool.and_eq_true, Bool.not_eq_true', decide_eq_true_eq] at hp
    have := s.chunkSize_pos
    rw [Ring.pop_length] at hz
    omega
  · simp only [Bool.and_eq_true, Bool.not_eq_true', decide_eq_true_eq] at hp
    exact .pop h hp.1 hz
  · simp only [Bool.and_eq_true, decide_eq_true_eq] at hd
    exact .startDrain h hd.1 hd.2
  · simp only [Bool.and_eq_true] at hc
    exact .pause h hc.1
  · simp only [Bool.and_eq_true, Bool.not_eq_true', decide_eq_true_eq] at hu
    exact .ranDry h hu.1.1 hu.1.2 hu.2
  · exact .idle h

theorem Rendered.frame {s s' : OhosSink} (h : s.Rendered s') :
    s'.quit = s.quit ∧ s'.ring.size = s.ring.size ∧ s'.ring.fill ≤ s.ring.fill := by
  cases h with
  | pop => exact ⟨rfl, rfl, Nat.sub_le _ _⟩
  | _ => exact ⟨rfl, rfl, le_refl _⟩

theorem renderStep_rendered {s s' : OhosSink} {r : RenderStep} (h : s.renderStep r = some s') :
    s.Rendered s' := by
  cases r with
  | wake =>
    simp only [renderStep] at h
    split at h
    · next hw => cases h; exact wake_rendered hw
    · cases h
  | drained =>
    simp only [renderStep] at h
    split at h
    · next hd => cases h; exact .endDrain hd
    · cases h
  | written started =>
    simp only [renderStep] at h
    split at h
    · next chunk hw => cases h; exact .wrote chunk started hw
    · cases h

end OhosSink

end OniroSoc.Audio

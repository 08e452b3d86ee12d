import OniroSoc.Audio.Sink

/-!
# Audio — the ring of a sink is a bounded queue

`Push`, `PopLocked` and `Flush` of `ohos_sink.cpp`, three levels up.  `Passage` keeps the account of
the bytes: which were accepted and not flushed, and which have come out.
-/

namespace OniroSoc.Audio
open Support List Option

def copyIn? (cells : List UInt8) (i : Nat) (data : List UInt8) : Option (List UInt8) :=
  if i + data.length ≤ cells.length then some (overwrite cells i data) else none

def copyOut? (cells : List UInt8) (i n : Nat) : Option (List UInt8) :=
  if i + n ≤ cells.length then some ((cells.drop i).take n) else none

structure RawRing where
  cells : List UInt8
  (head fill : Nat)
  deriving DecidableEq, Repr

namespace RawRing

def fresh (n : Nat) : RawRing := ⟨List.replicate n 0, 0, 0⟩

def push? (r : RawRing) (data : List UInt8) : Option (Nat × RawRing) :=
  if r.cells = [] then some (0, r)
  else do
    let accepted := min data.length (r.cells.length - r.fill)
    let tail := (r.head + r.fill) % r.cells.length
    let first := min accepted (r.cells.length - tail)
    let cells ← copyIn? r.cells tail (data.take first)
    let cells ← if accepted > first then copyIn? cells 0 ((data.drop first).take (accepted - first))
      else some cells
    some (accepted, { r with cells, fill := r.fill + accepted })

def pop? (r : RawRing) (want : Nat) : Option (List UInt8 × RawRing) :=
  if r.cells = [] then none
  else do
    let got := min want r.fill
    let first := min got (r.cells.length - r.head)
    let front ← copyOut? r.cells r.head first
    let rest ← if got > first then copyOut? r.cells 0 (got - first) else some []
    some (front ++ rest, { r with head := (r.head + got) % r.cells.length, fill := r.fill - got })

def flush (r : RawRing) : RawRing := { r with head := 0, fill := 0 }

end RawRing

inductive RingOp where
  | push (data : List UInt8)
  | pop (want : Nat)
  | flush
  deriving DecidableEq, Repr

inductive RingResult where
  | accepted (n : Nat)
  | popped (bytes : List UInt8)
  | flushed
  deriving DecidableEq, Repr

namespace RawRing

def exec? (r : RawRing) : RingOp → Option (RingResult × RawRing)
  | .push data => (r.push? data).map fun p => (.accepted p.1, p.2)
  | .pop want => (r.pop? want).map fun p => (.popped p.1, p.2)
  | .flush => some (.flushed, r.flush)

def execAll? (r : RawRing) : List RingOp → Option (List RingResult × RawRing)
  | [] => some ([], r)
  | op :: ops => do
    let (out, r') ← r.exec? op
    let (outs, r'') ← r'.execAll? ops
    some (out :: outs, r'')

def contents (r : RawRing) : List UInt8 := window r.cells r.head r.fill

end RawRing

def queueExec {n : Nat} (q : BoundedQueue UInt8 n) : RingOp → RingResult × BoundedQueue UInt8 n
  | .push data => (.accepted (q.push data).1, (q.push data).2)
  | .pop want => (.popped (q.pop want).1, (q.pop want).2)
  | .flush => (.flushed, .empty)

def queueExecAll {n : Nat} (q : BoundedQueue UInt8 n) :
    List RingOp → List RingResult × BoundedQueue UInt8 n
  | [] => ([], q)
  | op :: ops =>
    let p := queueExec q op
    let rest := queueExecAll p.2 ops
    (p.1 :: rest.1, rest.2)

namespace Ring

def raw (r : Ring) : RawRing := ⟨r.cells, r.head, r.fill⟩

theorem cells_ne_nil (r : Ring) : r.cells ≠ [] := ne_nil_of_length_pos r.size_pos

theorem push?_raw (r : Ring) (data : List UInt8) :
    r.raw.push? data = some ((r.push data).1, (r.push data).2.raw) := by
  have htail : (r.head + r.fill) % r.cells.length < r.cells.length := Nat.mod_lt _ r.size_pos
  have hsize : r.accepts data.length ≤ r.cells.length :=
    (Nat.le_add_left _ _).trans (r.fill_add_accepts_le data.length)
  have hfirst : ∀ n, copyIn? r.cells ((r.head + r.fill) % r.cells.length)
    (data.take (min n (r.cells.length -
      (r.head + r.fill) % r.cells.length))) =
      some (overwrite r.cells ((r.head + r.fill) % r.cells.length)
      (data.take (min n (r.cells.length - (r.head + r.fill) % r.cells.length)))) := by
    intro n
    refine if_pos ?_
    rw [length_take]
    omega
  have hrest : ∀ (cells : List UInt8) n, cells.length = r.cells.length →
      copyIn? cells 0 ((data.drop n).take (r.accepts data.length - n)) =
        some (overwrite cells 0 ((data.drop n).take (r.accepts data.length - n))) := by
    intro cells n hlen
    refine if_pos ?_
    rw [length_take, hlen]
    omega
  simp only [RawRing.push?, raw, r.cells_ne_nil, if_false, hfirst, bind_eq_bind, bind_some]
  by_cases hlt : r.accepts data.length >
      min (r.accepts data.length) (r.cells.length - (r.head + r.fill) % r.cells.length)
  · have hcells : r.pushCells data = _ := if_pos hlt
    refine (if_pos hlt).trans ?_
    refine (congrArg (Option.bind · _) (hrest _ _ (length_overwrite _ _ _))).trans ?_
    show _ = some (_, RawRing.mk (r.pushCells data) _ _)
    rw [hcells]
    rfl
  · have hcells : r.pushCells data = _ := if_neg hlt
    refine (if_neg hlt).trans ?_
    show _ = some (_, RawRing.mk (r.pushCells data) _ _)
    rw [hcells]
    rfl

theorem pop?_raw (r : Ring) (want : Nat) :
    r.raw.pop? want = some ((r.pop want).1, (r.pop want).2.raw) := by
  have hgot : min want r.fill ≤ r.cells.length := (min_le_right _ _).trans r.fill_le
  have hhead := r.head_lt
  have hfront : copyOut? r.cells r.head (min (min want r.fill) (r.cells.length - r.head)) =
      some ((r.cells.drop r.head).take (min (min want r.fill) (r.cells.length - r.head))) :=
    if_pos (by omega)
  have hrest : copyOut? r.cells 0
    (min want r.fill - min (min want r.fill) (r.cells.length - r.head)) =
      some (r.cells.take (min want r.fill - min (min want r.fill) (r.cells.length - r.head))) :=
    if_pos (by omega)
  simp only [RawRing.pop?, raw, r.cells_ne_nil, if_false, hfront, hrest, bind_eq_bind, bind_some]
  by_cases hlt : min want r.fill > min (min want r.fill) (r.cells.length - r.head)
  · have hchunk : (r.pop want).1 = _ := if_pos hlt
    rw [if_pos hlt, hchunk]
    rfl
  · have hchunk : (r.pop want).1 = _ := if_neg hlt
    rw [if_neg hlt, hchunk, append_nil]
    rfl

def contents (r : Ring) : List UInt8 := r.raw.contents

@[simp] theorem length_contents (r : Ring) : r.contents.length = r.fill := length_window _ r.fill_le

@[simp] theorem empty_contents (n : Nat) (h : 0 < n) : (empty n h).contents = [] := rfl

theorem pushCells_eq (r : Ring) (data : List UInt8) :
    r.pushCells data =
      overwriteRound r.cells (r.head + r.fill) (data.take (r.accepts data.length)) := by
  have hsize : r.accepts data.length ≤ r.cells.length :=
    (Nat.le_add_left _ _).trans (r.fill_add_accepts_le data.length)
  have htail : (r.head + r.fill) % r.cells.length < r.cells.length := Nat.mod_lt _ r.size_pos
  have htake : (data.take (r.accepts data.length)).length ≤ r.cells.length := by
    rw [length_take]
    omega
  rw [← overwriteRound_congr r.cells (data.take (r.accepts data.length))
    (Nat.mod_mod (r.head + r.fill) _),
    ← overwrite_twice htail.le htake, take_take, drop_take, Nat.min_comm]
  unfold pushCells
  dsimp only
  split_ifs with hlt <;> simp only [size] at hlt ⊢
  · have hroom : min (r.accepts data.length) (r.cells.length - (r.head + r.fill) % r.cells.length) =
        r.cells.length - (r.head + r.fill) % r.cells.length := by omega
    rw [hroom]
  · have hnone : r.accepts data.length - (r.cells.length - (r.head + r.fill) % r.cells.length) = 0 := by
      omega
    rw [hnone, take_zero]
    rfl

theorem push_contents (r : Ring) (data : List UInt8) :
    (r.push data).2.contents = r.contents ++ data.take (r.accepts data.length) := by
  have hlen : (data.take (r.accepts data.length)).length = r.accepts data.length := by
    rw [length_take]
    exact min_eq_left (min_le_left _ _)
  show window (r.pushCells data) r.head (r.fill + r.accepts data.length) = _
  have hfits : r.fill + (data.take (r.accepts data.length)).length ≤ r.cells.length := by
    rw [hlen]
    exact r.fill_add_accepts_le _
  have happ := window_overwriteRound r.head hfits
  rw [hlen] at happ
  rw [pushCells_eq]
  exact happ

theorem chunk_eq (r : Ring) {got : Nat} (h : got ≤ r.cells.length) :
    r.chunk got = window r.cells r.head got := by
  rw [window_two_parts r.head_lt.le h]
  unfold chunk size
  dsimp only
  split
  · rfl
  · next hle =>
      rw [Nat.sub_eq_zero_of_le (Nat.le_of_not_lt hle), take_zero, append_nil]

theorem pop_chunk (r : Ring) (want : Nat) : (r.pop want).1 = r.contents.take want := by
  have hle : min want r.fill ≤ r.fill := min_le_right _ _
  show r.chunk (min want r.fill) = _
  rw [r.chunk_eq (hle.trans r.fill_le), ← take_window r.cells r.head hle]
  show r.contents.take (min want r.fill) = r.contents.take want
  rw [← r.length_contents, ← take_eq_take_min]

theorem pop_contents (r : Ring) (want : Nat) : (r.pop want).2.contents = r.contents.drop want := by
  have hle : min want r.fill ≤ r.fill := min_le_right _ _
  show window r.cells ((r.head + min want r.fill) % r.cells.length) (r.fill - min want r.fill) = _
  rw [window_advance hle r.fill_le]
  show r.contents.drop (min want r.fill) = r.contents.drop want
  rcases Nat.le_total want r.fill with h | h
  · rw [min_eq_left h]
  · rw [min_eq_right h, drop_eq_nil_of_le (by rw [length_contents]),
      drop_eq_nil_of_le (by rwa [length_contents])]

structure Refines (r : Ring) {n : Nat} (q : BoundedQueue UInt8 n) : Prop where
  size : r.size = n
  contents : r.contents = q.items

variable {r : Ring} {n : Nat}

theorem Refines.fill {q : BoundedQueue UInt8 n} (h : r.Refines q) : r.fill = q.items.length := by
  rw [← h.contents, length_contents]

theorem Refines.exec {q : BoundedQueue UInt8 n} (h : r.Refines q) (op : RingOp) :
    ∃ r' : Ring,
      r.raw.exec? op = some ((queueExec q op).1, r'.raw) ∧ r'.Refines (queueExec q op).2 := by
  cases op with
  | push data =>
    have hacc : r.accepts data.length = q.accepts data.length := by
      rw [accepts, BoundedQueue.accepts, h.size, h.fill]
    refine ⟨(r.push data).2, ?_, ⟨?_, ?_⟩⟩
    · rw [RawRing.exec?, push?_raw, map_some, push_accepted, hacc]
      rfl
    · exact (r.push_size data).trans h.size
    · rw [push_contents, hacc, h.contents]
      rfl
  | pop want =>
    refine ⟨(r.pop want).2, ?_, ⟨h.size, ?_⟩⟩
    · rw [RawRing.exec?, pop?_raw, map_some, pop_chunk, h.contents]
      rfl
    · rw [pop_contents, h.contents]
      rfl
  | flush => exact ⟨r.clear, rfl, h.size, rfl⟩

theorem Refines.execAll {q : BoundedQueue UInt8 n} (h : r.Refines q) (ops : List RingOp) :
    ∃ r' : Ring, r.raw.execAll? ops = some ((queueExecAll q ops).1, r'.raw) ∧
      r'.Refines (queueExecAll q ops).2 := by
  induction ops generalizing r q with
  | nil => exact ⟨r, rfl, h⟩
  | cons op ops ih =>
    obtain ⟨r₁, h₁, href⟩ := h.exec op
    obtain ⟨r₂, h₂, href₂⟩ := ih href
    refine ⟨r₂, ?_, href₂⟩
    simp only [RawRing.execAll?, h₁, h₂, bind_eq_bind, bind_some]
    rfl

end Ring

structure Passage where
  (kept out : List UInt8 := [])
  deriving DecidableEq, Repr

def Passage.after (p : Passage) : RingOp × RingResult → Passage
  | (.push data, .accepted n) => { p with kept := p.kept ++ data.take n }
  | (.pop _, .popped bytes) => { p with out := p.out ++ bytes }
  | (.flush, _) => { p with kept := p.kept.take p.out.length }
  | _ => p

def passage (ops : List RingOp) (results : List RingResult) : Passage :=
  (ops.zip results).foldl Passage.after {}

def Passage.Balanced (p : Passage) (items : List UInt8) : Prop := p.out ++ items = p.kept

theorem Passage.Balanced.exec {p : Passage} {n : Nat} {q : BoundedQueue UInt8 n}
    (h : p.Balanced q.items) (op : RingOp) :
    (p.after (op, (queueExec q op).1)).Balanced (queueExec q op).2.items := by
  unfold Balanced at h ⊢
  cases op with
  | push data =>
    show p.out ++ (q.items ++ _) = p.kept ++ _
    rw [← append_assoc, h]
    rfl
  | pop want =>
    show (p.out ++ q.items.take want) ++ q.items.drop want = p.kept
    rw [append_assoc, take_append_drop, h]
  | flush =>
    show p.out ++ [] = p.kept.take p.out.length
    rw [← h, take_left, append_nil]

theorem Passage.Balanced.execAll {p : Passage} {n : Nat} {q : BoundedQueue UInt8 n}
    (h : p.Balanced q.items) (ops : List RingOp) :
    ((ops.zip (queueExecAll q ops).1).foldl Passage.after p).Balanced
      (queueExecAll q ops).2.items := by
  induction ops generalizing p q with
  | nil => exact h
  | cons op ops ih => exact ih (h.exec op)

/-- **The ring of a sink is a bounded queue.** Every sequence of pushes, pops and flushes is
defined, gives what it gives on a queue of that capacity, and loses no byte that was accepted and
not flushed. -/
theorem ring_refines_queue {n : Nat} (hn : 0 < n) (ops : List RingOp) :
    ∃ results r, (RawRing.fresh n).execAll? ops = some (results, r) ∧
      results = (queueExecAll (.empty : BoundedQueue UInt8 n) ops).1 ∧
      r.contents = (queueExecAll (.empty : BoundedQueue UInt8 n) ops).2.items ∧
      r.cells.length = n ∧
      r.head < n ∧
      r.fill ≤ n ∧
      (passage ops results).out ++ r.contents = (passage ops results).kept := by
  have hstart : (Ring.empty n hn).Refines (.empty : BoundedQueue UInt8 n) :=
    ⟨Ring.empty_size n hn, Ring.empty_contents n hn⟩
  obtain ⟨r, hrun, href⟩ := hstart.execAll ops
  have hbal : Passage.Balanced {} (BoundedQueue.empty : BoundedQueue UInt8 n).items := rfl
  refine ⟨_, r.raw, hrun, rfl, href.contents, href.size, ?_, ?_, ?_⟩
  · exact href.size ▸ r.head_lt
  · exact href.size ▸ r.fill_le
  · have hkept := hbal.execAll ops
    rw [← href.contents] at hkept
    exact hkept

theorem ring_refines_wrap :
    0 < 4 ∧
    ∃ results r, (RawRing.fresh 4).execAll?
        [.push [1, 2, 3], .pop 2, .push [4, 5, 6, 7], .pop 3, .flush, .push [8]] =
        some (results, r) ∧
      results =
        [.accepted 3, .popped [1, 2], .accepted 3, .popped [3, 4, 5], .flushed, .accepted 1] ∧
      (passage [.push [1, 2, 3], .pop 2, .push [4, 5, 6, 7], .pop 3, .flush, .push [8]]
         results).kept =
        [1, 2, 3, 4, 5, 8] := by
  obtain ⟨results, r, hrun, rfl, -⟩ := ring_refines_queue (n := 4) (by decide)
    [.push [1, 2, 3], .pop 2, .push [4, 5, 6, 7], .pop 3, .flush, .push [8]]
  exact ⟨by decide, _, r, hrun, by decide, by decide⟩

end OniroSoc.Audio

import Mathlib.Tactic

/-!
# Support — circular buffers

The cells of a circular buffer are a list, and what it holds is read from a cell on, going round at
the end.
-/

namespace OniroSoc.Support
open List

variable {α : Type*}

/-- The `fill` cells from `head` on, going round at the end. -/
def window (cells : List α) (head fill : Nat) : List α := (cells.rotate head).take fill

variable {cells : List α} {fill : Nat}

theorem length_window (head : Nat) (h : fill ≤ cells.length) :
    (window cells head fill).length = fill := by
  rw [window, length_take, length_rotate, min_eq_left h]

variable {got : Nat}

theorem take_window (cells : List α) (head : Nat) (h : got ≤ fill) :
    (window cells head fill).take got = window cells head got := by
  rw [window, window, take_take, min_eq_left h]

variable {head : Nat}

/-- **Moving the start of a window drops from it.** -/
theorem window_advance (hg : got ≤ fill) (hf : fill ≤ cells.length) :
    window cells ((head + got) % cells.length) (fill - got) =
      (window cells head fill).drop got := by
  have hle : got ≤ (cells.rotate head).length := by
    rw [length_rotate]
    exact hg.trans hf
  have hlen : fill - got ≤ ((cells.rotate head).drop got).length := by
    rw [length_drop, length_rotate]
    exact Nat.sub_le_sub_right hf got
  rw [window, rotate_mod, ← rotate_rotate, rotate_eq_drop_append_take hle,
    take_append_of_le_length hlen, window, drop_take]

theorem window_two_parts (hh : head ≤ cells.length) (hg : got ≤ cells.length) :
    window cells head got =
      (cells.drop head).take (min got (cells.length - head)) ++
        cells.take (got - min got (cells.length - head)) := by
  rw [window, rotate_eq_drop_append_take hh, take_append, take_take, length_drop]
  have hfront : (cells.drop head).take (min got (cells.length - head)) = (cells.drop head).take got := by
    rw [← length_drop, take_eq_take_min (i := got)]
  have hrest : min (got - (cells.length - head)) head = got - min got (cells.length - head) := by
    omega
  rw [hfront, hrest]

def overwrite (cells : List α) : Nat → List α → List α
  | _, [] => cells
  | i, b :: data => overwrite (cells.set i b) (i + 1) data

def overwriteRound (cells : List α) : Nat → List α → List α
  | _, [] => cells
  | i, b :: data => overwriteRound (cells.set (i % cells.length) b) (i + 1) data

@[simp] theorem length_overwrite (cells data : List α) (i : Nat) :
    (overwrite cells i data).length = cells.length := by
  induction data generalizing cells i with
  | nil => rfl
  | cons b data ih => rw [overwrite, ih, length_set]

@[simp] theorem length_overwriteRound (cells data : List α) (i : Nat) :
    (overwriteRound cells i data).length = cells.length := by
  induction data generalizing cells i with
  | nil => rfl
  | cons b data ih => rw [overwriteRound, ih, length_set]

variable {data : List α} {i : Nat}

theorem take_overwrite (h : i + data.length ≤ cells.length) :
    (overwrite cells i data).take (i + data.length) = cells.take i ++ data := by
  induction data generalizing cells i with
  | nil => simp [overwrite]
  | cons b data ih =>
    rw [length_cons] at h
    have hi : i < cells.length := by omega
    have hfits : i + 1 + data.length ≤ (cells.set i b).length := by
      rw [length_set]
      omega
    have hrest := ih hfits
    rw [overwrite, length_cons, Nat.add_comm data.length, ← Nat.add_assoc, hrest, take_succ_eq_append_getElem
      (by rwa [length_set]), getElem_set_self, take_set_of_le (le_refl i), append_assoc, singleton_append]

theorem overwriteRound_append (cells xs ys : List α) (i : Nat) :
    overwriteRound cells i (xs ++ ys) =
      overwriteRound (overwriteRound cells i xs) (i + xs.length) ys := by
  induction xs generalizing cells i with
  | nil => rfl
  | cons b xs ih =>
    rw [cons_append, overwriteRound, ih, overwriteRound, length_cons, Nat.add_right_comm, ← Nat.add_assoc]

theorem overwriteRound_congr (cells data : List α) {j : Nat}
    (h : i % cells.length = j % cells.length) :
    overwriteRound cells i data = overwriteRound cells j data := by
  induction data generalizing cells i j with
  | nil => rfl
  | cons b data ih =>
    rw [overwriteRound, overwriteRound, h]
    refine ih _ ?_
    rw [length_set]
    exact Nat.ModEq.add_right 1 h

theorem overwrite_eq_round (h : i + data.length ≤ cells.length) :
    overwrite cells i data = overwriteRound cells i data := by
  induction data generalizing cells i with
  | nil => rfl
  | cons b data ih =>
    rw [length_cons] at h
    have hi : i % cells.length = i := Nat.mod_eq_of_lt (by omega)
    rw [overwrite, overwriteRound, hi]
    exact ih (by rw [length_set]; omega)

/-- **Two plain copies make one that goes round**: up to the last cell, and from the first one
on. -/
theorem overwrite_twice (hi : i ≤ cells.length) (hd : data.length ≤ cells.length) :
    overwrite (overwrite cells i (data.take (cells.length - i))) 0 (data.drop (cells.length - i)) =
      overwriteRound cells i data := by
  have hfirst : i + (data.take (cells.length - i)).length ≤ cells.length := by
    rw [length_take]
    omega
  have hrest : 0 + (data.drop (cells.length - i)).length ≤ (overwriteRound cells i
      (data.take (cells.length - i))).length := by
    rw [length_overwriteRound, length_drop]
    omega
  rw [overwrite_eq_round hfirst, overwrite_eq_round hrest]
  conv_rhs => rw [← take_append_drop (cells.length - i) data, overwriteRound_append]
  rcases Nat.lt_or_ge (cells.length - i) data.length with hlt | hge
  · refine overwriteRound_congr _ _ ?_
    rw [length_overwriteRound, length_take, min_eq_left hlt.le, Nat.add_sub_cancel' hi,
      Nat.mod_self, Nat.zero_mod]
  · rw [drop_eq_nil_of_le hge]
    rfl

theorem rotate_set {k : Nat} (head : Nat) (b : α) (hk : k < cells.length) :
    (cells.set ((head + k) % cells.length) b).rotate head = (cells.rotate head).set k b := by
  refine ext_getElem (by simp) fun j hj₁ hj₂ => ?_
  have hj : j < cells.length := by simpa using hj₂
  rw [getElem_rotate, getElem_set, getElem_set, getElem_rotate]
  simp only [length_set]
  -- the cells `k` and `j` places after the head are the same cell only if `k = j`
  have hiff : (head + k) % cells.length = (j + head) % cells.length ↔ k = j := by
    constructor
    · intro h
      have hmod : k ≡ j [MOD cells.length] :=
        Nat.ModEq.add_left_cancel' head (h.trans (by rw [Nat.add_comm]))
      exact Nat.ModEq.eq_of_lt_of_lt hmod hk hj
    · rintro rfl
      rw [Nat.add_comm]
  simp only [hiff]

theorem rotate_overwriteRound {k : Nat} (h : k + data.length ≤ cells.length) :
    (overwriteRound cells (head + k) data).rotate head = overwrite (cells.rotate head) k data := by
  induction data generalizing cells k with
  | nil => rfl
  | cons b data ih =>
    rw [length_cons] at h
    rw [overwriteRound, overwrite, Nat.add_assoc, ih (by rw [length_set]; omega), rotate_set head b (by omega)]

/-- **Writing behind a window appends to it.** -/
theorem window_overwriteRound (head : Nat) (h : fill + data.length ≤ cells.length) :
    window (overwriteRound cells (head + fill) data) head (fill + data.length) =
      window cells head fill ++ data := by
  rw [window, rotate_overwriteRound h, take_overwrite (by rwa [length_rotate]), window]

structure BoundedQueue (α : Type*) (cap : Nat) where
  items : List α
  bounded : items.length ≤ cap

namespace BoundedQueue

variable {cap : Nat}

def empty : BoundedQueue α cap := ⟨[], Nat.zero_le _⟩

def accepts (q : BoundedQueue α cap) (n : Nat) : Nat := min n (cap - q.items.length)

def push (q : BoundedQueue α cap) (data : List α) : Nat × BoundedQueue α cap :=
  (q.accepts data.length, {
    items := q.items ++ data.take (q.accepts data.length)
    bounded := by
      have h := q.bounded
      rw [List.length_append, List.length_take, accepts]
      omega })

def pop (q : BoundedQueue α cap) (want : Nat) : List α × BoundedQueue α cap :=
  (q.items.take want, {
    items := q.items.drop want
    bounded := (List.length_drop ▸ Nat.sub_le _ _).trans q.bounded })

end BoundedQueue

end OniroSoc.Support

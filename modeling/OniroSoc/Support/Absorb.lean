import Mathlib.Tactic

/-!
# Support — absorbing a stream block by block

An iterated hash cuts its input into blocks of `n` elements and folds a compression function over
them; what does not fill a block is left over.  `absorb` is that fold on the whole input.
-/

namespace OniroSoc.Support
open List

section
variable {σ β : Type*}

def absorb (f : σ → List β → σ) (n : Nat) [NeZero n] (s : σ) (xs : List β) : σ × List β :=
  if n ≤ xs.length then absorb f n (f s (xs.take n)) (xs.drop n) else (s, xs)
termination_by xs.length
decreasing_by
  have : 0 < n := NeZero.pos n
  simp only [List.length_drop]
  omega

variable {f : σ → List β → σ} {n : Nat} [NeZero n]

theorem absorb_short {s : σ} {xs : List β} (h : xs.length < n) : absorb f n s xs = (s, xs) := by
  rw [absorb, if_neg (by omega)]

theorem absorb_block {s : σ} {xs ys : List β} (h : xs.length = n) :
    absorb f n s (xs ++ ys) = absorb f n (f s xs) ys := by
  rw [absorb, if_pos (by simp [h]), take_left' h, drop_left' h]

/-- **The rest carries everything**: absorbing in two pieces is absorbing at once. -/
theorem absorb_append (s : σ) (xs ys : List β) :
    absorb f n s (xs ++ ys) = absorb f n (absorb f n s xs).1 ((absorb f n s xs).2 ++ ys) := by
  -- on the recursion of the first piece, a block at a time
  induction s, xs using absorb.induct f n with
  | case1 s xs h ih =>
    have hlen : (xs.take n).length = n := by simp [h]
    have hxs : absorb f n s xs = absorb f n (f s (xs.take n)) (xs.drop n) := by
      rw [absorb, if_pos h]
    rw [hxs, ← ih, ← absorb_block hlen, ← append_assoc, take_append_drop]
  | case2 s xs h => rw [absorb_short (Nat.lt_of_not_le h)]

theorem length_absorb (s : σ) (xs : List β) : (absorb f n s xs).2.length = xs.length % n := by
  induction s, xs using absorb.induct f n with
  | case1 s xs h ih =>
    rw [absorb, if_pos h, ih, length_drop, ← Nat.mod_eq_sub_mod h]
  | case2 s xs h =>
    rw [absorb_short (Nat.lt_of_not_le h), Nat.mod_eq_of_lt (Nat.lt_of_not_le h)]

end

end OniroSoc.Support

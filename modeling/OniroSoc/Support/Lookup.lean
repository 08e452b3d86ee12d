import Mathlib.Tactic
import Mathlib.Data.List.AList

/-!
# Support — lookups in a map

What is found in an `AList` after an entry was inserted or erased, by the key that is looked up.
-/

namespace OniroSoc.Support

variable {α β : Type*} [DecidableEq α] {m : AList fun _ : α => β} {k k' : α} {v x : β}

theorem mem_of_lookup (h : m.lookup k = some v) : k ∈ m :=
  AList.lookup_isSome.mp (Option.isSome_iff_exists.mpr ⟨v, h⟩)

/-- What is found after an insertion is what was inserted, or was there under another key. -/
theorem lookup_insert_eq_some_iff : (m.insert k v).lookup k' = some x ↔
    k' = k ∧ x = v ∨ k' ≠ k ∧ m.lookup k' = some x := by
  by_cases h : k' = k
  · subst h
    simp [AList.lookup_insert, eq_comm]
  · simp [AList.lookup_insert_ne h, h]

/-- What is found after an erasure was there under another key. -/
theorem lookup_erase_eq_some_iff : (m.erase k).lookup k' = some x ↔
    k' ≠ k ∧ m.lookup k' = some x := by
  by_cases h : k' = k
  · subst h
    simp
  · simp [AList.lookup_erase_ne h, h]

end OniroSoc.Support

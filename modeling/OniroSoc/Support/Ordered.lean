import Mathlib.Data.List.Sort
import Mathlib.Data.List.TakeWhile
import Mathlib.Data.List.AList

/-!
# Support — tables of elements

Sequences that are kept in the order of a key, as `std::multiset` keeps them, and the values of a
map.
-/

namespace OniroSoc.Support
open List

section Keys
variable {α β : Type*} [LinearOrder β] (key : α → β)

def insertBy (x : α) (l : List α) : List α := l.orderedInsert (fun a b => key a < key b) x

def equalRange (x : α) (l : List α) : List α × List α × List α :=
  let rest := l.dropWhile fun y => key y < key x
  (l.takeWhile fun y => key y < key x,
    rest.takeWhile fun y => key y ≤ key x, rest.dropWhile fun y => key y ≤ key x)

def eraseBy [DecidableEq α] (x : α) (l : List α) : List α :=
  let (below, range, above) := equalRange key x l
  below ++ (range.erase x ++ above)

def SortedBy (l : List α) : Prop := l.Pairwise fun a b => key a ≤ key b

variable {key} {key' : α → β} {x : α} {l : List α}

theorem insertBy_perm : (insertBy key x l).Perm (x :: l) := perm_orderedInsert _ x l

theorem equalRange_append (key : α → β) (x : α) (l : List α) :
    (equalRange key x l).1 ++ ((equalRange key x l).2.1 ++ (equalRange key x l).2.2) = l := by
  rw [equalRange, takeWhile_append_dropWhile, takeWhile_append_dropWhile]

theorem SortedBy.congr (h : SortedBy key l) (heq : ∀ y ∈ l, key' y = key y) : SortedBy key' l := by
  refine Pairwise.imp_of_mem (fun ha hb hle => ?_) h
  rw [heq _ ha, heq _ hb]
  exact hle

theorem SortedBy.insertBy (h : SortedBy key l) : SortedBy key (insertBy key x l) := by
  induction l with
  | nil => exact pairwise_singleton _ _
  | cons y l ih =>
    obtain ⟨hy, hl⟩ := pairwise_cons.mp h
    rw [Support.insertBy, orderedInsert_cons]
    split_ifs with hlt
    · refine pairwise_cons.mpr ⟨fun z hz => ?_, h⟩
      rcases mem_cons.mp hz with rfl | hz
      · exact hlt.le
      · exact hlt.le.trans (hy z hz)
    · refine pairwise_cons.mpr ⟨fun z hz => ?_, ih hl⟩
      rcases mem_cons.mp (insertBy_perm.mem_iff.mp hz) with rfl | hz
      · exact not_lt.mp hlt
      · exact hy z hz

theorem SortedBy.notMem_above (h : SortedBy key l) : x ∉ (equalRange key x l).2.2 := by
  intro hmem
  have hsorted : SortedBy key (equalRange key x l).2.2 := by
    rw [← equalRange_append key x l] at h
    exact (pairwise_append.mp (pairwise_append.mp h).2.1).2.1
  obtain ⟨y, above, habove⟩ := exists_cons_of_ne_nil (ne_nil_of_mem hmem)
  -- The first element above is greater than `x`, and so are the others.
  have hy : key x < key y := by
    have hhead := head_dropWhile_not (fun y => decide (key y ≤ key x))
      (l := l.dropWhile fun y => key y < key x) (ne_nil_of_mem hmem)
    simpa [show dropWhile _ _ = y :: above from habove] using hhead
  rw [habove] at hmem hsorted
  rcases mem_cons.mp hmem with rfl | hmem
  · exact lt_irrefl _ hy
  · exact absurd ((pairwise_cons.mp hsorted).1 x hmem) (not_le.mpr hy)

section Erase
variable [DecidableEq α]

/-- **An element is where its key says.** -/
theorem SortedBy.eraseBy_eq (h : SortedBy key l) : eraseBy key x l = l.erase x := by
  have hbelow : x ∉ (equalRange key x l).1 := by
    intro hmem
    have hlt := mem_takeWhile_imp hmem
    exact lt_irrefl _ (of_decide_eq_true hlt)
  show (equalRange key x l).1 ++ ((equalRange key x l).2.1.erase x ++ (equalRange key x l).2.2) =
    l.erase x
  conv_rhs => rw [← equalRange_append key x l]
  rw [erase_append_right _ hbelow]
  by_cases hrange : x ∈ (equalRange key x l).2.1
  · rw [erase_append_left _ hrange]
  · rw [erase_append_right _ hrange, erase_of_not_mem hrange, erase_of_not_mem h.notMem_above]

theorem SortedBy.eraseBy (h : SortedBy key l) : SortedBy key (eraseBy key x l) := by
  rw [h.eraseBy_eq]
  exact h.sublist (erase_sublist)

end Erase

end Keys

section Values
variable {κ ν : Type*} [DecidableEq κ] {m : AList fun _ : κ => ν} {k : κ} {v : ν}

def values (m : AList fun _ : κ => ν) : List ν := m.entries.map Sigma.snd

theorem values_insert (h : k ∉ m) : values (m.insert k v) = v :: values m := by
  rw [values, AList.entries_insert_of_notMem h]
  rfl

theorem values_erase (h : m.lookup k = some v) : (values m).Perm (v :: values (m.erase k)) := by
  have hmem : k ∈ m.entries.keys := AList.lookup_isSome.mp (h ▸ rfl)
  obtain ⟨w, l₁, l₂, -, hentries, herase⟩ := exists_of_kerase hmem
  have hw : w = v := by
    have hin : (⟨k, w⟩ : Sigma fun _ => ν) ∈ m.entries := by
      rw [hentries]
      exact mem_append_right _ (.head _)
    exact Option.some.inj ((AList.mem_lookup_iff.mpr hin).symm.trans h)
  rw [values, values, hentries, hw, show (m.erase k).entries = l₁ ++ l₂ from herase, map_append,
    map_append]
  exact perm_middle

theorem mem_values (h : m.lookup k = some v) : v ∈ values m :=
  mem_map.mpr ⟨⟨k, v⟩, AList.mem_lookup_iff.mp h, rfl⟩

end Values

end OniroSoc.Support

import Mathlib.Algebra.BigOperators.Group.Multiset.Basic

/-!
# Support — handles and who has to close them

A table of handles that are created, used and closed.  A handle is never used again once it was
closed, and a call on a handle that is not open is written to `bad`.
-/

namespace OniroSoc.Support
open List

variable {κ : Type*}

structure Handle (κ : Type*) where
  kind : κ
  id : Nat
deriving DecidableEq

structure Handles (κ : Type*) where
  opened : List (Handle κ) := []
  next : Nat := 0
  closed : List (Handle κ) := []
  bad : List (Option (Handle κ)) := []

namespace Handles

def create (h : Handles κ) (kind : κ) : Handles κ × Handle κ :=
  ({ h with opened := ⟨kind, h.next⟩ :: h.opened, next := h.next + 1 }, ⟨kind, h.next⟩)

structure Owns (h : Handles κ) (owners : Multiset (Handle κ)) : Prop where
  opened : (h.opened : Multiset (Handle κ)) = owners
  proper : h.bad = []
  nodup : (h.opened ++ h.closed).Nodup
  fresh : ∀ o ∈ h.opened ++ h.closed, o.id < h.next

variable {h : Handles κ} {owners owners' : Multiset (Handle κ)} {o : Handle κ}

theorem mem_singleton_add : o ∈ {o} + owners := Multiset.mem_add.mpr (.inl (Multiset.mem_singleton_self o))

namespace Owns
variable (hown : Owns h owners)
include hown

theorem congr (heq : owners = owners') : Owns h owners' := heq ▸ hown

theorem unique (hown' : Owns h owners') : owners = owners' :=
  hown.opened.symm.trans hown'.opened

theorem mem_opened (ho : o ∈ owners) : o ∈ h.opened := by
  rw [← hown.opened] at ho
  exact ho

theorem create (kind : κ) :
    Owns (h.create kind).1 ({(h.create kind).2} + owners) := by
  have hnew : (⟨kind, h.next⟩ : Handle κ) ∉ h.opened ++ h.closed := fun hmem =>
    lt_irrefl _ (hown.fresh _ hmem)
  refine ⟨?_, hown.proper, nodup_cons.mpr ⟨hnew, hown.nodup⟩, ?_⟩
  · rw [← hown.opened]
    rfl
  · intro o ho
    rcases mem_cons.mp ho with rfl | ho
    · exact Nat.lt_succ_self h.next
    · exact Nat.lt_succ_of_lt (hown.fresh o ho)

theorem create_ne {kind : κ} (ho : o ∈ owners) :
    (h.create kind).2 ≠ o := by
  rintro rfl
  exact lt_irrefl _ (hown.fresh _ (mem_append_left _ (hown.mem_opened ho)))

theorem closed_nodup : h.closed.Nodup :=
  (nodup_append'.mp hown.nodup).2.1

end Owns

theorem Owns.opened_nil (hown : Owns h 0) : h.opened = [] := (Multiset.coe_eq_zero _).mp hown.opened

variable [DecidableEq κ]

def use (h : Handles κ) (o : Option (Handle κ)) : Handles κ :=
  if ∃ x ∈ o, x ∈ h.opened then h else { h with bad := o :: h.bad }

def close (h : Handles κ) (o : Handle κ) : Handles κ :=
  if o ∈ h.opened then { h with opened := h.opened.erase o, closed := o :: h.closed }
  else { h with bad := some o :: h.bad }

def useAll (h : Handles κ) (os : List (Handle κ)) : Handles κ :=
  os.foldl (fun h o => h.use (some o)) h

def closeAll (h : Handles κ) (os : List (Handle κ)) : Handles κ := os.foldl close h

theorem Owns.use_eq (hown : Owns h owners) (ho : o ∈ owners) : h.use (some o) = h :=
  if_pos ⟨o, rfl, hown.mem_opened ho⟩

theorem Owns.use (hown : Owns h owners) (ho : o ∈ owners) : Owns (h.use (some o)) owners := by
  rw [hown.use_eq ho]
  exact hown

theorem Owns.useAll {os : List (Handle κ)} (hown : Owns h owners) (hos : ∀ o ∈ os, o ∈ owners) :
    Owns (h.useAll os) owners := by
  induction os generalizing h with
  | nil => exact hown
  | cons o os ih =>
    exact ih (hown.use (hos o (.head _))) fun o ho => hos o (.tail _ ho)

theorem Owns.close (hown : Owns h ({o} + owners)) : Owns (h.close o) owners := by
  have hmem : o ∈ h.opened := hown.mem_opened mem_singleton_add
  have hperm : (h.opened ++ h.closed).Perm (h.opened.erase o ++ o :: h.closed) :=
    ((perm_cons_erase hmem).append_right _).trans perm_middle.symm
  rw [Handles.close, if_pos hmem]
  refine ⟨?_, hown.proper, hperm.nodup_iff.mp hown.nodup, ?_⟩
  · show (h.opened.erase o : Multiset (Handle κ)) = owners
    rw [← Multiset.coe_erase, hown.opened, Multiset.singleton_add, Multiset.erase_cons_head]
  · intro o' ho'
    exact hown.fresh o' (hperm.mem_iff.mpr ho')

theorem Owns.closeAll {os : List (Handle κ)} (hown : Owns h ((os : Multiset (Handle κ)) + owners)) :
    Owns (h.closeAll os) owners := by
  induction os generalizing h with
  | nil => exact hown.congr (zero_add owners)
  | cons o os ih => exact ih (hown.congr (add_assoc {o} (os : Multiset (Handle κ)) owners)).close

end Handles

end OniroSoc.Support

import Mathlib.Tactic

/-!
# Support — grammars

A grammar says which words stand for which values.  Grammars are put together like readers, one
after the other, so they are a monad: `F >>= G` has the words of `F` followed by words of the
grammar that `G` gives for the value.
-/

namespace OniroSoc.Support
open List

/-- The words over `β` that stand for each value. -/
def Grammar (β α : Type) : Type := α → List β → Prop

namespace Grammar

variable {β α γ : Type}

protected def pure (a : α) : Grammar β α := fun x w => x = a ∧ w = []

protected def bind (F : Grammar β α) (G : α → Grammar β γ) : Grammar β γ := fun c w =>
  ∃ a u v, w = u ++ v ∧ F a u ∧ G a c v

instance : Monad (Grammar β) where
  pure := Grammar.pure
  bind := Grammar.bind

instance : LawfulMonad (Grammar β) := by
  refine LawfulMonad.mk' (Grammar β) (fun F => ?_) (fun a G => ?_) (fun F G H => ?_)
  · funext x w
    refine propext ⟨?_, fun h => ⟨x, w, [], (List.append_nil w).symm, h, rfl, rfl⟩⟩
    rintro ⟨_, u, _, rfl, hF, rfl, rfl⟩
    rwa [List.append_nil]
  · funext c w
    refine propext ⟨?_, fun h => ⟨a, [], w, rfl, ⟨rfl, rfl⟩, h⟩⟩
    rintro ⟨_, _, v, rfl, ⟨rfl, rfl⟩, hG⟩
    exact hG
  · funext c w
    refine propext ⟨?_, ?_⟩
    · rintro ⟨b, _, t, rfl, ⟨a, u, v, rfl, hF, hG⟩, hH⟩
      exact ⟨a, u, v ++ t, List.append_assoc u v t, hF, b, v, t, rfl, hG, hH⟩
    · rintro ⟨a, u, _, rfl, hF, b, v, t, rfl, hG, hH⟩
      exact ⟨b, u ++ v, t, (List.append_assoc u v t).symm, ⟨a, u, v, rfl, hF, hG⟩, hH⟩

def require (P : Prop) : Grammar β Unit := fun _ w => P ∧ w = []

def repeated (F : Grammar β α) : Nat → Grammar β (List α)
  | 0 => pure []
  | n + 1 => do
    let a ← F
    let as ← repeated F n
    pure (a :: as)

def PrefixFree (F : Grammar β α) : Prop :=
  ∀ ⦃a b u v r s⦄, F a u → F b v → u ++ r = v ++ s → a = b ∧ u = v

variable {F : Grammar β α}

theorem map_iff {f : α → γ} {c : γ} {w : List β} : (f <$> F) c w ↔ ∃ a, F a w ∧ c = f a := by
  rw [map_eq_pure_bind]
  constructor
  · rintro ⟨a, u, v, rfl, hF, rfl, rfl⟩
    exact ⟨a, (append_nil u).symm ▸ hF, rfl⟩
  · rintro ⟨a, hF, rfl⟩
    exact ⟨a, w, [], (append_nil w).symm, hF, rfl, rfl⟩

theorem PrefixFree.pure (a : α) : (Pure.pure a : Grammar β α).PrefixFree := by
  rintro _ _ _ _ r s ⟨rfl, rfl⟩ ⟨rfl, rfl⟩ -
  exact ⟨rfl, rfl⟩

theorem PrefixFree.bind {G : α → Grammar β γ} (hF : F.PrefixFree)
    (hG : ∀ a, (G a).PrefixFree) : (F >>= G).PrefixFree := by
  rintro c d _ _ r s ⟨a, u₁, u₂, rfl, ha, hc⟩ ⟨b, v₁, v₂, rfl, hb, hd⟩ heq
  rw [append_assoc, append_assoc] at heq
  obtain ⟨rfl, rfl⟩ := hF ha hb heq
  obtain ⟨rfl, rfl⟩ := hG a hc hd (append_cancel_left heq)
  exact ⟨rfl, rfl⟩

theorem PrefixFree.require (P : Prop) : (require P : Grammar β Unit).PrefixFree := by
  rintro _ _ _ _ r s ⟨-, rfl⟩ ⟨-, rfl⟩ -
  exact ⟨rfl, rfl⟩

theorem PrefixFree.repeated (hF : F.PrefixFree) (n : Nat) : (repeated F n).PrefixFree := by
  induction n with
  | zero => exact .pure []
  | succ n ih => exact hF.bind fun a => ih.bind fun as => .pure (a :: as)

end Grammar

end OniroSoc.Support

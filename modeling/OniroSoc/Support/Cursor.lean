import Mathlib.Tactic

/-!
# Support — readers over a buffer with a sticky failure

A `Cursor β` is a buffer with a read offset and a failure flag that is never cleared.  A `Get β α`
reads from it and answers `some a`, or `none` for "no".  `Reads g w a`: `g` reads exactly the word
`w`, wherever it stands, and answers `a`.
-/

namespace OniroSoc.Support

/-- A buffer, the offset of the next unread element, and the failure flag. -/
structure Cursor (β : Type) where
  data : List β
  off : Nat
  failed : Bool
  deriving DecidableEq, Repr

def Get (β α : Type) : Type := Cursor β → Option α × Cursor β

namespace Get

variable {β α γ : Type}

protected def pure (a : α) : Get β α := fun r => (some a, r)

protected def bind (g : Get β α) (f : α → Get β γ) : Get β γ := fun r =>
  match g r with
  | (some a, r₁) => f a r₁
  | (none, r₁) => (none, r₁)

instance : Monad (Get β) where
  pure := Get.pure
  bind := Get.bind

theorem bind_apply (g : Get β α) (f : α → Get β γ) (r : Cursor β) : (g >>= f) r = match g r with
      | (some a, r₁) => f a r₁
      | (none, r₁) => (none, r₁) := rfl

theorem pure_apply (a : α) (r : Cursor β) : (pure a : Get β α) r = (some a, r) := rfl

theorem bind_some {g : Get β α} {f : α → Get β γ} {r r₁ : Cursor β} {a : α}
    (h : g r = (some a, r₁)) : (g >>= f) r = f a r₁ := by
  rw [bind_apply, h]

theorem bind_none {g : Get β α} {f : α → Get β γ} {r r₁ : Cursor β}
    (h : g r = (none, r₁)) : (g >>= f) r = (none, r₁) := by
  rw [bind_apply, h]

instance : LawfulMonad (Get β) := by
  refine LawfulMonad.mk' (Get β) (fun g => ?_) (fun _ _ => rfl) (fun g f k => ?_)
  · funext r
    show (g >>= fun a => pure (id a)) r = g r
    rcases h : g r with ⟨_ | a, r₁⟩
    · exact bind_none h
    · rw [bind_some h, pure_apply, id]
  · funext r
    rcases h : g r with ⟨_ | a, r₁⟩
    · rw [bind_none h, bind_none (bind_none h)]
    · rw [bind_some h, bind_apply, bind_some h, bind_apply]

def fail : Get β α := fun r => (none, { r with failed := true })

def take : Get β β := fun r =>
  if h : r.failed = false ∧ r.off + 1 ≤
    r.data.length then (some r.data[r.off], { r with off := r.off + 1 })
  else fail r

end Get

def Cursor.at {β : Type} (u v : List β) : Cursor β := ⟨u ++ v, u.length, false⟩

/-- `g` reads exactly the word `w` and answers `a`. -/
def Reads {β α : Type} (g : Get β α) (w : List β) (a : α) : Prop :=
  ∀ u v : List β, g (Cursor.at u (w ++ v)) = (some a, Cursor.at (u ++ w) v)

namespace Reads

variable {β α γ : Type}

theorem pure (a : α) : Reads (pure a : Get β α) [] a := fun u v => by
  simp [Get.pure_apply, Cursor.at]

variable {g : Get β α} {w : List β} {a : α}

/-- **Exact readers compose.** -/
theorem bind {f : α → Get β γ} {v : List β} {c : γ}
    (h₁ : Reads g w a) (h₂ : Reads (f a) v c) : Reads (g >>= f) (w ++ v) c := fun u t => by
  rw [List.append_assoc, Get.bind_some (h₁ u (v ++ t)), h₂ (u ++ w) t, List.append_assoc]

/-- A reader that does not look further, after an exact one. -/
theorem map {f : α → γ} (h : Reads g w a) :
    Reads (g >>= fun a => (Pure.pure (f a) : Get β γ)) w (f a) := by
  have := h.bind (f := fun a => (Pure.pure (f a) : Get β γ)) (Reads.pure (f a))
  rwa [List.append_nil] at this

theorem take (b : β) : Reads (Get.take : Get β β) [b] b := fun u v => by
  have h : (Cursor.at u ([b] ++ v)).failed = false ∧
      (Cursor.at u ([b] ++ v)).off + 1 ≤ (Cursor.at u ([b] ++ v)).data.length :=
    ⟨rfl, by simp [Cursor.at]⟩
  rw [Get.take, dif_pos h]
  simp [Cursor.at]

/-- At the start of a buffer that holds the word and nothing else, the reader answers and stands at
the end. -/
theorem whole (h : Reads g w a) : g ⟨w, 0, false⟩ = (some a, ⟨w, w.length, false⟩) := by
  simpa [Cursor.at] using h [] []

end Reads

end OniroSoc.Support

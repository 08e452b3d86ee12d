import Mathlib.Tactic

/-!
# Support — runs of a partial step function

A system is a step function `step : σ → α → Option σ`; an action that is not enabled steps to
`none`.  What the environment chooses is part of the action, so a list of actions is one
interleaving.
-/

namespace OniroSoc.Support

variable {σ α : Type*}

/-- The state after the actions `as`, or `none` when one of them is not enabled. -/
def run (step : σ → α → Option σ) : σ → List α → Option σ
  | s, [] => some s
  | s, a :: as => (step s a).bind fun s₁ => run step s₁ as

/-- Every action of the run is `ok` in the state it is taken from. -/
def Along (step : σ → α → Option σ) (ok : σ → α → Prop) : σ → List α → Prop
  | _, [] => True
  | s, a :: as => ok s a ∧ ∀ s₁, step s a = some s₁ → Along step ok s₁ as

/-- `P` holds in every state the run goes through, the first and the last included. -/
def Always (step : σ → α → Option σ) (P : σ → Prop) : σ → List α → Prop
  | s, [] => P s
  | s, a :: as => P s ∧ ∀ s₁, step s a = some s₁ → Always step P s₁ as

variable {step : σ → α → Option σ}

@[simp] theorem run_nil (s : σ) : run step s [] = some s := rfl

@[simp] theorem run_cons (s : σ) (a : α) (as : List α) :
    run step s (a :: as) = (step s a).bind fun s₁ => run step s₁ as := rfl

variable {s s' : σ} {as : List α} {ok : σ → α → Prop}

theorem run_cons_inv {a : α} (h : run step s (a :: as) = some s') :
    ∃ s₁, step s a = some s₁ ∧ run step s₁ as = some s' :=
  Option.bind_eq_some_iff.mp h

theorem run_append (s : σ) (as bs : List α) :
    run step s (as ++ bs) = (run step s as).bind fun s₁ => run step s₁ bs := by
  induction as generalizing s with
  | nil => rfl
  | cons a as ih =>
    simp only [List.cons_append, run_cons]
    cases step s a with
    | none => rfl
    | some s₁ => exact ih s₁

theorem along_of_forall (h : ∀ a ∈ as, ∀ s, ok s a) (s : σ) : Along step ok s as := by
  induction as generalizing s with
  | nil => trivial
  | cons a as ih =>
    obtain ⟨ha, has⟩ := List.forall_mem_cons.mp h
    exact ⟨ha s, fun s₁ _ => ih has s₁⟩

variable {s : σ}

theorem along_cons {s₁ : σ} {a : α} (ha : ok s a)
    (h : step s a = some s₁) (has : Along step ok s₁ as) : Along step ok s (a :: as) := by
  refine ⟨ha, fun s₂ h₂ => ?_⟩
  obtain rfl : s₁ = s₂ := Option.mem_unique h h₂
  exact has

theorem Along.append {s₁ : σ} {as bs : List α} (has : Along step ok s as)
    (h : run step s as = some s₁) (hbs : Along step ok s₁ bs) : Along step ok s (as ++ bs) := by
  induction as generalizing s with
  | nil => cases h; exact hbs
  | cons a as ih =>
    obtain ⟨s₂, h₁, h₂⟩ := Option.bind_eq_some_iff.mp h
    exact along_cons has.1 h₁ (ih (has.2 s₂ h₁) h₂)

def check (step : σ → α → Option σ) (test : σ → α → Bool) : σ → List α → Bool
  | _, [] => true
  | s, a :: as => test s a && (step s a).all fun s₁ => check step test s₁ as

variable {P : σ → Prop}

theorem exists_of_any {o : Option σ} [DecidablePred P]
    (h : o.any (fun s => decide (P s)) = true) : ∃ s, o = some s ∧ P s := by
  obtain ⟨s, hs, hP⟩ := (Option.any_eq_true _ _).mp h
  exact ⟨s, hs, of_decide_eq_true hP⟩

theorem along_of_check {test : σ → α → Bool} (hok : ∀ s a, test s a = true → ok s a)
    (h : check step test s as = true) : Along step ok s as := by
  induction as generalizing s with
  | nil => trivial
  | cons a as ih =>
    obtain ⟨ha, has⟩ := Bool.and_eq_true_iff.mp h
    refine ⟨hok s a ha, fun s₁ h₁ => ih ?_⟩
    rw [h₁] at has
    exact has

/-- **The invariant rule for conditional steps.**  What every `ok` step keeps, every run keeps whose
steps are all `ok`. -/
theorem run_invariant_along {I : σ → Prop} (hI : ∀ s a s₁, I s → ok s a → step s a = some s₁ → I s₁)
    (hok : Along step ok s as) (h : run step s as = some s') (hs : I s) : I s' := by
  induction as generalizing s with
  | nil => cases h; exact hs
  | cons a as ih =>
    obtain ⟨s₁, h₁, h₂⟩ := run_cons_inv h
    exact ih (hok.2 s₁ h₁) h₂ (hI s a s₁ hs hok.1 h₁)

/-- **The invariant rule.**  What every step keeps, every run keeps. -/
theorem run_invariant {I : σ → Prop} (hI : ∀ s a s₁, I s → step s a = some s₁ → I s₁)
    (h : run step s as = some s') (hs : I s) : I s' :=
  run_invariant_along (fun s a s₁ hs _ => hI s a s₁ hs)
    (along_of_forall (fun _ _ _ => trivial) s) h hs

variable {J : σ → Prop}

/-- What an invariant gives at every `ok` step holds along every run whose steps are all `ok`. -/
theorem along_of_along {ok Q : σ → α → Prop}
    (hJ : ∀ s a s₁, J s → ok s a → step s a = some s₁ → J s₁) (hQ : ∀ s a, J s → ok s a → Q s a)
    (h : Along step ok s as) (hs : J s) : Along step Q s as := by
  induction as generalizing s with
  | nil => trivial
  | cons a as ih =>
    obtain ⟨ha, has⟩ := h
    exact ⟨hQ s a hs ha, fun s₁ h₁ => ih (has s₁ h₁) (hJ s a s₁ hs ha h₁)⟩

/-- A run is not stuck if an invariant and the condition on its steps enable each of them. -/
theorem run_of_along (hJ : ∀ s a, J s → ok s a → ∃ s₁, step s a = some s₁ ∧ J s₁)
    (hok : Along step ok s as) (hs : J s) : ∃ s', run step s as = some s' ∧ J s' := by
  induction as generalizing s with
  | nil => exact ⟨s, rfl, hs⟩
  | cons a as ih =>
    obtain ⟨s₁, h₁, hs₁⟩ := hJ s a hs hok.1
    obtain ⟨s', hrun, hs'⟩ := ih (hok.2 s₁ h₁) hs₁
    refine ⟨s', ?_, hs'⟩
    rw [run_cons, h₁]
    exact hrun

/-- What a step never brings about has held in every state if it holds in the last one. -/
theorem always_of_run (hP : ∀ s a s₁, step s a = some s₁ → P s₁ → P s)
    (h : run step s as = some s') (hs' : P s') : P s ∧ Always step P s as := by
  induction as generalizing s with
  | nil => cases h; exact ⟨hs', hs'⟩
  | cons a as ih =>
    obtain ⟨s₁, h₁, h₂⟩ := run_cons_inv h
    obtain ⟨hs₁, hall⟩ := ih h₂
    have hs := hP s a s₁ h₁ hs₁
    refine ⟨hs, hs, fun s₂ h₃ => ?_⟩
    obtain rfl : s₁ = s₂ := Option.mem_unique h₁ h₃
    exact hall

theorem Always.last (h : Always step P s as) (hrun : run step s as = some s') : P s' := by
  induction as generalizing s with
  | nil => cases hrun; exact h
  | cons a as ih =>
    obtain ⟨s₁, h₁, h₂⟩ := run_cons_inv hrun
    exact ih (h.2 s₁ h₁) h₂

/-- **The runs that stay good, among those that are `fit`.**  Let `J` imply that a state is good and
be kept by the steps that are `fit` and `ok`.  If every step that is `fit` and not `ok` leads from a
state of `J` to a state that is not good, then a run of `fit` steps from `J` stays good exactly when
its steps are all `ok`. -/
theorem always_iff_along_of_along {fit ok : σ → α → Prop} (hP : ∀ s, J s → P s)
    (hJ : ∀ s a s₁, J s → fit s a → ok s a → step s a = some s₁ → J s₁)
    (hbad : ∀ s a s₁, J s → fit s a → ¬ ok s a → step s a = some s₁ → ¬ P s₁)
    (h : run step s as = some s') (hfit : Along step fit s as) (hs : J s) :
    Always step P s as ↔ Along step ok s as := by
  induction as generalizing s with
  | nil => exact ⟨fun _ => trivial, fun _ => hP s hs⟩
  | cons a as ih =>
    obtain ⟨s₁, h₁, h₂⟩ := run_cons_inv h
    obtain ⟨hfit, hfits⟩ := hfit
    constructor
    · rintro ⟨-, hall⟩
      have hp₁ : P s₁ := by
        have := hall s₁ h₁
        cases as with
        | nil => exact this
        | cons b bs => exact this.1
      have ha : ok s a := by
        by_contra hn
        exact hbad s a s₁ hs hfit hn h₁ hp₁
      exact along_cons ha h₁ ((ih h₂ (hfits s₁ h₁) (hJ s a s₁ hs hfit ha h₁)).mp (hall s₁ h₁))
    · rintro ⟨ha, hall⟩
      refine ⟨hP s hs, fun s₂ h₃ => ?_⟩
      obtain rfl : s₁ = s₂ := Option.mem_unique h₁ h₃
      exact (ih h₂ (hfits s₁ h₁) (hJ s a s₁ hs hfit ha h₁)).mpr (hall s₁ h₁)

/-- **The runs that stay good.**  Let `J` imply that a state is good and be kept by the steps that
are `ok`.  If every other step from a state of `J` leads to a state that is not good, then a run
from `J` stays good exactly when its steps are all `ok`. -/
theorem always_iff_along (hP : ∀ s, J s → P s)
    (hJ : ∀ s a s₁, J s → ok s a → step s a = some s₁ → J s₁)
    (hbad : ∀ s a s₁, J s → ¬ ok s a → step s a = some s₁ → ¬ P s₁) (h : run step s as = some s')
    (hs : J s) : Always step P s as ↔ Along step ok s as :=
  always_iff_along_of_along hP (fun s a s₁ hs (_ : True) => hJ s a s₁ hs)
    (fun s a s₁ hs _ => hbad s a s₁ hs) h (along_of_forall (fun _ _ _ => trivial) s) hs

end OniroSoc.Support

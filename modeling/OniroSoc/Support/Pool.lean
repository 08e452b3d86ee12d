import OniroSoc.Support.Runs
import OniroSoc.Support.Threads

/-!
# Support — pools of threads

A `Machine` says what a call does when it begins and what each instruction does to the shared state.
Any thread may take the next step.  An instruction that has to wait is not enabled.
-/

namespace OniroSoc.Support
open List

variable {σ ι α ε : Type*}

/-- `α` are the calls, `ι` the instructions, and `ε` is what the environment decides about one. -/
structure Machine (σ ι α ε : Type*) where
  start : σ → α → Option (σ × List ι)
  exec : σ → ε → ι → Option (σ × List ι)

structure Pool (σ ι : Type*) where
  shared : σ
  threads : List (List ι) := []

inductive PoolAction (α ε : Type*) where
  | start (call : α)
  | run (i : Nat) (env : ε)

namespace Pool

/-- Everything that is left to do. -/
def work (p : Pool σ ι) : List ι := p.threads.flatten

def Idle (p : Pool σ ι) : Prop := ∀ program ∈ p.threads, program = []

theorem Idle.work_eq {p : Pool σ ι} (h : p.Idle) : p.work = [] := flatten_eq_nil_iff.mpr h

end Pool

namespace Machine

variable (m : Machine σ ι α ε)

def step (p : Pool σ ι) : PoolAction α ε → Option (Pool σ ι)
  | .start call =>
    (m.start p.shared call).map fun (shared, program) => ⟨shared, p.threads ++ [program]⟩
  | .run i env =>
    match p.threads[i]? with
    | some (instr :: rest) =>
      (m.exec p.shared env instr).map fun (shared, todo) =>
        ⟨shared, p.threads.set i (todo ++ rest)⟩
    | _ => none

/-- A condition on calls and one on instructions, with what is left to do besides. -/
def Allowed (begins : σ → List ι → α → Prop) (does : σ → List ι → ε → ι → Prop) (p : Pool σ ι) :
    PoolAction α ε → Prop
  | .start call => begins p.shared p.work call
  | .run i env => ∀ instr rest, p.threads[i]? = some (instr :: rest) →
      does p.shared (rest ++ (p.threads.eraseIdx i).flatten) env instr

inductive Stepped (p : Pool σ ι) : PoolAction α ε → Pool σ ι → Prop where
  | starts {call : α} {shared : σ} {program : List ι}
    (hstart : m.start p.shared call = some (shared, program))
      : Stepped p (.start call) ⟨shared, p.threads ++ [program]⟩
  | runs {i : Nat} {env : ε} {instr : ι} {rest todo : List ι} {shared : σ}
    (hi : p.threads[i]? = some (instr ::
      rest)) (hexec : m.exec p.shared env instr = some (shared,
      todo)) : Stepped p (.run i env) ⟨shared, p.threads.set i (todo ++ rest)⟩

variable {m} {p p' : Pool σ ι} {begins : σ → List ι → α → Prop} {does : σ → List ι → ε → ι → Prop}
  {a : PoolAction α ε} {i : Nat} {actions : List (PoolAction α ε)}

theorem stepped (h : m.step p a = some p') : m.Stepped p a p' := by
  cases a with
  | start call =>
    obtain ⟨⟨shared, program⟩, hstart, rfl⟩ := Option.map_eq_some_iff.mp h
    exact .starts hstart
  | run i env =>
    rw [step] at h
    split at h
    · rename_i instr rest hi
      obtain ⟨⟨shared, todo⟩, hexec, rfl⟩ := Option.map_eq_some_iff.mp h
      exact .runs hi hexec
    · cases h

variable {env : ε} {instr : ι} {rest : List ι}

theorem allowed_run (hi : p.threads[i]? = some (instr :: rest))
    (h : does p.shared (rest ++ (p.threads.eraseIdx i).flatten) env instr) :
    Allowed begins does p (.run i env) := by
  intro instr' rest' hi'
  cases Option.mem_unique hi hi'
  exact h

theorem step_run {todo : List ι} {shared : σ} (hi : p.threads[i]? = some (instr :: rest))
    (hexec : m.exec p.shared env instr = some (shared, todo)) :
    m.step p (.run i env) = some ⟨shared, p.threads.set i (todo ++ rest)⟩ := by
  rw [step, hi]
  dsimp only
  rw [hexec]
  rfl

theorem exec_guarded {waits : Bool} {done : σ × List ι} {shared : σ} {todo : List ι}
    (h : (if waits then none else some done) = some (shared, todo)) :
    waits = false ∧ shared = done.1 ∧ todo = done.2 := by
  split_ifs at h with hwaits
  cases h
  exact ⟨Bool.eq_false_iff.mpr hwaits, rfl, rfl⟩

section Locks
variable {critical : ι → Bool} {locked locked' : Bool}

theorem alone_of_countP (h : (instr :: rest).countP critical = locked.toNat)
    (hcrit : critical instr = true) : locked = true ∧ ∀ other ∈ rest, critical other = false := by
  rw [countP_cons_of_pos hcrit] at h
  cases locked with
  | false => exact absurd h (Nat.succ_ne_zero _)
  | true =>
    have hzero : rest.countP critical = 0 := Nat.succ.inj h
    exact ⟨rfl, fun other hmem => Bool.eq_false_iff.mpr (countP_eq_zero.mp hzero other hmem)⟩

theorem countP_next {todo : List ι} (h : (instr :: rest).countP critical = locked.toNat)
    (hnext : todo.countP critical + locked.toNat = [instr].countP critical + locked'.toNat) :
    (todo ++ rest).countP critical = locked'.toNat := by
  rw [countP_cons] at h
  rw [countP_singleton] at hnext
  rw [countP_append]
  omega

end Locks

/-- **The invariant of a step.**  `I` is about the shared state and the threads, in any order. -/
theorem step_invariant {I : σ → List (List ι) → Prop}
    (hperm : ∀ {s threads threads'}, I s threads → threads.Perm threads' → I s threads')
    (hstart : ∀ {s threads call s' program},
      I s threads → begins s threads.flatten call → m.start s call = some (s', program) →
      I s' (program :: threads))
    (hexec : ∀ {s rest others env instr s' todo},
      I s ((instr :: rest) :: others) → does s (rest ++ others.flatten) env instr →
      m.exec s env instr = some (s', todo) → I s' ((todo ++ rest) :: others))
    (hI : I p.shared p.threads) (ha : Allowed begins does p a) (hstep : m.step p a = some p') :
    I p'.shared p'.threads := by
  cases stepped hstep with
  | starts h => exact hperm (hstart hI ha h) (perm_append_singleton _ _).symm
  | runs hi h =>
    have hbefore := hperm hI (perm_cons_eraseIdx hi)
    exact hperm (hexec hbefore (ha _ _ hi) h) (set_perm_cons hi _).symm

/-- **The invariant rule for pools.**  `I` is about the shared state and everything that is left to
do, in any order.  What the allowed calls and instructions keep, every interleaving of them
keeps. -/
theorem run_invariant {I : σ → List ι → Prop}
    (hperm : ∀ {s work work'}, I s work → work.Perm work' → I s work')
    (hstart : ∀ {s work call s' program},
      I s work → begins s work call → m.start s call = some (s', program) →
      I s' (program ++ work))
    (hexec : ∀ {s rest env instr s' todo},
      I s (instr :: rest) → does s rest env instr → m.exec s env instr = some (s', todo) →
      I s' (todo ++ rest)) (hok : Along m.step (Allowed begins does) p actions)
    (hrun : run m.step p actions = some p') (hinit : I p.shared p.work) : I p'.shared p'.work := by
  refine run_invariant_along (I := fun p => I p.shared p.work) ?_ hok hrun hinit
  intro p a p₁ hI ha hs
  cases stepped hs with
  | starts h => exact hperm (hstart hI ha h) (flatten_concat_perm _ _).symm
  | runs hi h =>
    have hbefore := hperm hI (flatten_perm_cons hi)
    exact hperm (hexec hbefore (ha _ _ hi) h) (flatten_set_perm hi _).symm

variable (m) in
/-- The `i`-th thread takes a step in some continuation of the run. -/
def Proceeds (p : Pool σ ι) (i : Nat) : Prop :=
  ∃ actions env p', run m.step p (actions ++ [.run i env]) = some p'

theorem Proceeds.of_run {p₁ : Pool σ ι}
    (hrun : run m.step p actions = some p₁) (h : m.Proceeds p₁ i) : m.Proceeds p i := by
  obtain ⟨actions', env, p', hrun'⟩ := h
  refine ⟨actions ++ actions', env, p', ?_⟩
  rw [append_assoc, run_append, hrun]
  exact hrun'

theorem Proceeds.of_exec {todo : List ι} {shared : σ} (hi : p.threads[i]? = some (instr :: rest))
    (hexec : m.exec p.shared env instr = some (shared, todo)) : m.Proceeds p i := by
  refine ⟨[], env, ⟨shared, p.threads.set i (todo ++ rest)⟩, ?_⟩
  rw [nil_append, run_cons, step_run hi hexec]
  rfl

/-- A step of another thread leaves what a thread has to do. -/
theorem stays_or_runs {program : List ι} (h : m.step p a = some p')
    (hi : p.threads[i]? = some program) :
    (∃ env, a = .run i env) ∨ p'.threads[i]? = some program := by
  cases stepped h with
  | starts _ =>
    have hlt := (List.getElem?_eq_some_iff.mp hi).1
    exact .inr ((getElem?_append_left hlt).trans hi)
  | @runs k env _ _ _ _ _ _ =>
    by_cases heq : k = i
    · exact .inl ⟨env, by rw [heq]⟩
    · exact .inr ((getElem?_set_ne heq).trans hi)

/-- Whatever the pool does, a thread has taken a step or has the same left to do. -/
theorem stays_or_proceeds {program : List ι} (hrun : run m.step p actions = some p')
    (hi : p.threads[i]? = some program) : m.Proceeds p i ∨ p'.threads[i]? = some program := by
  induction actions generalizing p with
  | nil =>
    cases hrun
    exact .inr hi
  | cons a actions ih =>
    obtain ⟨p₁, hstep, hrest⟩ := run_cons_inv hrun
    have hone : run m.step p [a] = some p₁ := by
      rw [run_cons, hstep]
      rfl
    rcases stays_or_runs hstep hi with ⟨env, rfl⟩ | hstay
    · exact .inl ⟨[], env, p₁, hone⟩
    · exact (ih hrest hstay).imp_left (.of_run hone)

/-- What every step keeps, and rules out a step of the thread, rules it out forever. -/
theorem not_proceeds {I : Pool σ ι → Prop} (hI : ∀ p a p', I p → m.step p a = some p' → I p')
    (hno : ∀ p env, I p → m.step p (.run i env) = none) (h : I p) : ¬ m.Proceeds p i := by
  rintro ⟨actions, env, p', hrun⟩
  rw [run_append] at hrun
  obtain ⟨p₁, hbefore, hlast⟩ := Option.bind_eq_some_iff.mp hrun
  obtain ⟨p₂, hstep, -⟩ := run_cons_inv hlast
  cases (hno p₁ env (Support.run_invariant hI hbefore h)).symm.trans hstep

end Machine

end OniroSoc.Support

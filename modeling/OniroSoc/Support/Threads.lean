import Mathlib.Data.List.Perm.Basic
import Mathlib.Data.List.Flatten

/-!
# Support — threads as lists

A thread is the list of what it has still to do.  An invariant that only asks what is still to be
done is a statement about all the lists together, in any order; these lemmas say what that is after
a step.
-/

namespace OniroSoc.Support
open List

variable {ι : Type*} {threads : List (List ι)} {i : Nat} {instr : ι} {rest : List ι}

theorem perm_cons_eraseIdx {program : List ι} (hi : threads[i]? = some program) :
    threads.Perm (program :: threads.eraseIdx i) := by
  obtain ⟨hlt, rfl⟩ := List.getElem?_eq_some_iff.mp hi
  exact (getElem_cons_eraseIdx_perm hlt).symm

theorem set_perm_cons {program : List ι} (hi : threads[i]? = some program) (program' : List ι) :
    (threads.set i program').Perm (program' :: threads.eraseIdx i) := by
  obtain ⟨hlt, -⟩ := List.getElem?_eq_some_iff.mp hi
  exact set_perm_cons_eraseIdx hlt program'

theorem flatten_perm_cons (hi : threads[i]? = some (instr :: rest)) :
    threads.flatten.Perm (instr :: (rest ++ (threads.eraseIdx i).flatten)) :=
  (perm_cons_eraseIdx hi).flatten

theorem flatten_set_perm (hi : threads[i]? = some (instr :: rest)) (todo : List ι) :
    (threads.set i (todo ++ rest)).flatten.Perm
      (todo ++ (rest ++ (threads.eraseIdx i).flatten)) := by
  rw [← append_assoc]
  exact (set_perm_cons hi (todo ++ rest)).flatten

theorem flatten_concat_perm (threads : List (List ι)) (program : List ι) :
    (threads ++ [program]).flatten.Perm (program ++ threads.flatten) := by
  rw [flatten_append, flatten_singleton]
  exact perm_append_comm

end OniroSoc.Support

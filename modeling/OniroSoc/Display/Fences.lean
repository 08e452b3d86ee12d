import Mathlib.Data.List.AList
import OniroSoc.Support.Runs

/-!
# Release fences of the phone's display

A present releases the buffers of the frame before, with a fence for each layer.  `Commit` takes the
fences of the latest present, and presents after that; `GetDisplayReleaseFence` hands out the fences
it took.
-/

namespace OniroSoc.Display.Fences
open Support List Option

/-- Which layers have a release fence in the set of a present.  Presents are numbered from 1; before
the first there are no fences. -/
structure Hal where
  has : Nat → Nat → Bool
  unpresented : ∀ layer, has 0 layer = false

structure Query where
  awaited : Option Nat
  layers : AList fun _ : UInt32 => Nat
  presents : Nat
  answer : List (UInt32 × Nat)

structure HybrisDisplay where
  layers : AList fun _ : UInt32 => Nat := ∅
  nextLayerId : UInt32 := 1
  made : Nat := 0
  pendingFences : Option (Nat × Nat) := none
  presents : Nat := 0
  obtained : Nat := 0
  destroyed : List Nat := []
  awaited : Option Nat := none
  queries : List Query := []
  gone : Bool := false

def fencesOf (hal : Hal) (layers : AList fun _ : UInt32 => Nat) (present : Nat) : List
    (UInt32 × Nat) :=
  layers.entries.filterMap fun e => if hal.has present e.2 then some (e.1, present) else none

namespace HybrisDisplay

def createLayer (d : HybrisDisplay) : HybrisDisplay :=
  { d with nextLayerId := d.nextLayerId + 1, made := d.made + 1, layers := d.layers.insert d.nextLayerId d.made }

def pendingSet (d : HybrisDisplay) : List Nat := (d.pendingFences.map Prod.fst).toList

def destroyFences (d : HybrisDisplay) : HybrisDisplay :=
  { d with pendingFences := none, destroyed := d.pendingSet ++ d.destroyed }

def getReleaseFences (d : HybrisDisplay) (succeeds : Bool) : HybrisDisplay :=
  if succeeds then { d with pendingFences := some (d.obtained, d.presents), obtained := d.obtained + 1 } else d

def present (d : HybrisDisplay) (succeeds : Bool) : HybrisDisplay :=
  if succeeds then { d with presents := d.presents + 1, awaited := some (d.presents + 1) }
  else { d with awaited := none }

def commit (d : HybrisDisplay) (release present : Bool) : HybrisDisplay :=
  (d.destroyFences.getReleaseFences release).present present

def getDisplayReleaseFence (hal : Hal) (d : HybrisDisplay) : HybrisDisplay :=
  let answer := (d.pendingFences.map fun p => fencesOf hal d.layers p.2).getD []
  { d.destroyFences with awaited := none, queries := ⟨d.awaited, d.layers, d.presents, answer⟩ :: d.queries }

end HybrisDisplay

inductive Call where
  | createLayer (made : Bool)
  | destroyLayer (layerId : UInt32)
  | commit (release present : Bool)
  | getDisplayReleaseFence
  | destruct

def HybrisDisplay.call (hal : Hal) (d : HybrisDisplay) : Call → HybrisDisplay
  | .createLayer made => if made then d.createLayer else d
  | .destroyLayer layerId => { d with layers := d.layers.erase layerId }
  | .commit release present => d.commit release present
  | .getDisplayReleaseFence => d.getDisplayReleaseFence hal
  | .destruct => { d.destroyFences with gone := true }

def step (hal : Hal) (d : HybrisDisplay) (c : Call) : Option HybrisDisplay :=
  if d.gone then none else some (d.call hal c)

def Right (hal : Hal) (q : Query) : Prop :=
  (∀ n, q.awaited = some n → q.answer = fencesOf hal q.layers n) ∧ ∀ e ∈ q.answer,
    0 < e.2 ∧ e.2 ≤ q.presents

structure Accounted (d : HybrisDisplay) : Prop where
  once : (d.pendingSet ++ d.destroyed).Nodup
  all : ∀ set, set ∈ d.pendingSet ++ d.destroyed ↔ set < d.obtained
  last : d.gone = true → d.pendingFences = none

def Good (hal : Hal) (d : HybrisDisplay) : Prop := (∀ q ∈ d.queries, Right hal q) ∧ Accounted d

structure Sound (hal : Hal) (d : HybrisDisplay) : Prop where
  good : Good hal d
  older : ∀ p ∈ d.pendingFences, p.2 ≤ d.presents ∧ ∀ n ∈ d.awaited, p.2 < n

/-- The first query after a successful `Commit` finds no layer that has a fence in its present, or
in the set that the `Commit` took. -/
def Fits (hal : Hal) (d : HybrisDisplay) : Call → Prop
  | .getDisplayReleaseFence => ∀ n ∈ d.awaited, fencesOf hal d.layers n = [] ∧
      ∀ p ∈ d.pendingFences, fencesOf hal d.layers p.2 = []
  | _ => True

instance (hal : Hal) (d : HybrisDisplay) (c : Call) : Decidable (Fits hal d c) :=
  match c with
  | .getDisplayReleaseFence => inferInstanceAs (Decidable (∀ n ∈ d.awaited, _))
  | .createLayer _ | .destroyLayer _ | .commit _ _ | .destruct => isTrue trivial

variable {hal : Hal} {d d' : HybrisDisplay} {c : Call}

theorem mem_fencesOf {layers : AList fun _ : UInt32 => Nat} {n : Nat} {e : UInt32 × Nat}
    (h : e ∈ fencesOf hal layers n) : e.2 = n ∧ 0 < n := by
  simp only [fencesOf, mem_filterMap, ite_none_right_eq_some] at h
  obtain ⟨entry, -, hhas, ⟨⟩⟩ := h
  refine ⟨rfl, Nat.pos_of_ne_zero ?_⟩
  rintro rfl
  simp [hal.unpresented] at hhas

theorem fencesOf_eq_iff {layers : AList fun _ : UInt32 => Nat} {k n : Nat} (h : k < n) :
    fencesOf hal layers k = fencesOf hal layers n ↔
      fencesOf hal layers n = [] ∧ fencesOf hal layers k = [] := by
  constructor
  · intro heq
    have hnil : fencesOf hal layers n = [] := by
      refine eq_nil_iff_forall_not_mem.mpr fun e he => ?_
      have hk := mem_fencesOf (heq ▸ he)
      exact absurd (hk.1.symm.trans (mem_fencesOf he).1) h.ne
    exact ⟨hnil, heq.trans hnil⟩
  · rintro ⟨hn, hk⟩
    rw [hn, hk]

theorem Accounted.destroy (h : Accounted d) : Accounted d.destroyFences :=
  ⟨h.once, h.all, fun _ => rfl⟩

theorem Accounted.obtain (h : Accounted d) (hnone : d.pendingFences = none)
    (hgone : d.gone = false) (ok : Bool) : Accounted (d.getReleaseFences ok) := by
  cases ok with
  | false => exact h
  | true =>
    have hset : d.pendingSet = [] := by simp [HybrisDisplay.pendingSet, hnone]
    refine ⟨?_, fun set => ?_, fun hg => ?_⟩
    · have honce := h.once
      have hnot : d.obtained ∉ d.destroyed := fun hin =>
        absurd ((h.all _).mp (mem_append_right _ hin)) (lt_irrefl _)
      simpa [HybrisDisplay.getReleaseFences, HybrisDisplay.pendingSet, hnone, hnot] using honce
    · have hall := h.all set
      rw [hset, nil_append] at hall
      simp only [HybrisDisplay.getReleaseFences, HybrisDisplay.pendingSet, if_true, map_some,
        toList_some, singleton_append, mem_cons, hall]
      omega
    · rw [show (d.getReleaseFences true).gone = d.gone from rfl, hgone] at hg
      cases hg

theorem accounted_step (h : Accounted d) (hs : step hal d c = some d') : Accounted d' := by
  obtain ⟨hgone, ⟨⟩⟩ := ite_none_left_eq_some.mp hs
  rw [Bool.not_eq_true] at hgone
  cases c with
  | createLayer made => cases made <;> exact { h with }
  | destroyLayer layerId => exact { h with }
  | commit release present =>
    obtain ⟨honce, hall, hlast⟩ := h.destroy.obtain rfl hgone release
    cases present <;> exact ⟨honce, hall, hlast⟩
  | getDisplayReleaseFence => exact ⟨h.once, h.all, fun _ => rfl⟩
  | destruct => exact ⟨h.once, h.all, fun _ => rfl⟩

theorem right_step (h : Sound hal d) (hs : step hal d c = some d') :
    (∀ q ∈ d'.queries, Right hal q) ↔ Fits hal d c := by
  have hold := h.good.1
  obtain ⟨-, ⟨⟩⟩ := ite_none_left_eq_some.mp hs
  cases c with
  | createLayer made => cases made <;> exact ⟨fun _ => trivial, fun _ => hold⟩
  | destroyLayer layerId => exact ⟨fun _ => trivial, fun _ => hold⟩
  | commit release present =>
    cases release <;> cases present <;> exact ⟨fun _ => trivial, fun _ => hold⟩
  | destruct => exact ⟨fun _ => trivial, fun _ => hold⟩
  | getDisplayReleaseFence =>
    refine forall_mem_cons.trans ((and_iff_left hold).trans ?_)
    simp only [Fits, Right]
    cases hp : d.pendingFences with
    | none =>
      simp only [map_none, getD_none, not_mem_nil, false_imp_iff, implies_true, and_true, mem_def, reduceCtorEq]
      exact forall₂_congr fun n _ => eq_comm
    | some p =>
      obtain ⟨hle, hlt⟩ := h.older p hp
      have hanswer : ∀ e ∈ fencesOf hal d.layers p.2, 0 < e.2 ∧ e.2 ≤ d.presents := by
        intro e he
        obtain ⟨heq, hpos⟩ := mem_fencesOf he
        exact heq ▸ ⟨hpos, hle⟩
      simp only [map_some, getD_some, and_iff_left hanswer, mem_def, Option.some.injEq, forall_eq']
      exact forall₂_congr fun n hn => fencesOf_eq_iff (hlt n hn)

theorem older_step (h : Sound hal d) (hs : step hal d c = some d') :
    ∀ p ∈ d'.pendingFences, p.2 ≤ d'.presents ∧ ∀ n ∈ d'.awaited, p.2 < n := by
  obtain ⟨-, ⟨⟩⟩ := ite_none_left_eq_some.mp hs
  cases c with
  | createLayer made => cases made <;> exact h.older
  | destroyLayer layerId => exact h.older
  | commit release present =>
    cases release <;> cases present <;>
      simp [HybrisDisplay.call, HybrisDisplay.commit, HybrisDisplay.present,
        HybrisDisplay.getReleaseFences, HybrisDisplay.destroyFences]
  | getDisplayReleaseFence => exact nofun
  | destruct => exact nofun

/-- **Which fences a query returns**: the right ones exactly if each first query after a successful
`Commit` finds no fence in its present and none in the set that the `Commit` took. -/
theorem fences_right_iff (hal : Hal) (cs : List Call) (d : HybrisDisplay)
    (hrun : run (step hal) {} cs = some d) :
    Always (step hal) (Good hal) {} cs ↔ Along (step hal) (Fits hal) {} cs := by
  refine always_iff_along (J := Sound hal) (fun d h => h.good) ?_ ?_ hrun ?_
  · intro d c d' h hfits hs
    exact ⟨⟨(right_step h hs).mpr hfits, accounted_step h.good.2 hs⟩, older_step h hs⟩
  · intro d c d' h hfits hs hgood
    exact hfits ((right_step h hs).mp hgood.1)
  · exact ⟨⟨nofun, nodup_nil, by simp [HybrisDisplay.pendingSet], nofun⟩, nofun⟩

def busy : Hal := ⟨fun present _ => 2 ≤ present, fun _ => rfl⟩

def firstFrame : List Call :=
  [.createLayer true, .commit true true, .getDisplayReleaseFence, .destruct]

theorem fences_right_first : ∃ d, run (step busy) {} firstFrame = some d ∧ d.destroyed = [0] ∧
    Always (step busy) (Good busy) {} firstFrame :=
  ⟨_, rfl, rfl, (fences_right_iff busy _ _ rfl).mpr
    (along_of_check (fun d c => of_decide_eq_true (p := Fits busy d c)) (by decide))⟩

theorem fence_of_last_frame :
    ∃ d, run (step busy) {}
        [.createLayer true, .commit true true, .commit true true, .commit true true,
         .getDisplayReleaseFence] = some d ∧
      d.queries.map (fun q => (q.awaited, q.answer)) = [(some 3, [(1, 2)])] :=
  ⟨_, rfl, by decide⟩

end OniroSoc.Display.Fences

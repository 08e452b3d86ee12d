import OniroSoc.Support.Lookup
import OniroSoc.Support.Runs

/-!
# Serials of the RIL bridge

Requests wait for their answer in `pending_`, registration reads of the bridge's own in
`notifying_`, and some serials have nothing behind them.  One counter feeds all three: it runs from
1 to 2^31 - 1 and starts over, whether or not the serial is still in use.
-/

namespace OniroSoc.Ril
open Support List Option

variable {ρ τ : Type}

structure Tracker (ρ τ : Type) where
  serial : Int := 1
  pending : AList (fun _ : Int => ρ) := ∅
  notifying : AList (fun _ : Int => τ) := ∅

namespace Tracker

def bump (serial : Int) : Int :=
  let next := Int.bmod (serial + 1) (2 ^ 32)
  if next < 0 then 1 else next

def track (t : Tracker ρ τ) (request : ρ) : Int × Tracker ρ τ :=
  (t.serial, { t with
    serial := bump t.serial
    pending := t.pending.insert t.serial request })

def nextSerial (t : Tracker ρ τ) : Int × Tracker ρ τ :=
  (t.serial, { t with serial := bump t.serial })

def takePending (t : Tracker ρ τ) (serial : Int) : Option ρ × Tracker ρ τ :=
  (t.pending.lookup serial, { t with pending := t.pending.erase serial })

def trackNotify (t : Tracker ρ τ) (target : τ) : Int × Tracker ρ τ :=
  (t.serial, { t with
    serial := bump t.serial
    notifying := t.notifying.insert t.serial target })

def takeNotify (t : Tracker ρ τ) (serial : Int) : Option τ × Tracker ρ τ :=
  (t.notifying.lookup serial, { t with notifying := t.notifying.erase serial })

end Tracker

def period : Nat := 2 ^ 31 - 1

def serialOf (k : Nat) : Int := ((k % period + 1 : Nat) : Int)

theorem period_eq : period = 2147483647 := rfl

theorem bump_of_lt {n : Nat} (h : n < period) : Tracker.bump n = ((n + 1 : Nat) : Int) := by
  rw [period_eq] at h
  have hmod : Int.bmod ((n : Int) + 1) (2 ^ 32) = n + 1 := by
    rw [Int.bmod_def]
    omega
  unfold Tracker.bump
  rw [hmod]
  exact if_neg (by omega)

theorem bump_period : Tracker.bump period = 1 := by decide

theorem bump_serialOf (k : Nat) : Tracker.bump (serialOf k) = serialOf (k + 1) := by
  have hlt : k % period < period := Nat.mod_lt k (by decide)
  unfold serialOf
  by_cases hlast : k % period + 1 = period
  · have hzero : (k + 1) % period = 0 := by
      rw [period_eq] at *
      omega
    rw [hlast, bump_period, hzero]
    rfl
  · have hsucc : (k + 1) % period = k % period + 1 := by
      rw [period_eq] at *
      omega
    rw [bump_of_lt (by omega), hsucc]

theorem eq_of_serialOf_eq {j k : Nat} (h : serialOf j = serialOf k) (hj : j < k + period)
    (hk : k < j + period) : j = k := by
  simp only [serialOf, period_eq] at *
  omega

/-- The bridge with its allocations numbered: an entry comes with the number of the allocation that
made it, and `handedOut` has the serial of each allocation, the first one first. -/
structure Correlation (ρ τ : Type) where
  tracker : Tracker (Nat × ρ) (Nat × τ) := {}
  handedOut : List Int := []

/-- `takePending k` and `takeNotify k` look for the serial that an answer to the call of allocation
`k` echoes. -/
inductive Event (ρ τ : Type) where
  | track (request : ρ)
  | trackNotify (target : τ)
  | nextSerial
  | takePending (k : Nat)
  | takeNotify (k : Nat)

namespace Correlation

def step (s : Correlation ρ τ) : Event ρ τ → Option (Correlation ρ τ)
  | .track request =>
    let (serial, tracker) := s.tracker.track (s.handedOut.length, request)
    some { tracker, handedOut := s.handedOut ++ [serial] }
  | .trackNotify target =>
    let (serial, tracker) := s.tracker.trackNotify (s.handedOut.length, target)
    some { tracker, handedOut := s.handedOut ++ [serial] }
  | .nextSerial =>
    let (serial, tracker) := s.tracker.nextSerial
    some { tracker, handedOut := s.handedOut ++ [serial] }
  | .takePending k =>
    s.handedOut[k]?.map fun serial => { s with tracker := (s.tracker.takePending serial).2 }
  | .takeNotify k =>
    s.handedOut[k]?.map fun serial => { s with tracker := (s.tracker.takeNotify serial).2 }

def Free (s : Correlation ρ τ) : Prop :=
  s.tracker.serial ∉ s.tracker.pending ∧ s.tracker.serial ∉ s.tracker.notifying

/-- What is asked of a step: a serial is free when it is handed out, and what an answer finds was
stored by the allocation whose serial it echoes. -/
def Correlated (s : Correlation ρ τ) : Event ρ τ → Prop
  | .takePending k =>
    ∀ serial ∈ s.handedOut[k]?, ∀ entry ∈ s.tracker.pending.lookup serial, entry.1 = k
  | .takeNotify k =>
    ∀ serial ∈ s.handedOut[k]?, ∀ entry ∈ s.tracker.notifying.lookup serial, entry.1 = k
  | _ => s.Free

def Apart (s : Correlation ρ τ) : Prop :=
  ∀ serial ∈ s.tracker.pending, serial ∉ s.tracker.notifying

/-- The condition.  When a serial is handed out, every entry that waits is less than a round old; an
answer comes before its serial has been handed out twice more. -/
def Recent (s : Correlation ρ τ) : Event ρ τ → Prop
  | .takePending k => s.handedOut.length ≤ k + period
  | .takeNotify k => s.handedOut.length ≤ k + period
  | _ =>
    (∀ serial, ∀ entry ∈ s.tracker.pending.lookup serial, s.handedOut.length < entry.1 + period) ∧
      ∀ serial, ∀ entry ∈ s.tracker.notifying.lookup serial, s.handedOut.length < entry.1 + period

def Dated {β : Type} (n : Nat) (m : AList fun _ : Int => Nat × β) : Prop :=
  ∀ serial, ∀ entry ∈ m.lookup serial,
    serial = serialOf entry.1 ∧ entry.1 < n ∧ n ≤ entry.1 + period

section Dated
variable {β : Type} {n : Nat} {m : AList fun _ : Int => Nat × β}

theorem Dated.erase (h : Dated n m) (serial : Int) : Dated n (m.erase serial) := by
  intro serial' entry he
  exact h serial' entry (lookup_erase_eq_some_iff.mp he).2

theorem Dated.grow (h : Dated n m)
    (hrecent : ∀ serial, ∀ entry ∈ m.lookup serial, n < entry.1 + period) : Dated (n + 1) m := by
  intro serial entry he
  obtain ⟨hserial, hlt, -⟩ := h serial entry he
  have hage := hrecent serial entry he
  exact ⟨hserial, by omega, by omega⟩

theorem Dated.insert (h : Dated (n + 1) m) (b : β) :
    Dated (n + 1) (m.insert (serialOf n) (n, b)) := by
  intro serial entry he
  rcases lookup_insert_eq_some_iff.mp he with ⟨rfl, rfl⟩ | ⟨-, he⟩
  · exact ⟨rfl, Nat.lt_succ_self n, by simp [period_eq]⟩
  · exact h serial entry he

theorem Dated.notMem (h : Dated n m)
    (hrecent : ∀ serial, ∀ entry ∈ m.lookup serial, n < entry.1 + period) : serialOf n ∉ m := by
  intro hmem
  obtain ⟨entry, he⟩ := isSome_iff_exists.mp (AList.lookup_isSome.mpr hmem)
  obtain ⟨hserial, hlt, -⟩ := h _ entry he
  have hage := hrecent _ entry he
  exact absurd (eq_of_serialOf_eq hserial hage (by omega)) hlt.ne'

theorem Dated.own (h : Dated n m) {k : Nat} {entry : Nat × β} (he : entry ∈ m.lookup (serialOf k))
    (hk : k < n) (hrecent : n ≤ k + period) : entry.1 = k := by
  obtain ⟨hserial, hlt, hage⟩ := h _ entry he
  exact (eq_of_serialOf_eq hserial (by omega) (by omega)).symm

end Dated

structure Kept (s : Correlation ρ τ) : Prop where
  serial : s.tracker.serial = serialOf s.handedOut.length
  handedOut : ∀ k, ∀ serial ∈ s.handedOut[k]?, serial = serialOf k
  pending : Dated s.handedOut.length s.tracker.pending
  notifying : Dated s.handedOut.length s.tracker.notifying
  apart : s.Apart

theorem kept_empty : Kept ({} : Correlation ρ τ) where
  serial := rfl
  handedOut := nofun
  pending := nofun
  notifying := nofun
  apart := nofun

variable {s s' : Correlation ρ τ}

theorem Kept.free (h : Kept s) (hrecent : s.Recent .nextSerial) : s.Free := by
  unfold Free
  rw [h.serial]
  exact ⟨h.pending.notMem hrecent.1, h.notifying.notMem hrecent.2⟩

theorem Kept.handedOut_append (h : Kept s) (k : Nat) :
    ∀ serial ∈ (s.handedOut ++ [s.tracker.serial])[k]?, serial = serialOf k := by
  intro serial hk
  rcases Nat.lt_trichotomy k s.handedOut.length with hlt | rfl | hgt
  · rw [getElem?_append_left hlt] at hk
    exact h.handedOut k serial hk
  · simp only [getElem?_concat_length, mem_some_iff] at hk
    rw [← hk, h.serial]
  · rw [getElem?_eq_none (by simp; omega)] at hk
    cases hk

theorem Kept.correlated (h : Kept s) {a : Event ρ τ} (ha : s.Recent a) : s.Correlated a := by
  cases a with
  | track request => exact h.free ha
  | trackNotify target => exact h.free ha
  | nextSerial => exact h.free ha
  | takePending k =>
    intro serial hk entry he
    obtain rfl := h.handedOut k serial hk
    obtain ⟨hlt, -⟩ := List.getElem?_eq_some_iff.mp hk
    exact h.pending.own he hlt ha
  | takeNotify k =>
    intro serial hk entry he
    obtain rfl := h.handedOut k serial hk
    obtain ⟨hlt, -⟩ := List.getElem?_eq_some_iff.mp hk
    exact h.notifying.own he hlt ha

theorem Kept.allocate (h : Kept s) (hrecent : s.Recent .nextSerial) :
    Kept { tracker := s.tracker.nextSerial.2, handedOut := s.handedOut ++ [s.tracker.serial] } where
  serial := by
    rw [length_append, length_singleton, ← bump_serialOf, ← h.serial]
    rfl
  handedOut := h.handedOut_append
  pending := by
    rw [length_append, length_singleton]
    exact h.pending.grow hrecent.1
  notifying := by
    rw [length_append, length_singleton]
    exact h.notifying.grow hrecent.2
  apart := h.apart

theorem Kept.after_step (h : Kept s) {a : Event ρ τ} (ha : s.Recent a) (hs : step s a = some s') :
    Kept s' := by
  cases a with
  | track request =>
    cases hs
    obtain ⟨-, hfree⟩ := h.free ha
    obtain ⟨hserial, hout, hpending, hnotifying, hapart⟩ := h.allocate ha
    refine ⟨hserial, hout, ?_, hnotifying, ?_⟩
    · rw [length_append] at hpending ⊢
      have hdated := hpending.insert request
      rwa [← h.serial] at hdated
    · intro serial hmem
      rcases (AList.mem_insert s.tracker.pending).mp hmem with rfl | hmem
      · exact hfree
      · exact hapart serial hmem
  | trackNotify target =>
    cases hs
    obtain ⟨hfree, -⟩ := h.free ha
    obtain ⟨hserial, hout, hpending, hnotifying, hapart⟩ := h.allocate ha
    refine ⟨hserial, hout, hpending, ?_, ?_⟩
    · rw [length_append] at hnotifying ⊢
      have hdated := hnotifying.insert target
      rwa [← h.serial] at hdated
    · intro serial hmem hmem'
      rcases (AList.mem_insert s.tracker.notifying).mp hmem' with rfl | hmem'
      · exact hfree hmem
      · exact hapart serial hmem hmem'
  | nextSerial =>
    cases hs
    exact h.allocate ha
  | takePending k =>
    obtain ⟨serial, hk, rfl⟩ := map_eq_some_iff.mp hs
    refine { h with pending := h.pending.erase serial, apart := ?_ }
    intro serial' hmem
    exact h.apart serial' (AList.mem_erase.mp hmem).2
  | takeNotify k =>
    obtain ⟨serial, hk, rfl⟩ := map_eq_some_iff.mp hs
    refine { h with notifying := h.notifying.erase serial, apart := ?_ }
    intro serial' hmem hmem'
    exact h.apart serial' hmem (AList.mem_erase.mp hmem').2

/-- **Serials correlate** while no entry waits for a whole round of the counter, and no answer comes
more than a round late. -/
theorem serials_correlate (events : List (Event ρ τ)) (s : Correlation ρ τ)
    (hrun : run step {} events = some s) (hrecent : Along step Recent {} events) :
    Along step (fun s a => s.Correlated a ∧ s.Apart) {} events ∧ s.Apart := by
  have hstep : ∀ (s : Correlation ρ τ) a s₁, Kept s → s.Recent a → step s a = some s₁ → Kept s₁ :=
    fun s a s₁ h ha hs => h.after_step ha hs
  constructor
  · refine along_of_along hstep ?_ hrecent kept_empty
    exact fun s a h ha => ⟨h.correlated ha, h.apart⟩
  · exact (run_invariant_along hstep hrecent hrun kept_empty).apart

theorem recent_of_lt (h : s.handedOut.length < period) (a : Event ρ τ) : s.Recent a := by
  have hlt : ∀ k, s.handedOut.length < k + period := fun k => h.trans_le (Nat.le_add_left _ _)
  cases a with
  | takePending k => exact (hlt k).le
  | takeNotify k => exact (hlt k).le
  | _ => exact ⟨fun _ entry _ => hlt entry.1, fun _ entry _ => hlt entry.1⟩

def threeUsers : List (Event Nat Nat) :=
  [.track 7, .trackNotify 8, .nextSerial, .takePending 0, .takeNotify 1]

theorem serials_correlate_threeUsers :
    ∃ s, run step {} threeUsers = some s ∧ Along step Recent {} threeUsers ∧
      Along step (fun s a => s.Correlated a ∧ s.Apart) {} threeUsers ∧ s.Apart := by
  have hrecent : Along step Recent {} threeUsers :=
    along_cons (recent_of_lt (by decide) _) rfl (along_cons (recent_of_lt (by decide) _) rfl
      (along_cons (recent_of_lt (by decide) _) rfl (along_cons (recent_of_lt (by decide) _) rfl
        (along_cons (recent_of_lt (by decide) _) rfl trivial))))
  exact ⟨_, rfl, hrecent, serials_correlate threeUsers _ rfl hrecent⟩

theorem run_nextSerial (n : Nat) (h : s.tracker.serial = serialOf s.handedOut.length) :
    ∃ s', run step s (List.replicate n .nextSerial) = some s' ∧
      s'.tracker = { s.tracker with serial := serialOf (s.handedOut.length + n) } ∧
      s'.handedOut.length = s.handedOut.length + n := by
  induction n generalizing s with
  | zero => exact ⟨s, rfl, by rw [Nat.add_zero, ← h], rfl⟩
  | succ n ih =>
    have hlen : (s.handedOut ++ [s.tracker.serial]).length = s.handedOut.length + 1 := by simp
    have hnext : Tracker.bump s.tracker.serial = serialOf (s.handedOut ++ [s.tracker.serial]).length := by
      rw [hlen, h, bump_serialOf]
    obtain ⟨s', hrun, htracker, hout⟩ :=
      ih (s := ⟨s.tracker.nextSerial.2, s.handedOut ++ [s.tracker.serial]⟩) hnext
    rw [hlen, Nat.add_assoc, Nat.add_comm 1 n] at htracker hout
    exact ⟨s', hrun, htracker, hout⟩

theorem serial_collides :
    ∃ (events : List (Event Nat Nat)) (s s' : Correlation Nat Nat),
      run step {} events = some s ∧ s.tracker.pending.keys = [1] ∧ s.tracker.notifying.keys = [] ∧
      step s (.track 8) = some s' ∧ ¬ s.Correlated (.track 8) ∧
      s.tracker.pending.lookup 1 = some (0, 7) ∧
      s'.tracker.pending.lookup 1 = some (period, 8) := by
  let first : Correlation Nat Nat := ⟨⟨2, AList.singleton 1 (0, 7), ∅⟩, [1]⟩
  obtain ⟨s, hrun, htracker, hout⟩ := run_nextSerial (s := first) (period - 1) rfl
  have hfirst : ∀ rest, run step {} (.track 7 :: rest) = run step first rest := fun _ => rfl
  have hserial : serialOf (first.handedOut.length + (period - 1)) = 1 := by decide
  have hlen : s.handedOut.length = period := hout.trans (by decide)
  rw [hserial] at htracker
  refine ⟨.track 7 :: List.replicate (period - 1) .nextSerial, s, _, (hfirst _).trans hrun, ?_, ?_,
    rfl, ?_, ?_, ?_⟩
  · rw [htracker]
    rfl
  · rw [htracker]
    rfl
  · rintro ⟨hfree, -⟩
    rw [htracker] at hfree
    exact hfree (by decide)
  · rw [htracker]
    rfl
  · simp only [htracker, hlen]
    exact AList.lookup_insert _

end Correlation

end OniroSoc.Ril

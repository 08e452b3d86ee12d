import Mathlib.Tactic
import Mathlib.Data.List.DropRight

/-!
# Support — text files of entries

A file of entries has one line for each, the key and the value with a space between them.
-/

namespace OniroSoc.Support
open List

structure Word (w : List Char) : Prop where
  nonempty : w ≠ []
  solid : ∀ c ∈ w, c.isWhitespace = false

variable {w : List Char} {e : List Char × List Char} {p : Char → Bool}

theorem word_of_all (hne : w ≠ []) (h : w.all (fun c => !c.isWhitespace) = true) : Word w :=
  ⟨hne, fun c hc => by simpa using all_eq_true.mp h c hc⟩

def entryLine (e : List Char × List Char) : List Char := e.1 ++ ' ' :: e.2

def entriesText (es : List (List Char × List Char)) : List Char :=
  es.flatMap fun e => entryLine e ++ ['\n']

theorem newline_notMem_entryLine (hk : Word e.1) (hv : Word e.2) : '\n' ∉ entryLine e := by
  intro h
  rcases mem_append.mp h with h | h
  · exact absurd (hk.solid _ h) (by decide)
  · rcases mem_cons.mp h with h | h
    · exact absurd h (by decide)
    · exact absurd (hv.solid _ h) (by decide)

theorem splitOn_entriesText {es : List (List Char × List Char)}
    (h : ∀ e ∈ es, Word e.1 ∧ Word e.2) :
    (entriesText es).splitOn '\n' = es.map entryLine ++ [[]] := by
  induction es with
  | nil => rfl
  | cons e es ih =>
    obtain ⟨⟨hk, hv⟩, hes⟩ := forall_mem_cons.mp h
    have hline : ∀ c ∈ entryLine e, (c == '\n') = false := by
      intro c hc
      refine beq_eq_false_iff_ne.mpr ?_
      rintro rfl
      exact newline_notMem_entryLine hk hv hc
    have htext : entriesText (e :: es) = entryLine e ++ '\n' :: entriesText es := by
      simp [entriesText]
    rw [htext, map_cons, cons_append, ← ih hes]
    exact splitOnP_append_cons_of_forall_mem hline '\n' (beq_self_eq_true _) _

def blank (c : Char) : Bool := c == ' ' || c == '\t'

def readWords (line : List Char) : List Char × List Char :=
  let line := line.dropWhile blank
  (line.takeWhile (!blank ·), ((line.dropWhile (!blank ·)).dropWhile blank).rdropWhile blank)

def trim (text : List Char) : List Char :=
  (text.dropWhile Char.isWhitespace).rdropWhile Char.isWhitespace

def keyValue (line : List Char) : Option (List Char × List Char) :=
  let line := trim line
  let key := line.takeWhile (· != ' ')
  if key = [] ∨ ' ' ∉ line then none else some (key, trim (line.dropWhile (· != ' ')).tail)

theorem blank_eq_false {c : Char} (h : c.isWhitespace = false) : blank c = false := by
  simp only [Char.isWhitespace, Bool.or_eq_false_iff, decide_eq_false_iff_not] at h
  simp [blank, h.1.1.1, h.1.1.2]

theorem ne_space {c : Char} (h : c.isWhitespace = false) : c ≠ ' ' := by
  rintro rfl
  cases h

theorem Word.dropWhile_append (hw : Word w)
    (hp : ∀ c ∈ w, p c = false) (rest : List Char) : (w ++ rest).dropWhile p = w ++ rest := by
  cases w with
  | nil => exact absurd rfl hw.nonempty
  | cons c w => rw [cons_append, dropWhile_cons_of_neg (by simp [hp c (.head _)])]

theorem Word.rdropWhile_append (hw : Word w)
    (hp : ∀ c ∈ w, p c = false) (first : List Char) : (first ++ w).rdropWhile p = first ++ w := by
  rw [rdropWhile_eq_self_iff]
  intro hne
  rw [getLast_append_of_ne_nil _ hw.nonempty, hp _ (getLast_mem hw.nonempty)]
  decide

theorem Word.rdropWhile (hw : Word w) (hp : ∀ c ∈ w, p c = false) : w.rdropWhile p = w :=
  hw.rdropWhile_append hp []

theorem Word.dropWhile (hw : Word w) (hp : ∀ c ∈ w, p c = false) : w.dropWhile p = w := by
  have h := hw.dropWhile_append hp []
  rwa [append_nil] at h

theorem Word.trim (hw : Word w) : trim w = w := by
  rw [Support.trim, hw.dropWhile hw.solid, hw.rdropWhile hw.solid]

theorem takeWhile_stop {stop : Char} (hw : ∀ c ∈ w, p c = true)
    (hstop : p stop = false) (rest : List Char) : (w ++ stop :: rest).takeWhile p = w := by
  rw [takeWhile_append_of_pos hw, takeWhile_cons_of_neg (by simp [hstop]), append_nil]

theorem dropWhile_stop {stop : Char} (hw : ∀ c ∈ w, p c = true) (hstop : p stop = false)
    (rest : List Char) : (w ++ stop :: rest).dropWhile p = stop :: rest := by
  rw [dropWhile_append_of_pos hw, dropWhile_cons_of_neg (by simp [hstop])]

theorem readWords_entryLine (hk : Word e.1) (hv : Word e.2) : readWords (entryLine e) = e := by
  have hkb : ∀ c ∈ e.1, blank c = false := fun c hc => blank_eq_false (hk.solid c hc)
  have hvb : ∀ c ∈ e.2, blank c = false := fun c hc => blank_eq_false (hv.solid c hc)
  have hkn : ∀ c ∈ e.1, (!blank c) = true := fun c hc => by rw [hkb c hc]; rfl
  unfold readWords entryLine
  dsimp only
  rw [hk.dropWhile_append hkb, takeWhile_stop hkn (by decide), dropWhile_stop hkn (by decide),
    dropWhile_cons_of_pos (by decide), hv.dropWhile hvb, hv.rdropWhile hvb]

theorem keyValue_entryLine (hk : Word e.1) (hv : Word e.2) : keyValue (entryLine e) = some e := by
  have hline : Support.trim (entryLine e) = entryLine e := by
    have hlast := hv.rdropWhile_append hv.solid (e.1 ++ [' '])
    rw [append_assoc, singleton_append] at hlast
    rw [Support.trim, entryLine, hk.dropWhile_append hk.solid]
    exact hlast
  have hkn : ∀ c ∈ e.1, (c != ' ') = true := fun c hc => bne_iff_ne.mpr (ne_space (hk.solid c hc))
  have hkey : (entryLine e).takeWhile (· != ' ') = e.1 := takeWhile_stop hkn (by decide) _
  have hvalue : (entryLine e).dropWhile (· != ' ') = ' ' :: e.2 := dropWhile_stop hkn (by decide) _
  have hspace : ' ' ∈ entryLine e := by simp [entryLine]
  unfold keyValue
  dsimp only
  rw [hline, hkey, hvalue, if_neg (by simp [hk.nonempty, hspace]), tail_cons, hv.trim]

def natural? (text : List Char) : Option Nat :=
  if text = [] ∨ ¬ text.all Char.isDigit then none else some (Nat.ofDigitChars 10 text 0)

def leadingNatural? (text : List Char) : Option Nat :=
  natural? (text.takeWhile Char.isDigit)

theorem isDigit_toDigits (n : Nat) : ∀ c ∈ Nat.toDigits 10 n, c.isDigit = true :=
  fun _ hc => Nat.isDigit_of_mem_toDigits (by decide) (by decide) hc

theorem word_toDigits (n : Nat) : Word (Nat.toDigits 10 n) where
  nonempty := Nat.toDigits_ne_nil
  solid c hc := by
    have hdigit := isDigit_toDigits n c hc
    by_contra h
    rw [Bool.not_eq_false] at h
    simp only [Char.isWhitespace, Bool.or_eq_true, decide_eq_true_eq] at h
    rcases h with ((rfl | rfl) | rfl) | rfl <;> cases hdigit

@[simp] theorem natural_toDigits (n : Nat) : natural? (Nat.toDigits 10 n) = some n := by
  rw [natural?, if_neg, Nat.ofDigitChars_ten_toDigits]
  rintro (h | h)
  · exact Nat.toDigits_ne_nil h
  · exact h (all_eq_true.mpr (isDigit_toDigits n))

@[simp] theorem leadingNatural_toDigits (n : Nat) :
    leadingNatural? (Nat.toDigits 10 n) = some n := by
  rw [leadingNatural?, takeWhile_eq_self_iff.mpr (isDigit_toDigits n), natural_toDigits]

end OniroSoc.Support

import Mathlib.Tactic

/-!
# The orientation of a still

`FixupExifOrientation` walks the segments of a JPEG to the first Exif segment, reads the TIFF header
in it, and goes through the first directory to the orientation.  An orientation that is no legal
value becomes 1.
-/

namespace OniroSoc.Camera.Exif
open Option

abbrev Buffer := Nat → UInt8

section Code
variable (data : Buffer) (len : Int)

def load (i : Int) : Option UInt8 := if 0 ≤ i ∧ i < len then some (data i.toNat) else none

def int32 (x : Int) : Option Int := if x < 2 ^ 31 then some x else none

def rd16 (little : Bool) (i : Int) : Option Nat := do
  let a ← load data len i
  let b ← load data len (i + 1)
  return if little then a.toNat + b.toNat * 256 else a.toNat * 256 + b.toNat

inductive Segment where
  | stop
  | exif
  | next (segLen : Nat) (long : 2 ≤ segLen)

def scan (little : Bool) (entry : Int) : Nat → Option (Option Int)
  | 0 => some none
  | entries + 1 =>
    if entry + 12 > len then some none
    else do
      if (← rd16 data len little entry) ≠ 0x0112 then scan little (entry + 12) entries
      else return some entry

end Code

section Format
variable (data : Buffer) (len : Int)

def byte (i : Int) : UInt8 := data i.toNat

def u16 (little : Bool) (i : Int) : Nat :=
  if little then (byte data i).toNat + (byte data (i + 1)).toNat * 256
  else (byte data i).toNat * 256 + (byte data (i + 1)).toNat

def exifText (i : Int) : Bool :=
  [0, 1, 2, 3, 4, 5].map (fun k => byte data (i + k)) = [0x45, 0x78, 0x69, 0x66, 0, 0]

def kind (pos : Int) : Segment :=
  if byte data pos ≠ 0xff then .stop
  else if h : u16 data false (pos + 2) < 2 then .stop
  else if pos + 2 + u16 data false (pos + 2) > len then .stop
  else if (byte data (pos + 1) = 0xe1 ∧ 8 ≤ u16 data false (pos + 2)) ∧ exifText data
    (pos + 4) then .exif
  else if byte data (pos + 1) = 0xda then .stop
  else .next (u16 data false (pos + 2)) (Nat.le_of_not_lt h)

def Next (pos pos' : Int) : Prop :=
  pos + 4 ≤ len ∧ ∃ segLen long, kind data len pos = .next segLen long ∧ pos' = pos + 2 + segLen

abbrev Reach : Int → Int → Prop := Relation.ReflTransGen (Next data len)

def ExifAt (pos : Int) : Prop := pos + 4 ≤ len ∧ kind data len pos = .exif

def order (tiff : Int) : Option Bool :=
  if byte data tiff = 0x49 ∧ byte data (tiff + 1) = 0x49 then some true
  else if byte data tiff = 0x4d ∧ byte data (tiff + 1) = 0x4d then some false else none

def Overflows (pos : Int) : Prop :=
  2 ^ 31 ≤ pos + 4 ∨ pos + 4 ≤ len ∧ byte data pos = 0xff ∧ 2 ≤ u16 data false (pos + 2) ∧
    2 ^ 31 ≤ pos + 2 + u16 data false (pos + 2)

end Format

section Reads
variable {data : Buffer} {len : Int} {pos q tiff entry : Int} {little : Bool} {n : Nat}

variable {i : Int}

theorem load_eq (data : Buffer) (h₀ : 0 ≤ i) (h₁ : i < len) :
    load data len i = some (byte data i) := by
  simp [load, byte, h₀, h₁]

def Walked (data : Buffer) (len pos : Int) : Option (Option Int) → Prop
  | none => ∃ q, Reach data len pos q ∧ Overflows data len q
  | some found => (∀ q, Reach data len pos q → ¬ Overflows data len q) ∧
      ∀ q, found = some q ↔ Reach data len pos q ∧ ExifAt data len q

theorem Walked.last {found : Option Int} (hno : ¬ Overflows data len pos)
    (hlast : ∀ q, ¬ Next data len pos q)
    (hfound : ∀ q, found = some q ↔ q = pos ∧ ExifAt data len pos) :
    Walked data len pos (some found) := by
  have hreach : ∀ q, Reach data len pos q ↔ q = pos := by
    intro q
    refine Relation.ReflTransGen.cases_head_iff.trans ?_
    simp [hlast, eq_comm]
  simp +contextual [Walked, hreach, hno, hfound]

theorem Walked.next {pos' : Int} {r : Option (Option Int)} (hno : ¬ Overflows data len pos)
    (hnext : Next data len pos pos') (h : Walked data len pos' r) : Walked data len pos r := by
  obtain ⟨hend, n, hn, hk, rfl⟩ := hnext
  have hreach : ∀ q, Reach data len pos q ↔ q = pos ∨ Reach data len (pos + 2 + n) q := by
    intro q
    refine Relation.ReflTransGen.cases_head_iff.trans ?_
    simp [Next, hk, hn, hend, eq_comm]
  have hexif : ¬ ExifAt data len pos := by simp [ExifAt, hk]
  cases r with
  | none =>
    obtain ⟨q, hq, ho⟩ := h
    exact ⟨q, (hreach q).mpr (.inr hq), ho⟩
  | some found =>
    constructor
    · intro q hq
      obtain rfl | hq := (hreach q).mp hq
      exacts [hno, h.1 q hq]
    · intro q
      rw [h.2 q, hreach q, or_and_right]
      refine ⟨.inr, fun hor => hor.resolve_left ?_⟩
      rintro ⟨rfl, he⟩
      exact hexif he

variable {data' : Buffer}

end Reads

section Repair
variable {data : Buffer} {len : Int} {l : Bool} {e : Int}

end Repair

end OniroSoc.Camera.Exif

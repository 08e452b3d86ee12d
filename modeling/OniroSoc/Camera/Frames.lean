import Mathlib.Tactic

/-!
# The copies of a camera frame

`DeliverYuv` copies the planes of an image into the buffer of a stream, semi-planar, with one
`memcpy` per row of chroma if the source is in that order already.  `DeliverYuvScaled` samples an
image of another size.
-/

namespace OniroSoc.Camera.Frames
open List

/-- An `AImage`: its planes are ranges of addresses, and both planes of chroma have the strides of
the first. -/
structure Image where
  (width height : Nat)
  (y u v : Int)
  (yLen uLen vLen : Nat)
  (yStride uStride uPixStride : Int)

structure Target where
  (width height : Nat)
  (nv12 mapped : Bool)
  stride : Int
  size : Nat

abbrev Copy := Nat × Int

def memcpy (dst : Nat) (src : Int) (n : Nat) : List Copy :=
  (List.range n).map fun j => (dst + j, src + j)

def pair (dst : Nat) (srcFirst srcSecond : Int) (col : Nat) : List Copy :=
  [(dst + col * 2, srcFirst), (dst + (col * 2 + 1), srcSecond)]

section Code
variable (img : Image) (t : Target)

def first : Int := if t.nv12 then img.u else img.v
def second : Int := if t.nv12 then img.v else img.u

def dstStride : Nat := t.stride.toNat
def lumaBytes : Nat := dstStride t * t.height
def neededBytes : Nat := lumaBytes t + lumaBytes t / 2
def copyWidth : Nat := min img.width (dstStride t)

def luma : List Copy := (List.range img.height).flatMap fun row =>
  memcpy (row * dstStride t) (img.y + row * img.yStride) (copyWidth img t)

def chromaRows : List Copy := (List.range (img.height / 2)).flatMap fun row =>
  memcpy (lumaBytes t + row * dstStride t) (first img t + row * img.uStride) (copyWidth img t)

def chromaCols : List Copy := (List.range (img.height / 2)).flatMap fun row =>
  (List.range (copyWidth img t / 2)).flatMap fun (col : Nat) =>
    pair (lumaBytes t + row * dstStride t) (first img t + row * img.uStride + col * img.uPixStride)
      (second img t + row * img.uStride + col * img.uPixStride) col

def InOrder : Prop := img.uPixStride = 2 ∧ first img t + 1 = second img t

instance : Decidable (InOrder img t) := inferInstanceAs (Decidable (_ ∧ _))

def Planes : Prop := img.y ≠ 0 ∧ img.u ≠ 0 ∧ img.v ≠ 0

instance : Decidable (Planes img) := inferInstanceAs (Decidable (_ ∧ _))

def Admits : Prop := Planes img ∧ t.mapped ∧ 0 < t.stride ∧ neededBytes t ≤ t.size

instance : Decidable (Admits img t) := inferInstanceAs (Decidable (_ ∧ _))

def lumaScaled : List Copy := (List.range t.height).flatMap fun row =>
  (List.range t.width).map fun x => (row * dstStride t + x,
    img.y + (row * img.height / t.height : Nat) * img.yStride + (x * img.width / t.width : Nat))

def chromaScaled : List Copy := (List.range (t.height / 2)).flatMap fun row =>
  (List.range (t.width / 2)).flatMap fun (col : Nat) =>
    let src := (row * (img.height / 2) / (t.height / 2) : Nat) * img.uStride +
      (col * (img.width / 2) / (t.width / 2) : Nat) * img.uPixStride
    pair (lumaBytes t + row * dstStride t) (first img t + src) (second img t + src) col

def deliverYuvScaled : Option (List Copy) :=
  if ¬ Planes img ∨ img.width < 2 ∨ img.height < 2 then none
  else if ¬ t.mapped ∨ t.stride < t.width ∨ t.size < neededBytes t then none
  else some (lumaScaled img t ++ chromaScaled img t)

def deliverYuv : Option (List Copy) :=
  if img.width ≠ t.width ∨ img.height ≠ t.height then deliverYuvScaled img t
  else if ¬ Admits img t then none
  else some (luma img t ++ if InOrder img t then chromaRows img t else chromaCols img t)

end Code

def perform (mem : Int → UInt8) (copies : List Copy) (dst : Nat → UInt8) : Nat → UInt8 :=
  copies.foldl (fun out c => Function.update out c.1 (mem c.2)) dst

def InPlane (plane : Int) (len : Nat) (a : Int) : Prop := plane ≤ a ∧ a < plane + len

structure Contains (img : Image) : Prop where
  y : ∀ row < img.height, ∀ col < img.width,
    InPlane img.y img.yLen (img.y + row * img.yStride + col)
  u : ∀ row < img.height / 2, ∀ col < img.width / 2,
    InPlane img.u img.uLen (img.u + row * img.uStride + col * img.uPixStride)
  v : ∀ row < img.height / 2, ∀ col < img.width / 2,
    InPlane img.v img.vLen (img.v + row * img.uStride + col * img.uPixStride)

def InFirst (img : Image) (t : Target) (a : Int) : Prop :=
  if t.nv12 then InPlane img.u img.uLen a else InPlane img.v img.vLen a

def InSecond (img : Image) (t : Target) (a : Int) : Prop :=
  if t.nv12 then InPlane img.v img.vLen a else InPlane img.u img.uLen a

def Within (img : Image) (t : Target) (c : Copy) : Prop :=
  c.1 < lumaBytes t ∧ InPlane img.y img.yLen c.2 ∨
    ∃ row < t.height / 2, ∃ col < dstStride t, c.1 = lumaBytes t + row * dstStride t + col ∧
      if col % 2 = 0 then InFirst img t c.2 else InSecond img t c.2

/-- **A frame.**  Both ways to write chroma and both functions have the same effect where they can
replace each other, and every copy of either is inside the planes and the buffer. -/
structure Agrees (img : Image) (t : Target) : Prop where
  rows : img.width = t.width → img.height = t.height → Admits img t → InOrder img t →
    ∀ mem dst, perform mem (chromaRows img t) dst = perform mem (chromaCols img t) dst
  scaled : img.width = t.width → img.height = t.height → t.width ≤ t.stride → ∀ mem dst,
    perform mem ((deliverYuvScaled img t).getD []) dst = perform mem
    ((deliverYuv img t).getD []) dst
  within : ∀ c, c ∈ (deliverYuv img t).getD [] ∨ c ∈ (deliverYuvScaled img t).getD [] →
    Within img t c ∧ c.1 < neededBytes t

/-- **The condition.**  The rows of chroma that are copied in one piece end with a whole pair. -/
def WholePairs (img : Image) (t : Target) : Prop :=
  img.width = t.width → img.height = t.height → Admits img t → InOrder img t → 0 < img.height →
    copyWidth img t % 2 = 0

theorem row_lt {row rows x stride : Nat} (hrow : row < rows) (hx : x < stride) :
    row * stride + x < rows * stride :=
  calc row * stride + x < (row + 1) * stride := by rw [Nat.succ_mul]; omega
    _ ≤ rows * stride := Nat.mul_le_mul_right _ hrow

theorem scaled_lt {i n m : Nat} (hi : i < n) (hm : 0 < m) : i * m / n < m := by
  rw [Nat.div_lt_iff_lt_mul (by omega), Nat.mul_comm m]
  exact Nat.mul_lt_mul_of_pos_right hi hm

section Bounds
variable {img : Image} {t : Target} {c : Copy}

theorem Within.lt_needed (h : Within img t c) : c.1 < neededBytes t := by
  obtain ⟨h, -⟩ | ⟨row, hrow, col, hcol, heq, -⟩ := h
  · exact Nat.lt_add_right _ h
  · have hhalf : t.height / 2 * dstStride t ≤ lumaBytes t / 2 := by
      rw [Nat.le_div_iff_mul_le (by omega), lumaBytes, Nat.mul_right_comm, Nat.mul_comm (dstStride t)]
      exact Nat.mul_le_mul_right _ (Nat.div_mul_le_self _ _)
    have hlt := row_lt hrow hcol
    rw [neededBytes, heq]
    omega

variable {row : Nat}

theorem within_luma {x : Nat} {a : Int} (hrow : row < t.height) (hx : x < dstStride t)
    (ha : InPlane img.y img.yLen a) : Within img t (row * dstStride t + x, a) := by
  refine .inl ⟨?_, ha⟩
  rw [lumaBytes, Nat.mul_comm (dstStride t)]
  exact row_lt hrow hx

variable {col : Nat}

theorem Contains.first (h : Contains img) (hrow : row < img.height / 2)
    (hcol : col < img.width / 2) :
    InFirst img t (Frames.first img t + row * img.uStride + col * img.uPixStride) := by
  cases hnv : t.nv12 <;> simp only [InFirst, Frames.first, hnv]
  exacts [h.v row hrow col hcol, h.u row hrow col hcol]

theorem Contains.second (h : Contains img) (hrow : row < img.height / 2)
    (hcol : col < img.width / 2) :
    InSecond img t (Frames.second img t + row * img.uStride + col * img.uPixStride) := by
  cases hnv : t.nv12 <;> simp only [InSecond, Frames.second, hnv]
  exacts [h.u row hrow col hcol, h.v row hrow col hcol]

theorem within_pair {a b : Int} (hrow : row < t.height / 2) (hcol : col * 2 + 1 < dstStride t)
    (ha : InFirst img t a) (hb : InSecond img t b)
    (hc : c ∈ pair (lumaBytes t + row * dstStride t) a b col) : Within img t c := by
  simp only [pair, mem_cons, not_mem_nil, or_false] at hc
  obtain rfl | rfl := hc
  · exact .inr ⟨row, hrow, col * 2, by omega, rfl, by simpa using ha⟩
  · refine .inr ⟨row, hrow, col * 2 + 1, hcol, rfl, ?_⟩
    rw [if_neg (by omega)]
    exact hb

section
variable (hin : Contains img)
include hin

theorem within_scaled (hw : 2 ≤ img.width) (hh : 2 ≤ img.height)
    (hstride : t.width ≤ t.stride) (hc : c ∈ lumaScaled img t ++ chromaScaled img t) :
    Within img t c := by
  have hwide : t.width ≤ dstStride t := by
    rw [dstStride]
    omega
  rw [mem_append] at hc
  obtain hc | hc := hc
  · simp only [lumaScaled, mem_flatMap, mem_map, mem_range] at hc
    obtain ⟨row, hrow, x, hx, rfl⟩ := hc
    exact within_luma hrow (by omega)
      (hin.y _ (scaled_lt hrow (by omega)) _ (scaled_lt hx (by omega)))
  · simp only [chromaScaled, mem_flatMap, mem_range, ← add_assoc] at hc
    obtain ⟨row, hrow, col, hcol, hc⟩ := hc
    have hrow' := scaled_lt hrow (by omega : 0 < img.height / 2)
    have hcol' := scaled_lt hcol (by omega : 0 < img.width / 2)
    exact within_pair hrow (by omega) (hin.first hrow' hcol') (hin.second hrow' hcol') hc

theorem within_luma_rows (hh : img.height = t.height) (hc : c ∈ luma img t) :
    Within img t c := by
  simp only [luma, memcpy, mem_flatMap, mem_map, mem_range] at hc
  obtain ⟨row, hrow, x, hx, rfl⟩ := hc
  have hx' := Nat.lt_min.mp hx
  exact within_luma (hh ▸ hrow) hx'.2 (hin.y row hrow x hx'.1)

theorem within_chromaCols (hh : img.height = t.height)
    (hc : c ∈ chromaCols img t) : Within img t c := by
  simp only [chromaCols, mem_flatMap, mem_range] at hc
  obtain ⟨row, hrow, col, hcol, hc⟩ := hc
  have hwidth : copyWidth img t ≤ img.width := Nat.min_le_left _ _
  have hstride : copyWidth img t ≤ dstStride t := Nat.min_le_right _ _
  have hcol' : col < img.width / 2 := by omega
  exact within_pair (hh ▸ hrow) (by omega) (hin.first hrow hcol') (hin.second hrow hcol') hc

theorem within_chromaRows (heven : img.width % 2 = 0)
    (hh : img.height = t.height) (hord : InOrder img t) (hc : c ∈ chromaRows img t) :
    Within img t c := by
  simp only [chromaRows, memcpy, mem_flatMap, mem_map, mem_range] at hc
  obtain ⟨row, hrow, j, hj, rfl⟩ := hc
  have hj' := Nat.lt_min.mp hj
  refine .inr ⟨row, hh ▸ hrow, j, hj'.2, rfl, ?_⟩
  obtain ⟨hpix, hnext⟩ := hord
  split_ifs with hpar
  · have hsample := hin.first (t := t) hrow (by omega : j / 2 < img.width / 2)
    rwa [hpix, show ((j / 2 : Nat) : Int) * 2 = j by omega] at hsample
  · have hsample := hin.second (t := t) hrow (by omega : j / 2 < img.width / 2)
    rwa [hpix, ← hnext, show first img t + 1 + row * img.uStride + ((j / 2 : Nat) : Int) * 2 =
      first img t + row * img.uStride + j by omega] at hsample

end

end Bounds

theorem range_pairs {α : Type*} (f : Nat → α) (n : Nat) :
    (List.range (n * 2)).map f = (List.range n).flatMap fun i => [f (i * 2), f (i * 2 + 1)] := by
  induction n with
  | zero => rfl
  | succ n ih =>
    rw [Nat.succ_mul, range_succ, range_succ, range_succ, flatMap_append, ← ih]
    simp

section Same
variable {img : Image} {t : Target}

theorem chromaRows_eq (hord : InOrder img t) (heven : copyWidth img t % 2 = 0) :
    chromaRows img t = chromaCols img t := by
  obtain ⟨hpix, hnext⟩ := hord
  rw [chromaRows, chromaCols]
  congr 1
  funext row
  rw [memcpy, show copyWidth img t = copyWidth img t / 2 * 2 by omega, range_pairs,
    Nat.mul_div_cancel _ (by omega : 0 < 2)]
  congr 1
  funext col
  simp only [pair, hpix, ← hnext, List.cons.injEq, Prod.mk.injEq, and_true, true_and]
  push_cast
  exact ⟨rfl, by ring⟩

theorem scaled_self {i n : Nat} (hi : i < n) : i * n / n = i := Nat.mul_div_cancel i (by omega)

theorem lumaScaled_eq (hw : img.width = t.width) (hh : img.height = t.height)
    (hwide : copyWidth img t = img.width) : lumaScaled img t = luma img t := by
  rw [lumaScaled, luma, hwide, hw, hh]
  refine flatMap_congr fun row hrow => map_congr_left fun x hx => ?_
  rw [scaled_self (mem_range.mp hrow), scaled_self (mem_range.mp hx)]

theorem chromaScaled_eq (hw : img.width = t.width) (hh : img.height = t.height)
    (hwide : copyWidth img t = img.width) : chromaScaled img t = chromaCols img t := by
  rw [chromaScaled, chromaCols, hwide, hw, hh]
  refine flatMap_congr fun row hrow => flatMap_congr fun col hcol => ?_
  simp only [scaled_self (mem_range.mp hrow), scaled_self (mem_range.mp hcol), ← add_assoc]

theorem copies_empty (img : Image) (t : Target) (h : img.width = 0 ∨ img.height = 0) :
    luma img t = [] ∧ chromaRows img t = [] ∧ chromaCols img t = [] := by
  obtain h | h := h <;> simp [luma, chromaRows, chromaCols, memcpy, copyWidth, h]

theorem deliver_same (hw : img.width = t.width) (hh : img.height = t.height) :
    deliverYuv img t =
      if Admits img t then some
        (luma img t ++ if InOrder img t then chromaRows img t else chromaCols img t) else none := by
  simp [deliverYuv, hw, hh]

theorem scaled_same (heven : img.width % 2 = 0 ∧ img.height % 2 = 0) (hw : img.width = t.width)
    (hh : img.height = t.height) (hwide : t.width ≤ t.stride) :
    (deliverYuvScaled img t).getD [] = (deliverYuv img t).getD [] := by
  rw [deliver_same hw hh]
  by_cases hsmall : img.width < 2 ∨ img.height < 2
  · obtain ⟨hl, hr, hc⟩ := copies_empty img t (by omega)
    rw [deliverYuvScaled, if_pos (.inr hsmall), hl, hr, hc, ite_self]
    split_ifs <;> rfl
  · have hcopy : copyWidth img t = img.width := by
      rw [copyWidth, dstStride]
      omega
    have hchroma : (if InOrder img t then chromaRows img t else chromaCols img t) = chromaCols img t := by
      split_ifs with hord
      exacts [chromaRows_eq hord (by omega), rfl]
    have hadmits : Admits img t ↔ ¬ (¬ Planes img ∨ img.width < 2 ∨ img.height < 2) ∧
        ¬ (¬ t.mapped ∨ t.stride < t.width ∨ t.size < neededBytes t) := by
      have hpos : 0 < t.stride := by omega
      simp only [Admits, hsmall, hpos, not_lt.mpr hwide, or_false, false_or, not_or, not_not, true_and, not_lt]
    rw [hchroma, ← lumaScaled_eq hw hh hcopy, ← chromaScaled_eq hw hh hcopy, deliverYuvScaled]
    by_cases hplanes : ¬ Planes img ∨ img.width < 2 ∨ img.height < 2 <;>
      by_cases hbuffer : ¬ t.mapped ∨ t.stride < t.width ∨ t.size < neededBytes t <;>
      simp only [hadmits, hplanes, hbuffer, if_true, if_false, not_true, not_false_eq_true,
        and_self, and_false, false_and]

end Same

theorem perform_const (b : UInt8) (copies : List Copy) (dst : Nat → UInt8) (o : Nat) :
    perform (fun _ => b) copies dst o = if o ∈ copies.map Prod.fst then b else dst o := by
  induction copies generalizing dst with
  | nil => simp [perform]
  | cons c copies ih =>
    refine (ih _).trans ?_
    by_cases hc : o = c.1 <;> by_cases ho : o ∈ copies.map Prod.fst <;> simp_all

section Odd
variable {img : Image} {t : Target}

theorem last_mem_chromaRows (hrows : 0 < img.height / 2) (hwidth : 0 < copyWidth img t) :
    lumaBytes t + (copyWidth img t - 1) ∈ (chromaRows img t).map Prod.fst := by
  simp only [chromaRows, memcpy, mem_map, mem_flatMap, mem_range]
  exact ⟨_, ⟨0, hrows, copyWidth img t - 1, by omega, rfl⟩, by simp⟩

theorem last_not_mem_chromaCols (hodd : copyWidth img t % 2 = 1) :
    lumaBytes t + (copyWidth img t - 1) ∉ (chromaCols img t).map Prod.fst := by
  have hstride : copyWidth img t ≤ dstStride t := Nat.min_le_right _ _
  simp only [chromaCols, pair, mem_map, mem_flatMap, mem_range, mem_cons, not_mem_nil, or_false]
  rintro ⟨c, ⟨row, -, col, hcol, hc⟩, heq⟩
  have hrow : row = 0 ∨ dstStride t ≤ row * dstStride t :=
    row.eq_zero_or_pos.imp_right (Nat.le_mul_of_pos_left _)
  obtain rfl | hrow := hrow <;> obtain rfl | rfl := hc <;> simp only [] at heq <;> omega

theorem rows_iff (hrows : 0 < img.height / 2) (hord : InOrder img t) :
    (∀ mem dst, perform mem (chromaRows img t) dst = perform mem (chromaCols img t) dst) ↔
      copyWidth img t % 2 = 0 := by
  constructor
  · intro hsame
    by_contra hodd
    have hbyte := congrFun (hsame (fun _ => 1) (fun _ => 0)) (lumaBytes t + (copyWidth img t - 1))
    rw [perform_const, perform_const, if_pos (last_mem_chromaRows hrows (by omega)),
      if_neg (last_not_mem_chromaCols (by omega))] at hbyte
    cases hbyte
  · intro heven mem dst
    rw [chromaRows_eq hord heven]

end Odd

/-- **The copies of a frame** are in bounds, the two functions agree, and so do the two ways to
write chroma exactly if no row ends within a pair. -/
theorem copies_agree_iff (img : Image) (t : Target) (heven : img.width % 2 = 0 ∧ img.height % 2 = 0)
    (hin : Contains img) : Agrees img t ↔ WholePairs img t := by
  constructor
  · intro h hw hh hadm hord hpos
    exact (rows_iff (by omega) hord).mp (h.rows hw hh hadm hord)
  · intro hwhole
    have hscaled : ∀ c ∈ (deliverYuvScaled img t).getD [], Within img t c := by
      intro c hc
      rw [deliverYuvScaled] at hc
      split_ifs at hc with hsmall hbuffer
      any_goals cases hc
      exact within_scaled hin (by omega) (by omega) (by omega) hc
    refine ⟨?_, fun hw hh hwide mem dst => by rw [scaled_same heven hw hh hwide], ?_⟩
    · intro hw hh hadm hord
      by_cases hpos : 0 < img.height
      · exact (rows_iff (by omega) hord).mpr (hwhole hw hh hadm hord hpos)
      · obtain ⟨-, hr, hc⟩ := copies_empty img t (.inr (by omega))
        simp [hr, hc]
    · suffices hyuv : ∀ c ∈ (deliverYuv img t).getD [], Within img t c by
        intro c hc
        have hwithin := hc.elim (hyuv c) (hscaled c)
        exact ⟨hwithin, hwithin.lt_needed⟩
      intro c hc
      by_cases hsize : img.width ≠ t.width ∨ img.height ≠ t.height
      · rw [deliverYuv, if_pos hsize] at hc
        exact hscaled c hc
      · rw [deliverYuv, if_neg hsize] at hc
        split_ifs at hc with hadm hord
        any_goals cases hc
        all_goals rw [Option.getD_some, mem_append] at hc
        · exact hc.elim (within_luma_rows hin (by omega)) (within_chromaRows hin heven.1 (by omega) hord)
        · exact hc.elim (within_luma_rows hin (by omega)) (within_chromaCols hin (by omega))

def frame : Image where
  width := 4
  height := 2
  y := 100
  u := 200
  v := 201
  yLen := 8
  uLen := 3
  vLen := 3
  yStride := 4
  uStride := 4
  uPixStride := 2

def narrow : Target where
  width := 4
  height := 2
  nv12 := true
  mapped := true
  stride := 3
  size := 9

theorem half_a_pair :
    Admits frame narrow ∧ InOrder frame narrow ∧
    perform (fun _ => 1) (chromaRows frame narrow) (fun _ => 0) 8 = 1 ∧
    perform (fun _ => 1) (chromaCols frame narrow) (fun _ => 0) 8 = 0 := by
  decide

theorem copies_agree_wide : Agrees frame { narrow with stride := 4, size := 12 } := by
  refine (copies_agree_iff _ _ (by decide) ⟨?_, ?_, ?_⟩).mpr (fun _ _ _ _ _ => by decide)
  all_goals
    intro row hrow col hcol
    simp only [frame] at hrow hcol ⊢
    exact ⟨by omega, by omega⟩

end OniroSoc.Camera.Frames

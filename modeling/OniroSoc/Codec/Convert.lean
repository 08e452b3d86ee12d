import Mathlib.Tactic

/-!
# Pictures in the codec's buffers

`Session::Convert` of the HEVC decoder copies the cropped planes of an output buffer into a picture,
and `HwEncoder::Queue` of the AVC encoder copies the planes of a frame into an input buffer.
-/

namespace OniroSoc.Codec.Convert

structure OutLayout where
  (color stride slice left top right bottom : Int)

/-- The output format: the integers that it has, and the crop rectangle. -/
structure Format where
  (color width height stride sliceHeight : Option Int)
  crop : Option (Int × Int × Int × Int)

inductive Stop where
  | rejected
  | undefined
deriving DecidableEq

abbrev Fits32 (i : Int) : Prop := -2 ^ 31 ≤ i ∧ i < 2 ^ 31

def readLayout (fmt : Format) : Option OutLayout :=
  let width := fmt.width.getD 0
  let height := fmt.height.getD 0
  let l : OutLayout :=
    { color := fmt.color.getD 19
      stride := (fmt.stride.filter (0 < ·)).getD width
      slice := (fmt.sliceHeight.filter (0 < ·)).getD height
      left := 0, top := 0, right := width - 1, bottom := height - 1 }
  if ¬(Fits32 (width - 1) ∧ Fits32 (height - 1)) then none
  else match fmt.crop with
  | some (left, top, right, bottom) =>
    some (if left ≤ right ∧ top ≤ bottom then { l with left, top, right, bottom } else l)
  | none => some l

/-- A sample is at `base + pitch * row + size * col + shift`. -/
structure Plane where
  base : Int := 0
  pitch : Int
  size : Int := 1
  shift : Int := 0
  rows : Int

def Plane.at (p : Plane) (col row : Int) : Int := p.base + p.pitch * row + p.size * col + p.shift

/-- Every sample that the copy of a rectangle reads is in the buffer. -/
abbrev Plane.Holds (p : Plane) (size left top w h : Int) : Prop :=
  ∀ row < h.toNat, ∀ col < w.toNat,
    0 ≤ p.at (left + col) (top + row) ∧ p.at (left + col) (top + row) < size

def Plane.Inside (p : Plane) (col row : Int) : Prop :=
  0 ≤ col ∧ p.size * (col + 1) ≤ p.pitch ∧ 0 ≤ row ∧ row < p.rows

namespace OutLayout
variable (l : OutLayout)

def width : Int := (l.right - l.left + 1) / 2 * 2

def height : Int := (l.bottom - l.top + 1) / 2 * 2

def bpp : Int := if l.color = 54 then 2 else 1

def luma : Plane := { pitch := l.stride, size := l.bpp, shift := l.bpp - 1, rows := l.slice }

def chroma : Option (Plane × Plane × Int) :=
  let lumaPlane := l.stride * l.slice
  if l.color = 19 ∨ l.color = 0x7F420888 then
    let chromaPlane := l.stride / 2 * (l.slice / 2)
    let u : Plane := { base := lumaPlane, pitch := l.stride / 2, rows := l.slice / 2 }
    some (u, { u with base := lumaPlane + chromaPlane }, lumaPlane + 2 * chromaPlane)
  else if l.color = 21 ∨ l.color = 54 then
    let u : Plane :=
      { base := lumaPlane, pitch := l.stride, size := 2 * l.bpp, shift := l.bpp - 1, rows := l.slice / 2 }
    some (u, { u with shift := 2 * l.bpp - 1 }, lumaPlane + l.stride * (l.slice / 2))
  else none

end OutLayout

structure Picture where
  (width height : Int)
  (y u v : Int → Int → UInt8)

def picture (src : Int → UInt8) (l : OutLayout) (pu pv : Plane) : Picture where
  width := l.width
  height := l.height
  y x y := src (l.luma.at (l.left + x) (l.top + y))
  u x y := src (pu.at (l.left.tdiv 2 + x) (l.top.tdiv 2 + y))
  v x y := src (pv.at (l.left.tdiv 2 + x) (l.top.tdiv 2 + y))

def convert (src : Int → UInt8) (size : Int) (l : OutLayout) : Except Stop Picture :=
  if ¬(Fits32 (l.right - l.left + 1) ∧ Fits32 (l.bottom - l.top + 1)) then .error .undefined
  else if ¬(0 < l.width ∧ 0 < l.height ∧ 0 < l.stride ∧ 0 < l.slice) then .error .rejected
  else if ¬Fits32 (l.top + l.height) then .error .undefined
  else if size < l.stride * (l.top + l.height) % 2 ^ 64 then .error .rejected
  else if ¬l.luma.Holds size l.left l.top l.width l.height then .error .undefined
  else match l.chroma with
  | none => .error .rejected
  | some (pu, pv, bytes) =>
    let cLeft := l.left.tdiv 2
    let cTop := l.top.tdiv 2
    if size < bytes then .error .rejected
    else if ¬(pu.Holds size cLeft cTop (l.width / 2) (l.height / 2) ∧
        pv.Holds size cLeft cTop (l.width / 2) (l.height / 2)) then .error .undefined
    else .ok (picture src l pu pv)

/-- The crop rectangle is in the planes. -/
def OutLayout.CropInside (l : OutLayout) : Prop :=
  0 ≤ l.left ∧ 0 ≤ l.top ∧ l.bpp * (l.left + l.width) ≤ l.stride ∧ l.top + l.height ≤ l.slice

/-- The sums are representable, the rows of luma that are copied are in the buffer, and the crop
rectangle of a picture that is not rejected is in the planes. -/
def Fits (size : Int) (l : OutLayout) : Prop :=
  (Fits32 (l.right - l.left + 1) ∧ Fits32 (l.bottom - l.top + 1)) ∧
    (0 < l.width ∧ 0 < l.height ∧ 0 < l.stride ∧ 0 < l.slice → Fits32 (l.top + l.height) ∧
      (l.stride * (l.top + l.height) % 2 ^ 64 ≤ size →
      l.luma.Holds size l.left l.top l.width l.height ∧
        ∀ pu pv bytes, l.chroma = some (pu, pv, bytes) → bytes ≤ size → l.CropInside))

variable {p pu pv : Plane} {l : OutLayout} {src : Int → UInt8} {size bytes : Int}

theorem Plane.at_bounds {col row : Int} (h : p.Inside col row) (hshift : 0 ≤ p.shift)
    (hlt : p.shift < p.size) :
    p.base ≤ p.at col row ∧ p.at col row < p.base + p.pitch * p.rows := by
  obtain ⟨hcol, hpitch, hrow, hrows⟩ := h
  have hpos : 0 ≤ p.size * (col + 1) := mul_nonneg (by omega) (by omega)
  have hrow' : p.pitch * (row + 1) ≤ p.pitch * p.rows := mul_le_mul_of_nonneg_left hrows (by omega)
  have hstart : 0 ≤ p.pitch * row := mul_nonneg (by omega) hrow
  have hoffset : 0 ≤ p.size * col := mul_nonneg (by omega) hcol
  rw [mul_add, mul_one] at hpitch hrow'
  rw [Plane.at]
  omega

theorem OutLayout.bpp_pos (l : OutLayout) : 0 < l.bpp := by
  rw [OutLayout.bpp]
  split_ifs <;> decide

section Chroma
variable (hc : l.chroma = some (pu, pv, bytes)) (hbytes : bytes ≤ size)
  (hpos : 0 < l.width ∧ 0 < l.height ∧ 0 < l.stride ∧ 0 < l.slice)
include hc hbytes hpos

theorem chroma_spec (hp : p = pu ∨ p = pv) : 0 ≤ p.base ∧ 0 ≤ p.shift ∧ p.shift < p.size ∧
    p.base + p.pitch * p.rows ≤ size ∧ p.rows = l.slice / 2 ∧
      ∀ col, l.bpp * (2 * col + 2) ≤ l.stride → p.size * (col + 1) ≤ p.pitch := by
  obtain ⟨-, -, hstride, hslice⟩ := hpos
  have hplane : 0 ≤ l.stride * l.slice := by positivity
  have hchroma : 0 ≤ l.stride / 2 * (l.slice / 2) := by positivity
  have hsemi : 0 ≤ l.stride * (l.slice / 2) := by positivity
  have hbpp := l.bpp_pos
  rw [OutLayout.chroma] at hc
  split_ifs at hc with hplanar hpacked <;> cases hc
  · have hone : l.bpp = 1 := by
      rw [OutLayout.bpp, if_neg]
      omega
    rcases hp with rfl | rfl <;> dsimp only <;> rw [hone] <;>
      exact ⟨by omega, by omega, by omega, by omega, rfl, by omega⟩
  · rcases hp with rfl | rfl <;> dsimp only <;>
      exact ⟨by omega, by omega, by omega, by omega, rfl, fun col hcol => by linarith⟩

variable (hin : l.CropInside)
include hin

theorem chroma_inside (hp : p = pu ∨ p = pv) {x y : Int} (hx : 0 ≤ x) (hxw : 2 * x < l.width)
    (hy : 0 ≤ y) (hyh : 2 * y < l.height) :
    p.Inside (l.left.tdiv 2 + x) (l.top.tdiv 2 + y) ∧
    0 ≤ p.at (l.left.tdiv 2 + x) (l.top.tdiv 2 + y) ∧
    p.at (l.left.tdiv 2 + x) (l.top.tdiv 2 + y) < size := by
  obtain ⟨hbase, hshift, hlt, hend, hrows, hpitch⟩ := chroma_spec hc hbytes hpos hp
  obtain ⟨hleft, htop, hright, hbottom⟩ := hin
  rw [Int.tdiv_eq_ediv_of_nonneg hleft, Int.tdiv_eq_ediv_of_nonneg htop]
  rw [OutLayout.width] at hxw hright
  rw [OutLayout.height] at hyh hbottom
  have hcol := mul_le_mul_of_nonneg_left (show 2 * (l.left / 2 + x) + 2 ≤
    l.left + (l.right - l.left + 1) / 2 * 2 by omega) l.bpp_pos.le
  have hin : p.Inside (l.left / 2 + x) (l.top / 2 + y) :=
    ⟨by omega, hpitch _ (hcol.trans hright), by omega, by omega⟩
  have hat := Plane.at_bounds hin hshift hlt
  exact ⟨hin, by omega⟩

theorem chroma_holds (hp : p = pu ∨ p = pv) :
    p.Holds size (l.left.tdiv 2) (l.top.tdiv 2) (l.width / 2) (l.height / 2) := by
  intro row hrow col hcol
  exact (chroma_inside hc hbytes hpos hin hp (by omega) (by omega) (by omega) (by omega)).2

theorem convert_eq (hsum : Fits32 (l.right - l.left + 1) ∧ Fits32 (l.bottom - l.top + 1))
    (htop : Fits32 (l.top + l.height)) (hsize : l.stride * (l.top + l.height) % 2 ^ 64 ≤ size)
    (hluma : l.luma.Holds size l.left l.top l.width l.height) :
    convert src size l = .ok (picture src l pu pv) := by
  have hu := chroma_holds hc hbytes hpos hin (.inl rfl)
  have hv := chroma_holds hc hbytes hpos hin (.inr rfl)
  rw [convert, if_neg (not_not.mpr hsum), if_neg (not_not.mpr hpos), if_neg (not_not.mpr htop),
    if_neg (not_lt.mpr hsize), if_neg (not_not.mpr hluma), hc]
  dsimp only
  rw [if_neg (not_lt.mpr hbytes), if_neg (not_not.mpr ⟨hu, hv⟩)]

end Chroma

structure Frame where
  (width height : Int)
  plane : Fin 3 → Int → UInt8
  stride : Fin 3 → Int

namespace Frame

def planes (stride slice : Int) (k : Fin 3) : Plane where
  base := ![0, stride * slice, stride * slice + stride / 2 * (slice / 2)] k
  pitch := if k = 0 then stride else stride / 2
  rows := if k = 0 then slice else slice / 2

variable (f : Frame) (stride slice : Int)

def cols (k : Fin 3) : Int := if k = 0 then f.width else (f.width + 1) / 2

/-- The rows in the order in which `Queue` copies them. -/
def rows : List (Fin 3 × Nat) := (List.range f.height.toNat).map (0, ·) ++
  (List.range ((f.height + 1) / 2).toNat).flatMap fun y => [(1, y), (2, y)]

abbrev Covers (row : Fin 3 × Nat) (i : Int) : Prop :=
  (planes stride slice row.1).at 0 row.2 ≤ i ∧ i < (planes stride slice row.1).at 0 row.2 +
    f.cols row.1

def memcpy (dst : Int → UInt8) (row : Fin 3 × Nat) : Int → UInt8 := fun i =>
  if f.Covers stride slice row i then
    f.plane row.1 (row.2 * f.stride row.1 + (i - (planes stride slice row.1).at 0 row.2))
  else dst i

def need : Int := stride * slice * 3 / 2

def queue (cap : Int) (dst : Int → UInt8) : Option (Int → UInt8) :=
  if cap < need stride slice then none else some (f.rows.foldl (f.memcpy stride slice) dst)

/-- The format that the decoder gets: planar, with the crop rectangle of the frame. -/
def layout : OutLayout := ⟨19, stride, slice, 0, 0, f.width - 1, f.height - 1⟩

structure Packs : Prop where
  even : f.width % 2 = 0 ∧ f.height % 2 = 0
  least : 16 ≤ f.width ∧ 16 ≤ f.height
  padded : f.width ≤ stride ∧ f.height ≤ slice
  int32 : stride < 2 ^ 31 ∧ slice < 2 ^ 31

variable {f stride slice} {k k' : Fin 3} {row : Fin 3 × Nat} {x y x' y' i : Int}

theorem planes_at : (planes stride slice k).at x y = (planes stride slice k).at 0 y + x := by
  simp [Plane.at, planes]

theorem foldl_memcpy {rows : List (Fin 3 × Nat)} {dst : Int → UInt8} {byte : UInt8}
    (hagree : ∀ row ∈ rows, f.Covers stride slice row i → f.memcpy stride slice dst row i = byte)
    (hsome : dst i = byte ∨ ∃ row ∈ rows, f.Covers stride slice row i) :
    rows.foldl (f.memcpy stride slice) dst i = byte := by
  induction rows generalizing dst with
  | nil => simpa using hsome
  | cons row rows ih =>
    refine ih (fun row' hrow' hcovers => ?_) ?_
    · have hbyte := hagree row' (.tail _ hrow') hcovers
      rw [memcpy, if_pos hcovers] at hbyte ⊢
      exact hbyte
    · by_cases hcovers : f.Covers stride slice row i
      · exact .inl (hagree row (.head _) hcovers)
      · rw [memcpy, if_neg hcovers]
        refine hsome.imp_right ?_
        rintro ⟨row', hrow', hcovers'⟩
        rcases List.mem_cons.mp hrow' with rfl | hrow'
        · exact absurd hcovers' hcovers
        · exact ⟨row', hrow', hcovers'⟩

section
variable (h : f.Packs stride slice)
include h

theorem base_bounds (k : Fin 3) :
    0 ≤ (planes stride slice k).base ∧
    (planes stride slice k).base + (planes stride slice k).pitch * (planes stride slice k).rows ≤
      need stride slice := by
  obtain ⟨-, hleast, hpadded, -⟩ := h
  have hpos : 0 ≤ stride / 2 * (slice / 2) := mul_nonneg (by omega) (by omega)
  have hchroma : 4 * (stride / 2 * (slice / 2)) ≤ stride * slice :=
    calc 4 * (stride / 2 * (slice / 2)) = 2 * (stride / 2) * (2 * (slice / 2)) := by ring
      _ ≤ stride * slice := mul_le_mul (by omega) (by omega) (by omega) (by omega)
  rw [need]
  fin_cases k <;> simp [planes] <;> omega

theorem at_inj (hxy : (planes stride slice k).Inside x y)
    (hxy' : (planes stride slice k').Inside x' y')
    (heq : (planes stride slice k).at x y = (planes stride slice k').at x' y') :
    k = k' ∧ x = x' ∧ y = y' := by
  have hat := Plane.at_bounds hxy le_rfl Int.zero_lt_one
  have hat' := Plane.at_bounds hxy' le_rfl Int.zero_lt_one
  obtain ⟨-, hleast, hpadded, -⟩ := h
  have hpos : 0 ≤ stride / 2 * (slice / 2) := mul_nonneg (by omega) (by omega)
  rw [heq] at hat
  have hk : k = k' := by
    fin_cases k <;> fin_cases k' <;> simp [planes] at hat hat' ⊢ <;> omega
  subst hk
  have hrow : ∀ {x y}, (planes stride slice k).Inside x y →
    ((planes stride slice k).pitch * y + x) /
      (planes stride slice k).pitch = y := by
    rintro x y ⟨hx, hxw, -⟩
    have hlt : x < (planes stride slice k).pitch := by simpa [planes, Int.add_one_le_iff] using hxw
    rw [add_comm, Int.add_mul_ediv_left _ _ (by omega), Int.ediv_eq_zero_of_lt hx hlt, zero_add]
  have hsum : (planes stride slice k).pitch * y + x = (planes stride slice k).pitch * y' + x' := by
    simpa [planes, Plane.at, add_assoc] using heq
  have hy : y = y' := by rw [← hrow hxy, hsum, hrow hxy']
  rw [hy] at hsum
  exact ⟨rfl, add_left_cancel hsum, hy⟩

theorem rows_inside (hrow : row ∈ f.rows) (hx : 0 ≤ x) (hxw : x < f.cols row.1) :
    (planes stride slice row.1).Inside x row.2 := by
  obtain ⟨heven, hleast, hpadded, -⟩ := h
  simp only [rows, List.mem_append, List.mem_map, List.mem_flatMap, List.mem_range, List.mem_cons,
    List.not_mem_nil, or_false] at hrow
  obtain ⟨y, hy, rfl⟩ | ⟨y, hy, rfl | rfl⟩ :=
    hrow <;> simp [cols, planes, Plane.Inside] at hxw ⊢ <;>
    omega

theorem queue_at {dst : Int → UInt8} (hrow : row ∈ f.rows) (hx : 0 ≤ x) (hxw : x < f.cols row.1) :
    f.rows.foldl (f.memcpy stride slice) dst ((planes stride slice row.1).at x row.2) =
      f.plane row.1 (row.2 * f.stride row.1 + x) := by
  refine foldl_memcpy (fun r hr hcovers => ?_) (.inr ⟨row, hrow, ?_⟩)
  · have hinside := rows_inside h hr
      (x := (planes stride slice row.1).at x row.2 - (planes stride slice r.1).at 0 r.2) (by omega)
      (by omega)
    obtain ⟨hk, hx', hy⟩ := at_inj h hinside (rows_inside h hrow hx hxw) (by rw [planes_at]; ring)
    rw [memcpy, if_pos hcovers, hx', hk, Int.ofNat.inj hy]
  · have hat : (planes stride slice row.1).at x row.2 = _ := planes_at
    rw [Covers, hat]
    omega

theorem layout_size :
    (f.layout stride slice).width = f.width ∧ (f.layout stride slice).height = f.height := by
  obtain ⟨heven, -⟩ := h
  simp only [OutLayout.width, OutLayout.height, layout]
  omega

theorem convert_layout (buf : Int → UInt8) :
    convert buf (need stride slice) (f.layout stride slice) =
      .ok
        (picture buf (f.layout stride slice) (planes stride slice 1) (planes stride slice 2)) := by
  obtain ⟨hw, hh⟩ := layout_size h
  have hc : (f.layout stride slice).chroma = some (planes stride slice 1, planes stride slice 2,
    stride * slice + 2 * (stride / 2 * (slice / 2))) := rfl
  have hluma : (f.layout stride slice).luma = planes stride slice 0 := rfl
  have hend := (base_bounds h 0).2
  have hbytes : stride * slice + 2 * (stride / 2 * (slice / 2)) ≤ need stride slice := by
    have := (base_bounds h 2).2
    simp [planes] at this
    omega
  obtain ⟨-, hleast, hpadded, hint⟩ := h
  have hlast : (planes stride slice 0).Inside (f.width - 1) (f.height - 1) := by
    simp [Plane.Inside, planes]
    omega
  have hat := Plane.at_bounds hlast le_rfl Int.zero_lt_one
  have hsize : stride * f.height ≤ stride * slice := mul_le_mul_of_nonneg_left hpadded.2 (by omega)
  have hmod : stride * f.height % 2 ^ 64 = stride * f.height :=
    Int.emod_eq_of_lt (mul_nonneg (by omega) (by omega)) (by nlinarith)
  refine convert_eq hc hbytes (hw.symm ▸ hh.symm ▸ ?_) ⟨le_rfl, le_rfl, ?_, ?_⟩ ?_ ?_ ?_ ?_
  · exact (by omega : 0 < f.width ∧ 0 < f.height ∧ 0 < stride ∧ 0 < slice)
  · exact hw ▸ (by omega : 1 * (0 + f.width) ≤ stride)
  · exact hh ▸ (by omega : 0 + f.height ≤ slice)
  · exact (by omega : Fits32 (f.width - 1 - 0 + 1) ∧ Fits32 (f.height - 1 - 0 + 1))
  · exact hh ▸ (by omega : Fits32 (0 + f.height))
  · rw [hh]
    simp [planes] at hend
    simp only [layout, zero_add, hmod]
    omega
  · intro row hrow col hcol
    rw [hw] at hcol
    rw [hh] at hrow
    have hin : (planes stride slice 0).Inside (0 + col) (0 + row) := by
      simp [Plane.Inside, planes]
      omega
    have hat := Plane.at_bounds hin le_rfl Int.zero_lt_one
    exact ⟨hat.1, lt_of_lt_of_le hat.2 hend⟩

end

/-- **Packing and unpacking.** The rows of a frame are written inside the bytes that the encoder
gets, those of two planes do not overlap, and the decoder's conversion gives the samples of the
frame back. -/
theorem queue_convert {cap : Int} (dst : Int → UInt8) (h : f.Packs stride slice)
    (hcap : need stride slice ≤ cap) :
    (∀ row ∈ f.rows, ∀ i, f.Covers stride slice row i →
      0 ≤ i ∧ i < need stride slice ∧
      ∀ row' ∈ f.rows, f.Covers stride slice row' i → row'.1 = row.1) ∧
    ∃ buf pic, f.queue stride slice cap dst = some buf ∧
      convert buf (need stride slice) (f.layout stride slice) = .ok pic ∧
      pic.width = f.width ∧ pic.height = f.height ∧
      (∀ x y : Nat, x < f.width → y < f.height → pic.y x y = f.plane 0 (y * f.stride 0 + x)) ∧
      ∀ x y : Nat, 2 * x < f.width → 2 * y < f.height →
        pic.u x y = f.plane 1 (y * f.stride 1 + x) ∧
        pic.v x y = f.plane 2 (y * f.stride 2 + x) := by
  obtain ⟨heven, -⟩ := id h
  refine ⟨fun row hrow i hi => ?_, _, _, if_neg (not_lt.mpr hcap), convert_layout h _,
    (layout_size h).1, (layout_size h).2, fun x y hx hy => ?_, fun x y hx hy => ?_⟩
  · have hin : ∀ {row}, row ∈ f.rows → f.Covers stride slice row i →
      (planes stride slice row.1).Inside
        (i - (planes stride slice row.1).at 0 row.2) row.2 ∧ (planes stride slice row.1).at
          (i - (planes stride slice row.1).at 0 row.2) row.2 = i :=
      fun hrow hi => ⟨rows_inside h hrow (by omega) (by omega), by rw [planes_at]; ring⟩
    obtain ⟨hinside, heq⟩ := hin hrow hi
    have hat := Plane.at_bounds hinside le_rfl Int.zero_lt_one
    have hbase := base_bounds h row.1
    rw [heq] at hat
    refine ⟨by omega, by omega, fun row' hrow' hi' => ?_⟩
    obtain ⟨hinside', heq'⟩ := hin hrow' hi'
    exact (at_inj h hinside' hinside (heq'.trans heq.symm)).1
  · have hrow : (0, y) ∈ f.rows := by simp [rows]; omega
    have hluma : (f.layout stride slice).luma = planes stride slice 0 := rfl
    rw [picture, hluma]
    simpa [layout] using queue_at h hrow (x := x) (by omega) (by simp [cols]; omega)
  · have hu : (1, y) ∈ f.rows := by simp [rows]; omega
    have hv : (2, y) ∈ f.rows := by simp [rows]; omega
    constructor
    · simpa [picture, layout] using queue_at h hu (x := x) (by omega) (by simp [cols]; omega)
    · simpa [picture, layout] using queue_at h hv (x := x) (by omega) (by simp [cols]; omega)

theorem queue_convert_oddPadding :
    ∃ buf pic,
      (⟨16, 16, fun _ _ => 7, fun _ => 16⟩ : Frame).queue 17 19 485 (fun _ => 0) = some buf ∧
      convert buf 484 ⟨19, 17, 19, 0, 0, 15, 15⟩ = .ok pic ∧
      pic.y 3 5 = 7 := by
  have hpacks : (⟨16, 16, fun _ _ => 7, fun _ => 16⟩ : Frame).Packs 17 19 :=
    ⟨by decide, by decide, by decide, by decide⟩
  obtain ⟨-, buf, pic, hqueue, hconvert, -, -, hluma, -⟩ :=
    queue_convert (fun _ => 0) hpacks (by decide : need 17 19 ≤ 485)
  exact ⟨buf, pic, hqueue, hconvert, hluma 3 5 (by decide) (by decide)⟩

end Frame

end OniroSoc.Codec.Convert

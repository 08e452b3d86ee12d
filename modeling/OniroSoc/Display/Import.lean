import Mathlib.Tactic

/-!
# Importing a container's buffer

`BuildBufferHandle` of the Waydroid compositor wraps an Android gralloc handle into a
`BufferHandle`. `wlegl_import.cpp` and `display_common.h` have their own tables of pixel formats.
-/

namespace OniroSoc.Display.Import

structure NativeHandle where
  (fds ints : List Int32)

structure BufferHandle where
  (fd width stride height size format : Int32)
  usage : UInt64
  virAddr : Option Nat
  phyAddr : UInt64
  (reserveFds reserveInts : List Int32)

def hybrisBytesPerPixelOhos (ohosFormat : UInt32) : UInt32 :=
  match ohosFormat with
  | 3 => 2   -- RGB_565
  | 11 => 4  -- RGBX_8888
  | 12 => 4  -- RGBA_8888
  | 13 => 3  -- RGB_888
  | 14 => 2  -- BGR_565
  | 19 => 4  -- BGRX_8888
  | 20 => 4  -- BGRA_8888
  | _ => 0

def withChroma {α : Type} [Add α] [Mul α] [Div α] [OfNat α 2] (ohosFormat : UInt32)
    (luma : α) : α :=
  match ohosFormat with
  | 24 | 25 | 28 | 29 => luma + luma / 2  -- NV12, NV21, I420, YV12
  | 35 | 36 => luma + luma / 2            -- YCBCR_P010, YCRCB_P010
  | 22 | 23 | 26 | 27 => luma * 2         -- the 4:2:2 formats
  | _ => luma

def hybrisBufferBytesOhos (ohosFormat byteStride height : UInt32) : UInt32 :=
  withChroma ohosFormat (byteStride * height)

def pixelStride (buffer : BufferHandle) : Int32 :=
  let bpp := hybrisBytesPerPixelOhos buffer.format.toUInt32
  if 0 < bpp then buffer.stride / bpp.toInt32 else buffer.stride

structure WleglBufferDesc where
  (width height stride format : Int32 := 0)
  usage : Int64 := 0

structure System where
  malloc : Bool
  dup : Nat → Option Int32
  fstat : Int32 → Option Int64

inductive Failure where
  | null (closed : List Int32)
  | undefined

def bytesPerPixel (ohosFormat : Int32) : UInt32 :=
  match ohosFormat with
  | 9 | 8 | 12 => 4  -- RGBA_8888, RGBX_8888, BGRA_8888
  | 13 => 3          -- RGB_888
  | 3 => 2           -- RGB_565
  | _ => 1

def largestFdBytes (sys : System) (nh : NativeHandle) : Int64 :=
  nh.fds.foldl (fun largest fd =>
    match sys.fstat fd with
    | some size => if largest < size then size else largest
    | none => largest) 0

def androidFormatToOhos (androidFormat : Int32) : Int32 :=
  match androidFormat with
  | 1 => 9            -- RGBA_8888
  | 2 => 8            -- RGBX_8888
  | 3 => 13           -- RGB_888
  | 4 => 3            -- RGB_565
  | 5 => 12           -- BGRA_8888
  | 0x32315659 => 37  -- YV12, as YCRCB_420_P
  | 0x11 => 35        -- YCRCB_420_SP
  | 0x23 => 34        -- YCBCR_420_888, as YCBCR_420_SP
  | _ => 0

def int32 (x : Int) : Except Failure Int32 :=
  if -2 ^ 31 ≤ x ∧ x < 2 ^ 31 then .ok (Int32.ofInt x) else .error .undefined

def int64 (x : Int) : Except Failure Int :=
  if -2 ^ 63 ≤ x ∧ x < 2 ^ 63 then .ok x else .error .undefined

def dupAll (sys : System) (i : Nat) (done : List Int32) : List Int32 → Except Failure (List Int32)
  | [] => .ok done
  | _ :: fds =>
    match sys.dup i with
    | some fd => dupAll sys (i + 1) (done ++ [fd]) fds
    | none => .error (.null done)

def isYuv420 (ohosFormat : Int32) : Bool := ohosFormat = 37 || ohosFormat = 35 || ohosFormat = 34

def logicalBytes (ohosFormat byteStride height : Int32) : Except Failure Int := do
  let luma ← int64 (byteStride.toInt * height.toInt)
  if isYuv420 ohosFormat then
    let tripled ← int64 (luma * 3)
    return tripled.tdiv 2
  return luma

def describe (sys : System) (nh : NativeHandle) (desc : WleglBufferDesc) (byteStride : Int32)
    (fds : List Int32) (logical : Int) : BufferHandle :=
  let allocated := (largestFdBytes sys nh).toInt
  { fd := fds.headD 0
    width := desc.width
    stride := byteStride
    height := desc.height
    -- The cast to 32 bits wraps.
    size := Int32.ofInt (if 0 < allocated ∧ allocated < logical then allocated else logical)
    format := androidFormatToOhos desc.format
    usage := desc.usage.toUInt64
    virAddr := none
    phyAddr := 0
    reserveFds := fds.tail
    -- The four trailing slots are zero.
    reserveInts := nh.ints ++ [0, 0, 0, 0] }

def buildBufferHandle (sys : System) (handle : Option NativeHandle) (desc : WleglBufferDesc) :
    Except Failure BufferHandle := do
  let some nh := handle | throw (.null [])
  if nh.fds = [] then throw (.null [])
  let ohosFormat := androidFormatToOhos desc.format
  if ohosFormat = 0 then throw (.null [])
  if !sys.malloc then throw (.null [])
  let byteStride ← int32 (desc.stride.toInt * (bytesPerPixel ohosFormat).toNat)
  let fds ← dupAll sys 0 [] nh.fds
  let logical ← logicalBytes ohosFormat byteStride desc.height
  return describe sys nh desc byteStride fds logical

structure Accepts (sys : System) (nh : NativeHandle) (desc : WleglBufferDesc) : Prop where
  fds : nh.fds ≠ []
  format : androidFormatToOhos desc.format ≠ 0
  malloc : sys.malloc = true
  dup : ∀ i < nh.fds.length, (sys.dup i).isSome

structure Positive (desc : WleglBufferDesc) : Prop where
  width : 0 < desc.width.toInt
  height : 0 < desc.height.toInt
  stride : 0 < desc.stride.toInt

structure LayoutAgrees (sys : System) (nh : NativeHandle) (desc : WleglBufferDesc)
    (buffer : BufferHandle) : Prop where
  stride : buffer.stride.toInt =
    if hybrisBytesPerPixelOhos buffer.format.toUInt32 = 0 then desc.stride.toInt
    else desc.stride.toInt * (hybrisBytesPerPixelOhos buffer.format.toUInt32).toNat
  size : buffer.size.toInt = min (largestFdBytes sys nh).toInt
    (withChroma buffer.format.toUInt32 (buffer.stride.toInt * buffer.height.toInt))
  pixels : pixelStride buffer = desc.stride

/-- The size is right for a buffer of that many bytes: some descriptor has a size, and the smaller
of the two is below 2^31.  Without a size of a descriptor, the cast has to make the bytes 0. -/
def SizeFits (largest bytes : Int) : Prop :=
  0 < largest ∧ min largest bytes < 2 ^ 31 ∨ largest = 0 ∧ bytes % 2 ^ 32 = 0

/-- The condition on what the client declares and the descriptors' sizes. -/
def Agreeing (largest : Int) (desc : WleglBufferDesc) : Prop :=
  let stride := desc.stride.toInt
  let height := desc.height.toInt
  match desc.format with
  | 3 => stride * 3 < 2 ^ 31 ∧ SizeFits largest (stride * 3 * height)  -- RGB_888
  | 4 => stride * 2 < 2 ^ 31 ∧ SizeFits largest (stride * 2 * height)  -- RGB_565
  | 5 => stride * 4 < 2 ^ 31 ∧ SizeFits largest (stride * 4 * height)  -- BGRA_8888
  -- YCRCB_420_SP
  | 0x11 => stride * height * 3 < 2 ^ 63 ∧ SizeFits largest (stride * height * 3 / 2)
  -- YV12 and YCBCR_420_888: the descriptors have no room for the chroma.
  | 0x32315659 | 0x23 => stride * height * 3 < 2 ^ 63 ∧ SizeFits largest (stride * height * 3 / 2) ∧
      (largest ≤ stride * height ∨ stride * height = 1)
  -- RGBA_8888 and RGBX_8888
  | _ => False

section Building
variable {sys : System} {nh : NativeHandle} {desc : WleglBufferDesc}

theorem dupAll_ok (fds : List Int32) (i : Nat) (done : List Int32)
    (h : ∀ j < fds.length, (sys.dup (i + j)).isSome) : ∃ all, dupAll sys i done fds = .ok all := by
  induction fds generalizing i done with
  | nil => exact ⟨done, rfl⟩
  | cons fd fds ih =>
    obtain ⟨new, hnew⟩ := Option.isSome_iff_exists.mp (h 0 (Nat.succ_pos _))
    obtain ⟨all, hall⟩ := ih (i + 1) (done ++ [new]) fun j hj => by
      rw [Nat.add_right_comm]
      exact h (j + 1) (Nat.succ_lt_succ hj)
    refine ⟨all, ?_⟩
    rw [dupAll, show sys.dup i = some new from hnew]
    exact hall

theorem dup_of_dupAll_ok {fds all : List Int32} {i : Nat} {done : List Int32}
    (h : dupAll sys i done fds = .ok all) (j : Nat) (hj : j < fds.length) :
    (sys.dup (i + j)).isSome := by
  induction fds generalizing i done j with
  | nil => exact absurd hj (Nat.not_lt_zero j)
  | cons fd fds ih =>
    rw [dupAll] at h
    cases hdup : sys.dup i with
    | none =>
      rw [hdup] at h
      cases h
    | some new =>
      rw [hdup] at h
      cases j with
      | zero => exact Option.isSome_iff_exists.mpr ⟨new, hdup⟩
      | succ j =>
        have hrest := ih h j (Nat.lt_of_succ_lt_succ hj)
        rwa [Nat.add_right_comm] at hrest

variable {buffer : BufferHandle}

theorem accepts_of_built {handle : Option NativeHandle}
    (h : buildBufferHandle sys handle desc = .ok buffer) :
    ∃ nh, handle = some nh ∧ Accepts sys nh desc := by
  cases handle with
  | none => cases h
  | some nh =>
    rw [buildBufferHandle] at h
    dsimp only at h
    by_cases hfds : nh.fds = []
    · rw [if_pos hfds] at h
      cases h
    by_cases hformat : androidFormatToOhos desc.format = 0
    · rw [if_neg hfds, if_pos hformat] at h
      cases h
    cases hmalloc : sys.malloc with
    | false =>
      rw [if_neg hfds, if_neg hformat, hmalloc] at h
      cases h
    | true =>
      rw [if_neg hfds, if_neg hformat, hmalloc] at h
      cases hstride : int32 (desc.stride.toInt * (bytesPerPixel (androidFormatToOhos desc.format)).toNat) with
      | error =>
        rw [hstride] at h
        cases h
      | ok byteStride =>
        rw [hstride] at h
        cases hall : dupAll sys 0 [] nh.fds with
        | error =>
          simp only [bind, Except.bind, hall] at h
          cases h
        | ok all =>
          exact ⟨nh, rfl, hfds, hformat, hmalloc, fun i hi =>
            Nat.zero_add i ▸ dup_of_dupAll_ok hall i hi⟩

theorem int32_ok {x : Int} (h : -2 ^ 31 ≤ x ∧ x < 2 ^ 31) : int32 x = .ok (Int32.ofInt x) := if_pos h

theorem int64_ok {x : Int} (h : -2 ^ 63 ≤ x ∧ x < 2 ^ 63) : int64 x = .ok x := if_pos h

theorem logicalBytes_eq (ohosFormat : Int32) {byteStride height : Int32}
    (hstride : 0 < byteStride.toInt) (hheight : 0 < height.toInt) :
    logicalBytes ohosFormat byteStride height =
      if isYuv420 ohosFormat then if byteStride.toInt * height.toInt * 3 < 2 ^ 63 then .ok
        (byteStride.toInt * height.toInt * 3 / 2) else .error .undefined else .ok
        (byteStride.toInt * height.toInt) := by
  have hluma : 0 < byteStride.toInt * height.toInt := Int.mul_pos hstride hheight
  have hbound : byteStride.toInt * height.toInt < 2 ^ 31 * 2 ^ 31 :=
    mul_lt_mul'' byteStride.toInt_lt height.toInt_lt hstride.le hheight.le
  rw [logicalBytes, int64_ok ⟨by omega, by omega⟩]
  cases isYuv420 ohosFormat with
  | false => rfl
  | true =>
    by_cases hfits : byteStride.toInt * height.toInt * 3 < 2 ^ 63
    · show (int64 (byteStride.toInt * height.toInt * 3) >>= fun tripled => pure (tripled.tdiv 2)) = _
      rw [int64_ok ⟨by omega, hfits⟩, if_pos rfl, if_pos hfits]
      exact congrArg Except.ok (Int.tdiv_eq_ediv_of_nonneg (by omega))
    · show (int64 (byteStride.toInt * height.toInt * 3) >>= fun tripled => pure (tripled.tdiv 2)) = _
      rw [int64, if_neg (fun h => hfits h.2), if_pos rfl, if_neg hfits]
      rfl

def importedStride (desc : WleglBufferDesc) : Int :=
  desc.stride.toInt * (bytesPerPixel (androidFormatToOhos desc.format)).toNat

def importedBytes (desc : WleglBufferDesc) : Int :=
  if isYuv420 (androidFormatToOhos desc.format) then importedStride desc * desc.height.toInt * 3 / 2
  else importedStride desc * desc.height.toInt

def Bounded (desc : WleglBufferDesc) : Prop :=
  importedStride desc < 2 ^ 31 ∧
    (isYuv420 (androidFormatToOhos desc.format) = true →
    importedStride desc * desc.height.toInt * 3 < 2 ^ 63)

theorem importedStride_pos (hpos : Positive desc) : 0 < importedStride desc := by
  refine Int.mul_pos hpos.stride ?_
  unfold bytesPerPixel
  split <;> decide

theorem importedStride_toInt (hpos : Positive desc) (h : importedStride desc < 2 ^ 31) :
    (Int32.ofInt (importedStride desc)).toInt = importedStride desc := by
  have hstride := importedStride_pos hpos
  exact Int32.toInt_ofInt_of_le (by omega) h

theorem buildBufferHandle_accepted (haccepts : Accepts sys nh desc) :
    ∃ fds, dupAll sys 0 [] nh.fds = .ok fds ∧ buildBufferHandle sys (some nh) desc = do
      let byteStride ← int32 (importedStride desc)
      let logical ← logicalBytes (androidFormatToOhos desc.format) byteStride desc.height
      return describe sys nh desc byteStride fds logical := by
  obtain ⟨fds, hfds⟩ := dupAll_ok nh.fds 0 [] fun i hi => by
    rw [Nat.zero_add]
    exact haccepts.dup i hi
  refine ⟨fds, hfds, ?_⟩
  have hmalloc : (!sys.malloc) = false := by rw [haccepts.malloc]; rfl
  simp only [buildBufferHandle, if_neg haccepts.fds, if_neg haccepts.format, hmalloc, hfds]
  rfl

theorem built (haccepts : Accepts sys nh desc) (hpos : Positive desc) (h : Bounded desc) :
    ∃ fds, buildBufferHandle sys (some nh) desc =
      .ok (describe sys nh desc (Int32.ofInt (importedStride desc)) fds (importedBytes desc)) := by
  obtain ⟨fds, -, heq⟩ := buildBufferHandle_accepted haccepts
  have hstride := importedStride_pos hpos
  have htoInt := importedStride_toInt hpos h.1
  refine ⟨fds, heq.trans ?_⟩
  rw [int32_ok ⟨by omega, h.1⟩]
  show (logicalBytes _ (Int32.ofInt (importedStride desc)) _ >>= _) = _
  rw [logicalBytes_eq _ (htoInt.symm ▸ hstride) hpos.height, htoInt, importedBytes]
  cases hyuv : isYuv420 (androidFormatToOhos desc.format) with
  | false => rfl
  | true =>
    rw [if_pos rfl, if_pos (h.2 hyuv), if_pos rfl]
    rfl

theorem bounded_of_built (haccepts : Accepts sys nh desc) (hpos : Positive desc)
    (h : buildBufferHandle sys (some nh) desc = .ok buffer) : Bounded desc := by
  obtain ⟨fds, -, heq⟩ := buildBufferHandle_accepted haccepts
  have hstride := importedStride_pos hpos
  rw [heq] at h
  by_cases hbound : importedStride desc < 2 ^ 31
  · refine ⟨hbound, fun hyuv => ?_⟩
    have htoInt := importedStride_toInt hpos hbound
    rw [int32_ok ⟨by omega, hbound⟩] at h
    by_contra htriple
    have herror :=
      logicalBytes_eq (androidFormatToOhos desc.format) (htoInt.symm ▸ hstride) hpos.height
    rw [htoInt, if_pos hyuv, if_neg htriple] at herror
    simp only [bind, Except.bind, herror] at h
    cases h
  · rw [int32, if_neg fun hbounds => hbound hbounds.2] at h
    cases h

theorem largestFdBytes_nonneg (sys : System) (nh : NativeHandle) :
    0 ≤ (largestFdBytes sys nh).toInt := by
  have hfold : ∀ (fds : List Int32) (largest : Int64), 0 ≤ largest.toInt →
        0 ≤ (fds.foldl (fun largest fd => match sys.fstat fd with
        | some size => if largest < size then size else largest
        | none => largest) largest).toInt := by
    intro fds
    induction fds with
    | nil => exact fun largest h => h
    | cons fd fds ih =>
      intro largest h
      refine ih _ ?_
      dsimp only
      cases sys.fstat fd with
      | none => exact h
      | some size =>
        dsimp only
        by_cases hlt : largest < size
        · rw [if_pos hlt]
          exact h.trans (Int64.lt_iff_toInt_lt.mp hlt).le
        · rw [if_neg hlt]
          exact h
  exact hfold nh.fds 0 (le_refl 0)

theorem pixelStride_eq (hpos : 0 < desc.stride.toInt)
    (h : buffer.stride.toInt =
      if hybrisBytesPerPixelOhos buffer.format.toUInt32 = 0 then desc.stride.toInt else
        desc.stride.toInt * (hybrisBytesPerPixelOhos buffer.format.toUInt32).toNat) :
    pixelStride buffer = desc.stride := by
  have hsmall : (hybrisBytesPerPixelOhos buffer.format.toUInt32).toInt32.toInt =
      (hybrisBytesPerPixelOhos buffer.format.toUInt32).toNat := by
    unfold hybrisBytesPerPixelOhos
    split <;> rfl
  rw [pixelStride]
  by_cases hzero : hybrisBytesPerPixelOhos buffer.format.toUInt32 = 0
  · rw [if_pos hzero] at h
    rw [hzero]
    exact Int32.toInt_inj.mp h
  · have hne : (hybrisBytesPerPixelOhos buffer.format.toUInt32).toNat ≠ 0 := fun h =>
      hzero (UInt32.toNat_inj.mp h)
    rw [if_neg hzero] at h
    have hlt : 0 < hybrisBytesPerPixelOhos buffer.format.toUInt32 :=
      UInt32.lt_iff_toNat_lt.mpr (show (0 : UInt32).toNat < _ from Nat.pos_of_ne_zero hne)
    refine (if_pos hlt).trans (Int32.toInt_inj.mp ?_)
    rw [Int32.toInt_div, hsmall, h, Int.mul_tdiv_cancel _ (by exact_mod_cast hne)]
    exact Int.bmod_eq_of_le (by have := desc.stride.le_toInt; omega)
      (by have := desc.stride.toInt_lt; omega)

def StrideAgrees (desc : WleglBufferDesc) : Prop :=
  importedStride desc =
    if hybrisBytesPerPixelOhos (androidFormatToOhos desc.format).toUInt32 = 0 then desc.stride.toInt
    else desc.stride.toInt *
      (hybrisBytesPerPixelOhos (androidFormatToOhos desc.format).toUInt32).toNat

def SizeAgrees (largest : Int) (desc : WleglBufferDesc) : Prop :=
  (if 0 < largest ∧ largest < importedBytes desc then largest else importedBytes desc).bmod
    (2 ^ 32) = min largest (withChroma (androidFormatToOhos desc.format).toUInt32
    (importedStride desc * desc.height.toInt))

theorem layoutAgrees_describe (hpos : Positive desc) (h : Bounded desc) (fds : List Int32) :
    LayoutAgrees sys nh desc
      (describe sys nh desc (Int32.ofInt (importedStride desc)) fds (importedBytes desc)) ↔
      StrideAgrees desc ∧ SizeAgrees (largestFdBytes sys nh).toInt desc := by
  have htoInt := importedStride_toInt hpos h.1
  constructor
  · intro hagrees
    have hsize := hagrees.size
    simp only [describe, htoInt, Int32.toInt_ofInt] at hsize
    exact ⟨htoInt.symm.trans hagrees.stride, hsize⟩
  · rintro ⟨hstride, hsize⟩
    have hstride' := htoInt.trans hstride
    refine ⟨hstride', ?_, pixelStride_eq hpos.stride hstride'⟩
    simp only [describe, htoInt, Int32.toInt_ofInt]
    exact hsize

theorem built_agrees_iff (haccepts : Accepts sys nh desc) (hpos : Positive desc) :
    (∃ buffer,
      buildBufferHandle sys (some nh) desc = .ok buffer ∧ LayoutAgrees sys nh desc buffer) ↔
      Bounded desc ∧ StrideAgrees desc ∧ SizeAgrees (largestFdBytes sys nh).toInt desc := by
  constructor
  · rintro ⟨buffer, hbuilt, hagrees⟩
    have hbounded := bounded_of_built haccepts hpos hbuilt
    obtain ⟨fds, heq⟩ := built haccepts hpos hbounded
    cases hbuilt.symm.trans heq
    exact ⟨hbounded, (layoutAgrees_describe hpos hbounded fds).mp hagrees⟩
  · rintro ⟨hbounded, hagrees⟩
    obtain ⟨fds, heq⟩ := built haccepts hpos hbounded
    exact ⟨_, heq, (layoutAgrees_describe hpos hbounded fds).mpr hagrees⟩

variable {largest : Int}

theorem size_agrees_iff {bytes logical : Int} (hlargest : 0 ≤ largest) (hbytes : 0 < bytes)
    (hle : bytes ≤ logical) (hlogical : 2 * logical ≤ 3 * bytes) :
    (if 0 < largest ∧ largest < logical then largest else logical).bmod (2 ^ 32) =
      min largest bytes ↔
      SizeFits largest logical ∧ (largest ≤ bytes ∨ logical = bytes) := by
  rw [SizeFits, Int.bmod_def]
  split_ifs <;> omega

theorem agrees_packed {bpp : Nat} (hpos : Positive desc) (hlargest : 0 ≤ largest)
    (hbytes : (bytesPerPixel (androidFormatToOhos desc.format)).toNat = bpp)
    (hyuv : isYuv420 (androidFormatToOhos desc.format) = false)
    (hsame : (hybrisBytesPerPixelOhos (androidFormatToOhos desc.format).toUInt32).toNat = bpp)
    (hchroma : ∀ luma : Int, withChroma (androidFormatToOhos desc.format).toUInt32 luma = luma) :
    Bounded desc ∧ StrideAgrees desc ∧ SizeAgrees largest desc ↔
      desc.stride.toInt * bpp < 2 ^ 31 ∧
      SizeFits largest (desc.stride.toInt * bpp * desc.height.toInt) := by
  have heq : importedStride desc = desc.stride.toInt * bpp := by rw [importedStride, hbytes]
  have hbytes : importedBytes desc = desc.stride.toInt * bpp * desc.height.toInt := by
    rw [importedBytes, hyuv, heq]
    rfl
  have hluma : 0 < desc.stride.toInt * bpp * desc.height.toInt :=
    Int.mul_pos (heq ▸ importedStride_pos hpos) hpos.height
  have hstride : StrideAgrees desc := by
    have hne : hybrisBytesPerPixelOhos (androidFormatToOhos desc.format).toUInt32 ≠ 0 := by
      intro hzero
      have hbpp : bpp = 0 := by rw [← hsame, hzero]; rfl
      have hstride := importedStride_pos hpos
      rw [heq, hbpp] at hstride
      simp at hstride
    rw [StrideAgrees, if_neg hne, hsame, heq]
  have hbounded : Bounded desc ↔ desc.stride.toInt * bpp < 2 ^ 31 := by
    rw [Bounded, heq, hyuv]
    simp
  rw [hbounded, SizeAgrees, hchroma, hbytes, heq, size_agrees_iff hlargest hluma le_rfl (by omega)]
  simp [hstride]

theorem agrees_yuv420 {bytes : Int} (hpos : Positive desc) (hlargest : 0 ≤ largest)
    (hone : bytesPerPixel (androidFormatToOhos desc.format) = 1)
    (hyuv : isYuv420 (androidFormatToOhos desc.format) = true)
    (hzero : hybrisBytesPerPixelOhos (androidFormatToOhos desc.format).toUInt32 = 0)
    (hchroma : withChroma (androidFormatToOhos desc.format).toUInt32
        (desc.stride.toInt * desc.height.toInt) = bytes)
    (hbytes : desc.stride.toInt * desc.height.toInt ≤ bytes)
    (hle : bytes ≤ desc.stride.toInt * desc.height.toInt * 3 / 2) :
    Bounded desc ∧ StrideAgrees desc ∧ SizeAgrees largest desc ↔
      desc.stride.toInt * desc.height.toInt * 3 < 2 ^ 63 ∧
      SizeFits largest (desc.stride.toInt * desc.height.toInt * 3 / 2) ∧
      (largest ≤ bytes ∨ desc.stride.toInt * desc.height.toInt * 3 / 2 = bytes) := by
  have heq : importedStride desc = desc.stride.toInt := by
    rw [importedStride, hone]
    exact Int.mul_one _
  have himported : importedBytes desc = desc.stride.toInt * desc.height.toInt * 3 / 2 := by
    rw [importedBytes, hyuv, heq]
    rfl
  have hluma : 0 < desc.stride.toInt * desc.height.toInt := Int.mul_pos hpos.stride hpos.height
  have hstride : StrideAgrees desc := by rw [StrideAgrees, if_pos hzero, heq]
  have hbounded : Bounded desc ↔ desc.stride.toInt * desc.height.toInt * 3 < 2 ^ 63 := by
    rw [Bounded, heq, hyuv]
    exact ⟨fun h => h.2 rfl, fun h => ⟨desc.stride.toInt_lt, fun _ => h⟩⟩
  rw [hbounded, SizeAgrees, himported, heq, hchroma,
    size_agrees_iff hlargest (hluma.trans_le hbytes) hle (by omega)]
  simp [hstride]

theorem not_strideAgrees (hpos : Positive desc)
    (hfour : bytesPerPixel (androidFormatToOhos desc.format) = 4)
    (hzero : hybrisBytesPerPixelOhos (androidFormatToOhos desc.format).toUInt32 = 0) :
    ¬ StrideAgrees desc := by
  have hstride := hpos.stride
  rw [StrideAgrees, if_pos hzero, importedStride, hfour]
  show ¬ desc.stride.toInt * 4 = desc.stride.toInt
  omega

theorem androidFormatToOhos_ne_zero {format : Int32} (h : androidFormatToOhos format ≠ 0) :
    format = 1 ∨ format = 2 ∨ format = 3 ∨ format = 4 ∨ format = 5 ∨ format = 0x32315659 ∨
    format = 0x11 ∨ format = 0x23 := by
  unfold androidFormatToOhos at h
  split at h
  all_goals first
    | exact absurd rfl h
    | decide

end Building

/-- **Agreement about an imported buffer** exactly when the condition holds; for RGBA and RGBX it
never does. -/
theorem layout_agrees_iff (sys : System) (nh : NativeHandle) (desc : WleglBufferDesc)
    (haccepts : Accepts sys nh desc) (hpos : Positive desc) :
    (∃ buffer,
       buildBufferHandle sys (some nh) desc = .ok buffer ∧ LayoutAgrees sys nh desc buffer) ↔
      Agreeing (largestFdBytes sys nh).toInt desc := by
  obtain ⟨width, height, stride, format, usage⟩ := desc
  have hlargest := largestFdBytes_nonneg sys nh
  have hstride : 0 < stride.toInt := hpos.stride
  have hheight : 0 < height.toInt := hpos.height
  rw [built_agrees_iff haccepts hpos]
  generalize (largestFdBytes sys nh).toInt = largest at hlargest
  have hluma : 0 < stride.toInt * height.toInt := Int.mul_pos hstride hheight
  have hone : stride.toInt * height.toInt * 3 / 2 = stride.toInt * height.toInt ↔
      stride.toInt * height.toInt = 1 := by omega
  have hhalf : stride.toInt * height.toInt * 3 / 2 =
      stride.toInt * height.toInt + stride.toInt * height.toInt / 2 := by omega
  have hformat := androidFormatToOhos_ne_zero haccepts.format
  dsimp only at hformat
  rcases hformat with rfl | rfl | rfl | rfl | rfl | rfl | rfl | rfl
  · exact iff_of_false (fun h => not_strideAgrees hpos rfl rfl h.2.1) id
  · exact iff_of_false (fun h => not_strideAgrees hpos rfl rfl h.2.1) id
  · exact agrees_packed hpos hlargest rfl rfl rfl fun luma => rfl
  · exact agrees_packed hpos hlargest rfl rfl rfl fun luma => rfl
  · exact agrees_packed hpos hlargest rfl rfl rfl fun luma => rfl
  · have hchroma : withChroma (37 : UInt32) (stride.toInt * height.toInt) =
      stride.toInt * height.toInt := rfl
    refine (agrees_yuv420 hpos hlargest rfl rfl rfl hchroma le_rfl (by dsimp only; omega)).trans ?_
    exact and_congr_right fun _ => and_congr_right fun _ => or_congr_right hone
  · have hchroma : withChroma (35 : UInt32) (stride.toInt * height.toInt) =
        stride.toInt * height.toInt + stride.toInt * height.toInt / 2 := rfl
    refine (agrees_yuv420 hpos hlargest rfl rfl rfl hchroma (by dsimp only; omega) hhalf.ge).trans
      ?_
    exact and_congr_right fun _ => ⟨fun h => h.1, fun h => ⟨h, .inr hhalf⟩⟩
  · have hchroma : withChroma (34 : UInt32) (stride.toInt * height.toInt) =
      stride.toInt * height.toInt := rfl
    refine (agrees_yuv420 hpos hlargest rfl rfl rfl hchroma le_rfl (by dsimp only; omega)).trans ?_
    exact and_congr_right fun _ => and_congr_right fun _ => or_congr_right hone

theorem layout_agrees_bgra :
    ∃ buffer, buildBufferHandle ⟨true, fun _ => some 7, fun _ => some 8192⟩ (some ⟨[5], []⟩)
        ⟨64, 32, 64, 5, 0⟩ =
        .ok buffer ∧
      LayoutAgrees ⟨true, fun _ => some 7, fun _ => some 8192⟩ ⟨[5], []⟩ ⟨64, 32, 64, 5, 0⟩
        buffer :=
  (layout_agrees_iff ⟨true, fun _ => some 7, fun _ => some 8192⟩ ⟨[5], []⟩ ⟨64, 32, 64, 5, 0⟩
    ⟨nofun, by decide, rfl, fun _ _ => rfl⟩ ⟨by decide, by decide, by decide⟩).mpr
    ⟨by decide, .inl ⟨by decide, by decide⟩⟩

theorem layout_differs_rgba :
    ∃ buffer, buildBufferHandle ⟨true, fun _ => some 7, fun _ => some 8192⟩ (some ⟨[5], []⟩)
        ⟨64, 32, 64, 1, 0⟩ =
        .ok buffer ∧
      buffer.stride = 256 ∧ pixelStride buffer = 256 ∧
      ¬ LayoutAgrees ⟨true, fun _ => some 7, fun _ => some 8192⟩ ⟨[5], []⟩ ⟨64, 32, 64, 1, 0⟩
          buffer :=
  ⟨_, rfl, by decide, by decide, fun h => absurd h.pixels (by decide)⟩

end OniroSoc.Display.Import

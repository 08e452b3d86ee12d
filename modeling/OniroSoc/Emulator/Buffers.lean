import OniroSoc.Display.Alloc

/-!
# The emulator's buffers

`Allocator::AllocMem` computes a stride and a size in 32 bits.  `DrmAllocator` lets the kernel
allocate one plane, and the kernel's size replaces the computed one, chroma included.  The kernel's
pitch is not looked at.
-/

namespace OniroSoc.Emulator.Buffers
open Option
open Display.Import Display.Alloc

def alignUp (value align : UInt32) : UInt32 :=
  if align = 0 then 0 else (value + align - 1) / align * align

structure BufferInfo where
  (width height format : UInt32)
  usage : UInt64
  (widthStride heightStride bitsPerPixel bytesPerPixel size : UInt32 := 0)

def isYuv (format : UInt32) : Bool := 21 ≤ format ∧ format ≤ 33

def bitsOf (format : UInt32) : Option UInt32 :=
  if isYuv format then some 8
  else match format with
    | 11 | 12 | 19 | 20 => some 32                     -- RGBX, RGBA, BGRX and BGRA_8888
    | 13 => some 24                                    -- RGB_888
    | 3 | 14 | 15 | 16 | 6 | 5 | 17 | 18 => some 16    -- 565, 4444 and 5551
    | 0 => some 8                                      -- CLUT8
    | _ => none

def updatePixelInfo (b : BufferInfo) : Option BufferInfo :=
  (bitsOf b.format).map fun bits => { b with bitsPerPixel := bits, bytesPerPixel := bits / 8 }

def updateStrideAndSize (b : BufferInfo) : Option BufferInfo :=
  let widthStride := alignUp b.width 64
  if isYuv b.format then
    let heightStride := alignUp b.height 16
    match b.format with
    | 24 | 25 | 28 | 29 =>
      some { b with widthStride, heightStride, size := widthStride * heightStride * 3 / 2 }
    | 22 | 23 | 26 | 27 =>
      some { b with widthStride, heightStride, size := widthStride * heightStride * 2 }
    | _ => none
  else
    let heightStride := alignUp b.height 64
    some { b with widthStride, heightStride, size := widthStride * heightStride * b.bytesPerPixel }

def convertToBufferInfo (info : AllocInfo) : Option BufferInfo :=
  (updatePixelInfo ⟨info.width, info.height, info.format, info.usage, 0, 0, 0, 0, 0⟩).bind
    updateStrideAndSize

structure Dumb where
  pitch : UInt32
  size : UInt64
  fd : Int32

abbrev Kernel := UInt32 → UInt32 → UInt32 → Option Dumb

def allocate (b : BufferInfo) (dumb : Dumb) : BufferHandle where
  fd := dumb.fd
  width := b.width.toInt32
  height := b.height.toInt32
  stride := (b.widthStride * b.bytesPerPixel).toInt32
  size := dumb.size.toUInt32.toInt32
  -- `HBM_USE_MEM_FB`
  format := if b.usage &&& 0x40 ≠ 0 then 19 else b.format.toInt32
  usage := b.usage
  virAddr := none
  phyAddr := 0
  reserveFds := []
  reserveInts := []

def allocMem (kernel : Kernel) (malloc : Bool) (info : AllocInfo) : Option BufferHandle :=
  (convertToBufferInfo info).bind fun b =>
    if malloc then (kernel b.widthStride b.heightStride b.bitsPerPixel).map (allocate b) else none

def exactAlign (value align : Nat) : Nat := (value + align - 1) / align * align

def heightAlign (info : AllocInfo) : Nat := if isYuv info.format then 16 else 64

def exactStride (info : AllocInfo) : Nat :=
  exactAlign info.width.toNat 64 * (((bitsOf info.format).getD 0) / 8).toNat

def sizeFactor (info : AllocInfo) : Nat :=
  match info.format with
  | 24 | 25 | 28 | 29 => 3
  | 22 | 23 | 26 | 27 => 2
  | _ => (((bitsOf info.format).getD 0) / 8).toNat

structure NoWrap (info : AllocInfo) : Prop where
  width : info.width.toNat + 64 < 2 ^ 32
  height : info.height.toNat < 2 ^ 31
  stride : exactStride info < 2 ^ 31
  size : exactAlign info.width.toNat 64 * exactAlign info.height.toNat (heightAlign info) *
    sizeFactor info < 2 ^ 32

def finalFormat (info : AllocInfo) : UInt32 := if info.usage &&& 0x40 ≠ 0 then 19 else info.format

/-- The handle describes the allocation, and the image fits into it. -/
structure HoldsImage (info : AllocInfo) (dumb : Dumb) (handle : BufferHandle) : Prop where
  pitch : handle.stride.toInt = dumb.pitch.toNat
  size : 0 < handle.size.toInt ∧ handle.size.toInt ≤ dumb.size.toNat
  image : (withChroma handle.format.toUInt32 (handle.stride.toInt * info.height.toNat) : Int) ≤
    handle.size.toInt
  exact : NoWrap info

structure Fits (info : AllocInfo) (dumb : Dumb) : Prop where
  exact : NoWrap info
  pitch : dumb.pitch.toNat = exactStride info
  size : 0 < dumb.size.toUInt32.toInt32.toInt
  image : isYuv (finalFormat info) = true ∨ 2 ^ 31 ≤ dumb.size.toNat →
    (withChroma (finalFormat info)
    (exactStride info * info.height.toNat : Int)) ≤ dumb.size.toUInt32.toInt32.toInt

/-- What `CREATE_DUMB` is taken to do. -/
def Sound (kernel : Kernel) : Prop :=
  ∀ width height bpp dumb, kernel width height bpp = some dumb →
    width.toNat * bpp.toNat / 8 ≤ dumb.pitch.toNat ∧ dumb.pitch.toNat * height.toNat ≤
    dumb.size.toNat

variable {kernel : Kernel} {malloc : Bool} {info : AllocInfo} {b : BufferInfo} {dumb : Dumb}
  {handle : BufferHandle}

theorem alignUp_toNat {value align : UInt32} (hpos : 0 < align.toNat)
    (h : value.toNat + align.toNat < 2 ^ 32) :
    (alignUp value align).toNat = exactAlign value.toNat align.toNat := by
  have hne : align ≠ 0 := by
    rintro rfl
    exact hpos.ne rfl
  have hsub : (value + align - 1).toNat = value.toNat + align.toNat - 1 := by
    rw [UInt32.toNat_sub_of_le, UInt32.toNat_add, Nat.mod_eq_of_lt h]
    · rfl
    · rw [UInt32.le_iff_toNat_le, UInt32.toNat_add, Nat.mod_eq_of_lt h]
      exact (Nat.succ_le_of_lt hpos).trans (Nat.le_add_left _ _)
  rw [alignUp, if_neg hne, UInt32.toNat_mul, UInt32.toNat_div, hsub]
  refine Nat.mod_eq_of_lt (lt_of_le_of_lt (Nat.div_mul_le_self _ _) ?_)
  omega

theorem le_exactAlign {value align : Nat} (h : 0 < align) : value ≤ exactAlign value align := by
  have := Nat.div_add_mod (value + align - 1) align
  have := Nat.mod_lt (value + align - 1) h
  rw [exactAlign, Nat.mul_comm]
  omega

theorem convert_eq (h : convertToBufferInfo info = some b) :
    b.width = info.width ∧ b.height = info.height ∧ b.format = info.format ∧ b.usage = info.usage ∧
    b.widthStride = alignUp info.width 64 ∧
    b.heightStride = alignUp info.height (if isYuv info.format then 16 else 64) ∧
    bitsOf info.format = some b.bitsPerPixel ∧ b.bytesPerPixel = b.bitsPerPixel / 8 := by
  simp only [convertToBufferInfo, updatePixelInfo, bind_eq_some_iff, map_eq_some_iff] at h
  obtain ⟨_, ⟨bits, hbits, rfl⟩, h⟩ := h
  simp only [updateStrideAndSize] at h
  split_ifs at h with hyuv
  · split at h <;> cases h <;> simp_all
  · cases h
    simp_all

theorem withChroma_packed {format bits : UInt32} (h : bitsOf format = some bits)
    (hyuv : isYuv format = false) (bytes : Int) : withChroma format bytes = bytes := by
  simp only [bitsOf, hyuv, Bool.false_eq_true, if_false] at h
  split at h
  case h_15 => cases h
  all_goals rfl

/-- **When a buffer can hold its image.**  Nothing wraps, the pitch is the one that was computed,
the size is positive in 32 bits, and a format with chroma has room for it. -/
theorem holds_image_iff (hsound : Sound kernel) (hb : convertToBufferInfo info = some b)
    (hdumb : kernel b.widthStride b.heightStride b.bitsPerPixel = some dumb)
    (h : allocMem kernel malloc info = some handle) :
    HoldsImage info dumb handle ↔ Fits info dumb := by
  obtain ⟨-, -, hformat, husage, hwidth, hheight, hbits, hbytes⟩ := convert_eq hb
  obtain ⟨hstride, hsize, hfinal⟩ : handle.stride = (b.widthStride * b.bytesPerPixel).toInt32 ∧
      handle.size = dumb.size.toUInt32.toInt32 ∧ handle.format.toUInt32 = finalFormat info := by
    rw [allocMem, hb, bind_some, hdumb] at h
    cases malloc <;> cases h
    refine ⟨rfl, rfl, ?_⟩
    rw [finalFormat, ← husage, ← hformat, allocate]
    split_ifs <;> rfl
  have hexact (hno : NoWrap info) : handle.stride.toInt = exactStride info := by
    have hprod : (b.widthStride * b.bytesPerPixel).toNat = exactStride info := by
      have hlt := hno.stride
      rw [exactStride, hbits, getD_some] at hlt ⊢
      rw [UInt32.toNat_mul, hwidth, hbytes, alignUp_toNat (by decide) hno.width]
      exact Nat.mod_eq_of_lt (hlt.trans (by decide))
    rw [hstride, toInt_of_lt (hprod ▸ hno.stride), hprod]
  constructor
  · rintro ⟨hpitch, ⟨hpos, -⟩, himage, hno⟩
    rw [hexact hno] at hpitch himage
    rw [hsize] at hpos himage
    rw [hfinal] at himage
    exact ⟨hno, by exact_mod_cast hpitch.symm, hpos, fun _ => himage⟩
  · rintro ⟨hno, hpitch, hpos, himage⟩
    have hle : dumb.size.toUInt32.toInt32.toInt ≤ dumb.size.toNat := by
      refine (toInt_le _).trans (Int.ofNat_le.mpr ?_)
      rw [UInt64.toNat_toUInt32]
      exact Nat.mod_le _ _
    refine ⟨by rw [hexact hno, hpitch], by rw [hsize]; exact ⟨hpos, hle⟩, ?_, hno⟩
    rw [hexact hno, hsize, hfinal]
    by_cases hneeds : isYuv (finalFormat info) = true ∨ 2 ^ 31 ≤ dumb.size.toNat
    · exact himage hneeds
    -- one plane is enough, and the kernel has allocated that
    · obtain ⟨hpacked, hsmall⟩ := not_or.mp hneeds
      have hchroma : withChroma (finalFormat info) (exactStride info * info.height.toNat : Int) =
          exactStride info * info.height.toNat := by
        rw [finalFormat] at hpacked ⊢
        split_ifs at hpacked ⊢
        · rfl
        · exact withChroma_packed hbits (by simpa using hpacked) _
      have hheight' : info.height.toNat ≤ b.heightStride.toNat := by
        have hbound := hno.height
        rw [hheight]
        split_ifs
        all_goals
          rw [alignUp_toNat (by decide) ((Nat.add_lt_add_right hbound _).trans_le (by decide))]
          exact le_exactAlign (by decide)
      have hroom := (hsound _ _ _ _ hdumb).2
      have htoInt : dumb.size.toUInt32.toInt32.toInt = dumb.size.toNat := by
        rw [toInt_of_lt] <;> simp <;> omega
      rw [hchroma, htoInt]
      exact_mod_cast (Nat.mul_le_mul_left _ hheight').trans (hpitch ▸ hroom)

def tight : Kernel := fun width height bpp =>
  let pitch := width.toNat * bpp.toNat / 8
  if pitch < 2 ^ 32 then some ⟨.ofNat pitch, .ofNat (pitch * height.toNat), 3⟩ else none

theorem tight_sound : Sound tight := by
  intro width height bpp dumb h
  simp only [tight, ite_none_right_eq_some, Option.some.injEq] at h
  obtain ⟨hlt, rfl⟩ := h
  have hsize : width.toNat * bpp.toNat / 8 * height.toNat < 2 ^ 64 :=
    (Nat.mul_lt_mul'' hlt height.toNat_lt : _ < 2 ^ 32 * 2 ^ 32)
  simp only [UInt32.toNat_ofNat', UInt64.toNat_ofNat', Nat.mod_eq_of_lt hlt, Nat.mod_eq_of_lt hsize,
    le_refl, and_self]

theorem holds_image_rgba : ∃ handle, allocMem tight true ⟨640, 480, 0, 12⟩ = some handle ∧
    HoldsImage ⟨640, 480, 0, 12⟩ ⟨2560, 1310720, 3⟩ handle := by
  refine ⟨_, rfl, (holds_image_iff tight_sound rfl rfl (rfl : allocMem tight true _ = _)).mpr ?_⟩
  exact ⟨⟨by decide, by decide, by decide, by decide⟩, by decide, by decide, by decide⟩

theorem no_room_for_chroma : ∃ handle, allocMem tight true ⟨640, 480, 0, 24⟩ = some handle ∧
    handle.stride = 640 ∧ handle.size = 307200 ∧ (withChroma 24 (640 * 480) : Nat) = 460800 :=
  ⟨_, rfl, by decide, by decide, by decide⟩

end OniroSoc.Emulator.Buffers

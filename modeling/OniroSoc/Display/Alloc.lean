import OniroSoc.Display.Import
import OniroSoc.Support.Circular

/-!
# Allocating a buffer

`AllocMem` of the buffer VDI lets gralloc allocate, and mirrors the native handle into a
`BufferHandle`: the first descriptor in `fd`, the others and the ints in the array `reserve`, and
behind them `kPtrSlots` slots for a pointer.  The array is cut at the count of descriptors.
-/

namespace OniroSoc.Display.Alloc
open List
open Import

structure AllocInfo where
  (width height : UInt32)
  usage : UInt64
  format : UInt32

def kMaxBufferDimension : UInt32 := 65536

def kOhosFormatBlob : UInt32 := 38

def kMaxBlobBytes : UInt32 := 256 * 1024 * 1024

def kUnsupportedUsageMask : UInt64 := 0x4 ||| 0x10 ||| 0x80 ||| 0x800

def kCacheHintUsageMask : UInt64 := 0x20

def kVendorUsageMask : UInt64 := 0xFFFFF00000000000

def areDimensionsValid (info : AllocInfo) : Bool :=
  if info.width = 0 || info.height = 0 then false
  else if info.format = kOhosFormatBlob then info.width ≤ kMaxBlobBytes && info.height ≤
    kMaxBufferDimension
  else info.width ≤ kMaxBufferDimension && info.height ≤ kMaxBufferDimension

def isUnsupportedOhosFormat (ohosFormat : UInt32) : Bool :=
  [0, 1, 2, 4, 7, 8, 9, 10, 30, 31, 32, 33, 0x7FFF0000, 0x7FFFFFFF].contains ohosFormat

def validateAllocInfo (info : AllocInfo) : Bool :=
  let describesMemory := info.usage &&& ~~~(kCacheHintUsageMask ||| kVendorUsageMask) ≠ 0
  let cacheHint := info.usage &&& kCacheHintUsageMask ≠ 0
  let usage := if cacheHint then info.usage &&& ~~~kCacheHintUsageMask else info.usage
  if !areDimensionsValid info then false
  else if isUnsupportedOhosFormat info.format then false
  else if cacheHint ∧ ¬ describesMemory then false
  else if usage &&& kUnsupportedUsageMask ≠ 0 then false
  else if info.usage ≠ 0 ∧ info.usage &&& ~~~kVendorUsageMask = 0 then false
  else true

def kPtrSlots : Nat := 4

inductive Owner where
  | none | allocated | imported

def Owner.toInt32 : Owner → Int32
  | none => 0
  | allocated => 1
  | imported => 2

def storeNativeHandle (b : BufferHandle) (pid : Int32) (native : UInt64)
    (owner : Owner) : BufferHandle :=
  let offset := b.reserveFds.length + b.reserveInts.length - kPtrSlots
  let reserve := Support.overwrite (b.reserveFds ++ b.reserveInts) offset
    [native.toUInt32.toInt32, (native >>> 32).toUInt32.toInt32, if native ≠ 0 then pid else 0,
      if native ≠ 0 then owner.toInt32 else 0]
  { b with reserveFds := reserve.take b.reserveFds.length, reserveInts := reserve.drop b.reserveFds.length }

def largestFdBytes (sys : System) (nh : NativeHandle) : Int64 :=
  Import.largestFdBytes { sys with fstat := fun fd => if 0 ≤ fd then sys.fstat fd else none } nh

/-- The gralloc of a process: `g_grallocUsable`, and what `hybris_gralloc_allocate` returns: the
handle with its address, and the stride in pixels. -/
structure Gralloc where
  usable : Bool
  allocated : Option (NativeHandle × UInt64 × UInt32)
  pid : Int32

def byteStride (info : AllocInfo) (stride : UInt32) : UInt32 :=
  let bpp := hybrisBytesPerPixelOhos info.format
  if 0 < bpp then stride * bpp else stride

def logicalSize (info : AllocInfo) (stride : UInt32) : Int32 :=
  (hybrisBufferBytesOhos info.format (byteStride info stride) info.height).toInt32

def recordedSize (sys : System) (nh : NativeHandle) (logical : Int32) : Int32 :=
  let allocBytes := (largestFdBytes sys nh).toInt
  if 0 < allocBytes ∧ allocBytes < logical.toInt then Int32.ofInt allocBytes else logical

def allocMem (sys : System) (gralloc : Gralloc) (info : AllocInfo) : Option BufferHandle :=
  if !validateAllocInfo info then none
  else if !gralloc.usable then none
  else match gralloc.allocated with
    | none => none
    | some (nh, native, stride) =>
      if !sys.malloc then none
      else
        let b : BufferHandle :=
          { fd := nh.fds.headD (-1)
            width := info.width.toInt32
            stride := (byteStride info stride).toInt32
            height := info.height.toInt32
            size := recordedSize sys nh (logicalSize info stride)
            format := info.format.toInt32
            usage := info.usage
            virAddr := none
            phyAddr := 0
            reserveFds := nh.fds.tail
            reserveInts := nh.ints ++ [0, 0, 0, 0] }
        some (storeNativeHandle b gralloc.pid native .allocated)

def reconstructNativeHandle (b : BufferHandle) : NativeHandle :=
  let numInts := if b.reserveInts.length > kPtrSlots then b.reserveInts.length - kPtrSlots else 0
  ⟨(if 0 ≤ b.fd then [b.fd] else []) ++ b.reserveFds, b.reserveInts.take numInts⟩

def buildNativeBuffer (b : BufferHandle) : NativeHandle :=
  let numInts :=
    if b.reserveInts.length ≥ kPtrSlots then b.reserveInts.length - kPtrSlots
      else b.reserveInts.length
  ⟨b.fd :: b.reserveFds, b.reserveInts.take numInts⟩

def setDisplayClientBuffer (b : BufferHandle) : NativeHandle := buildNativeBuffer b

/-- `b` was packed from `nh`, and carries the descriptors `fds`: those of `nh`, or their
duplicates. -/
inductive Packs (sys : System) (nh : NativeHandle) : List Int32 → BufferHandle → Prop
  | allocMem {gralloc info native stride b} (hnh : gralloc.allocated = some (nh, native, stride))
      (h : allocMem sys gralloc info = some b) : Packs sys nh nh.fds b
  | buildBufferHandle {desc fds b} (hdup : fds.map some = (List.range nh.fds.length).map sys.dup)
      (h : buildBufferHandle sys (some nh) desc = .ok b) : Packs sys nh fds b

def Mirrors (fds ints : List Int32) (b : BufferHandle) : Prop :=
  b.fd :: b.reserveFds = fds ∧ ∃ slots : List Int32,
    slots.length = kPtrSlots ∧ b.reserveInts = ints ++ slots

variable {sys : System} {nh : NativeHandle} {fds ints : List Int32} {b : BufferHandle}

theorem Mirrors.store (h : Mirrors fds ints b) (pid : Int32) (native : UInt64) (owner : Owner) :
    Mirrors fds ints (storeNativeHandle b pid native owner) := by
  obtain ⟨hfds, slots, hslots, hints⟩ := h
  obtain ⟨new, hnew, hstore⟩ : ∃ new : List Int32, new.length = kPtrSlots ∧
      storeNativeHandle b pid native owner = { b with
        reserveFds := (Support.overwrite (b.reserveFds ++ b.reserveInts)
          (b.reserveFds.length + b.reserveInts.length - kPtrSlots) new).take b.reserveFds.length
        reserveInts := (Support.overwrite (b.reserveFds ++ b.reserveInts)
          (b.reserveFds.length + b.reserveInts.length - kPtrSlots) new).drop b.reserveFds.length } :=
    ⟨[_, _, _, _], rfl, rfl⟩
  -- the slots are the end of the array, so writing them leaves what is before them
  have hoffset : b.reserveFds.length + b.reserveInts.length - kPtrSlots =
      (b.reserveFds ++ ints).length := by
    rw [hints, length_append, length_append, hslots]
    omega
  have hreserve : Support.overwrite (b.reserveFds ++ b.reserveInts)
      (b.reserveFds.length + b.reserveInts.length - kPtrSlots) new = b.reserveFds ++
      (ints ++ new) := by
    have hlen : (b.reserveFds ++ ints).length + new.length = (b.reserveFds ++ b.reserveInts).length := by
      simp [hints, hslots, hnew, Nat.add_assoc]
    have htake := Support.take_overwrite hlen.le
    rw [take_of_length_le (by rw [Support.length_overwrite, hlen])] at htake
    rw [hoffset, htake, hints, ← append_assoc, take_left, append_assoc]
  rw [hstore, hreserve]
  exact ⟨by simpa using hfds, new, hnew, by simp⟩

theorem dupAll_eq {all done fds' : List Int32} {i : Nat} (h : dupAll sys i done fds' = .ok all) :
    all.map some = done.map some ++ (List.range fds'.length).map fun j => sys.dup (i + j) := by
  induction fds' generalizing i done with
  | nil =>
    cases h
    simp
  | cons fd fds' ih =>
    rw [dupAll] at h
    cases hdup : sys.dup i with
    | none =>
      rw [hdup] at h
      cases h
    | some new =>
      rw [hdup] at h
      rw [ih h, length_cons, range_succ_eq_map]
      simp [Function.comp_def, hdup, Nat.add_comm, Nat.add_left_comm]

theorem mirrors_of_built {desc : WleglBufferDesc}
    (h : buildBufferHandle sys (some nh) desc = .ok b) :
    ∃ all, dupAll sys 0 [] nh.fds = .ok all ∧ b.fd = all.headD 0 ∧ b.reserveFds = all.tail ∧
      b.reserveInts = nh.ints ++ [0, 0, 0, 0] := by
  obtain ⟨_, ⟨⟩, haccepts⟩ := accepts_of_built h
  obtain ⟨all, hall, heq⟩ := buildBufferHandle_accepted haccepts
  rw [heq] at h
  cases hstride : int32 (importedStride desc) with
  | error =>
    rw [hstride] at h
    cases h
  | ok byteStride =>
    cases hlogical : logicalBytes (androidFormatToOhos desc.format) byteStride desc.height with
    | error =>
      simp only [hstride, bind, Except.bind, hlogical] at h
      cases h
    | ok logical =>
      simp only [hstride, bind, Except.bind, hlogical] at h
      cases h
      exact ⟨all, hall, rfl, rfl, rfl⟩

theorem Packs.mirrors (h : Packs sys nh fds b) (hfds : nh.fds ≠ []) : Mirrors fds nh.ints b := by
  cases h with
  | allocMem hnh h =>
    simp only [Alloc.allocMem, hnh] at h
    split_ifs at h
    cases h
    refine Mirrors.store ⟨?_, _, rfl, rfl⟩ _ _ _
    cases hcons : nh.fds with
    | nil => exact absurd hcons hfds
    | cons fd rest => rfl
  | buildBufferHandle hdup h =>
    obtain ⟨all, hall, hfd, hrest, hints⟩ := mirrors_of_built h
    have heq : fds = all := by
      refine map_injective_iff.mpr (Option.some_injective _) ?_
      rw [hdup, dupAll_eq hall]
      simp
    refine ⟨?_, _, rfl, hints⟩
    cases all with
    | nil => simp_all
    | cons fd rest => rw [hfd, hrest, heq, headD_cons, tail_cons]

/-- **Native handles survive.** However a handle was packed, and whatever is stored in the slots
afterwards, all three functions give back its descriptors, or their duplicates, and its ints. -/
theorem handle_round_trip (hpacks : Packs sys nh fds b) (hfds : nh.fds ≠ [])
    (hvalid : ∀ fd ∈ fds, 0 ≤ fd) (stores : List (Int32 × UInt64 × Owner)) :
    let b' := stores.foldl (fun b s => storeNativeHandle b s.1 s.2.1 s.2.2) b
    reconstructNativeHandle b' = ⟨fds, nh.ints⟩ ∧ buildNativeBuffer b' = ⟨fds, nh.ints⟩ ∧
      setDisplayClientBuffer b' = ⟨fds, nh.ints⟩ := by
  intro b'
  have hmirrors : Mirrors fds nh.ints b' := by
    have hstart := hpacks.mirrors hfds
    clear hpacks
    induction stores generalizing b with
    | nil => exact hstart
    | cons s stores ih => exact ih (hstart.store s.1 s.2.1 s.2.2)
  clear_value b'
  obtain ⟨rfl, slots, hslots, hints⟩ := hmirrors
  have htake : b'.reserveInts.take (b'.reserveInts.length - kPtrSlots) = nh.ints := by
    rw [hints, length_append, hslots, Nat.add_sub_cancel, take_left]
  have hbuild : buildNativeBuffer b' = ⟨b'.fd :: b'.reserveFds, nh.ints⟩ := by
    rw [buildNativeBuffer, if_pos (by simp [hints, hslots]), htake]
  refine ⟨?_, hbuild, hbuild⟩
  have hnumInts : (if b'.reserveInts.length > kPtrSlots then b'.reserveInts.length - kPtrSlots
    else 0) = b'.reserveInts.length - kPtrSlots := by
    split_ifs <;> omega
  rw [reconstructNativeHandle, hnumInts, htake, if_pos (hvalid _ (.head _))]
  rfl

def plainSystem : System := ⟨true, fun i => some (Int32.ofNat (40 + i)), fun _ => none⟩

def plainGralloc (nh : NativeHandle) (stride : UInt32) : Gralloc :=
  ⟨true, some (nh, 0x7f0012345678, stride), 100⟩

def square (side : UInt32) : AllocInfo := ⟨side, side, 0, 12⟩

theorem handle_round_trip_two :
    ∃ b, allocMem plainSystem (plainGralloc ⟨[5, 6], [7, 8, 9]⟩ 64) (square 64) = some b ∧
      reconstructNativeHandle (storeNativeHandle b 200 0x7f00abcdef00 .imported) =
        ⟨[5, 6], [7, 8, 9]⟩ := by
  have hpacks : Packs plainSystem ⟨[5, 6], [7, 8, 9]⟩ [5, 6] _ :=
    .allocMem (rfl : (plainGralloc ⟨[5, 6], [7, 8, 9]⟩ 64).allocated = _)
      (rfl : allocMem _ _ (square 64) = _)
  exact ⟨_, rfl, (handle_round_trip hpacks (by simp) (by simp)
    [(200, 0x7f00abcdef00, .imported)]).1⟩

def exactStride (info : AllocInfo) (stride : UInt32) : Nat :=
  if hybrisBytesPerPixelOhos info.format = 0 then stride.toNat
  else stride.toNat * (hybrisBytesPerPixelOhos info.format).toNat

def exactBytes (info : AllocInfo) (stride : UInt32) : Nat :=
  withChroma info.format (exactStride info stride * info.height.toNat)

structure SizesExact (sys : System) (nh : NativeHandle) (info : AllocInfo) (pixels : UInt32)
    (b : BufferHandle) : Prop where
  stride : b.stride.toInt = exactStride info pixels
  size : b.size.toInt = if 0 < (largestFdBytes sys nh).toInt
    then min (largestFdBytes sys nh).toInt (exactBytes info pixels) else exactBytes info pixels
  positive : 0 < b.stride.toInt ∧ 0 < b.size.toInt

section Sizes
variable {info : AllocInfo} {stride : UInt32}

theorem toInt_of_lt {x : UInt32} (h : x.toNat < 2 ^ 31) : x.toInt32.toInt = x.toNat := by
  show x.toBitVec.toInt = _
  rw [BitVec.toInt_eq_toNat_of_lt (by simpa using Nat.mul_lt_mul_of_pos_left h two_pos)]
  rfl

theorem toInt_le (x : UInt32) : x.toInt32.toInt ≤ x.toNat := by
  show x.toBitVec.toInt ≤ _
  rw [BitVec.toInt_eq_toNat_cond]
  simp only [UInt32.toNat_toBitVec]
  split_ifs <;> omega

theorem bytesPerPixel_le (format : UInt32) : (hybrisBytesPerPixelOhos format).toNat ≤ 4 := by
  unfold hybrisBytesPerPixelOhos
  split <;> decide

theorem withChroma_mono (format : UInt32) {x y : Nat} (h : x ≤ y) :
    withChroma format x ≤ withChroma format y := by
  unfold withChroma
  split <;> omega

theorem withChroma_le_self (format : UInt32) (x : Nat) : x ≤ withChroma format x := by
  unfold withChroma
  split <;> omega

theorem withChroma_toNat (format x : UInt32) :
    (withChroma format x).toNat = withChroma format x.toNat % 2 ^ 32 := by
  unfold withChroma
  split <;> simp

theorem exactStride_lt (hvalid : areDimensionsValid info = true)
    (hhi : stride.toNat ≤ 2 * info.width.toNat) : exactStride info stride < 2 ^ 31 := by
  have hwidth : info.width.toNat ≤ if info.format = kOhosFormatBlob then 2 ^ 28 else 2 ^ 16 := by
    rw [areDimensionsValid] at hvalid
    split_ifs at hvalid ⊢
    all_goals exact UInt32.le_iff_toNat_le.mp (of_decide_eq_true (Bool.and_eq_true_iff.mp hvalid).1)
  rw [exactStride]
  by_cases hblob : info.format = kOhosFormatBlob
  · rw [if_pos hblob] at hwidth
    rw [hblob, if_pos (by decide)]
    omega
  · rw [if_neg hblob] at hwidth
    split_ifs
    · omega
    · calc stride.toNat * _ ≤ (2 * 2 ^ 16) * 4 :=
        Nat.mul_le_mul (by omega) (bytesPerPixel_le info.format)
        _ < 2 ^ 31 := by decide

theorem byteStride_toNat (h : exactStride info stride < 2 ^ 31) :
    (byteStride info stride).toNat = exactStride info stride := by
  rw [exactStride] at h ⊢
  rw [byteStride]
  split_ifs at h ⊢ with hpos hzero hzero
  · simp [hzero] at hpos
  · rw [UInt32.toNat_mul, Nat.mod_eq_of_lt (by omega)]
  · rfl
  · exact absurd (UInt32.pos_iff_ne_zero.mpr hzero) hpos

theorem logicalSize_le (h : exactStride info stride < 2 ^ 31) :
    (logicalSize info stride).toInt ≤ exactBytes info stride := by
  refine (toInt_le _).trans (Int.ofNat_le.mpr ?_)
  rw [hybrisBufferBytesOhos, withChroma_toNat, UInt32.toNat_mul, byteStride_toNat h]
  exact (Nat.mod_le _ _).trans (withChroma_mono _ (Nat.mod_le _ _))

theorem logicalSize_eq (h : exactStride info stride < 2 ^ 31)
    (hbytes : exactBytes info stride < 2 ^ 31) :
    (logicalSize info stride).toInt = exactBytes info stride := by
  have hluma := (withChroma_le_self info.format _).trans_lt hbytes
  have htoNat : (hybrisBufferBytesOhos info.format (byteStride info stride) info.height).toNat =
      exactBytes info stride := by
    rw [hybrisBufferBytesOhos, withChroma_toNat, UInt32.toNat_mul, byteStride_toNat h,
      Nat.mod_eq_of_lt (hluma.trans (by decide))]
    exact Nat.mod_eq_of_lt (hbytes.trans (by decide))
  rw [logicalSize, toInt_of_lt (htoNat ▸ hbytes), htoNat]

theorem recordedSize_toInt (nh : NativeHandle) (logical : Int32) :
    (recordedSize sys nh logical).toInt =
      if 0 < (largestFdBytes sys nh).toInt then min (largestFdBytes sys nh).toInt logical.toInt else
        logical.toInt := by
  have hlt := logical.toInt_lt
  rw [recordedSize]
  split_ifs with h hpos hpos
  · rw [Int32.toInt_ofInt_of_le (by omega) (by omega)]
    omega
  · omega
  · omega
  · rfl

theorem exactBytes_pos (hvalid : areDimensionsValid info = true) (hlo : info.width ≤ stride) :
    0 < exactStride info stride ∧ 0 < exactBytes info stride := by
  have hdims : 0 < info.width.toNat ∧ 0 < info.height.toNat := by
    rw [areDimensionsValid] at hvalid
    split_ifs at hvalid with hzero
    all_goals
      simp only [Bool.or_eq_true, decide_eq_true_eq, not_or] at hzero
      exact ⟨UInt32.pos_iff_ne_zero.mpr hzero.1, UInt32.pos_iff_ne_zero.mpr hzero.2⟩
  have hstride : 0 < exactStride info stride := by
    have := UInt32.le_iff_toNat_le.mp hlo
    rw [exactStride]
    split_ifs with hzero
    · omega
    · exact Nat.mul_pos (by omega) (UInt32.pos_iff_ne_zero.mpr hzero)
  exact ⟨hstride, (Nat.mul_pos hstride hdims.2).trans_le (withChroma_le_self _ _)⟩

/-- **The sizes of an allocation** are exact exactly if the buffer has less than 2^31 bytes, or
gralloc gave no more than the wrapped size. -/
theorem sizes_exact_iff {gralloc : Gralloc} {native : UInt64}
    (hgralloc : gralloc.allocated = some (nh, native, stride))
    (hb : allocMem sys gralloc info = some b) (hlo : info.width ≤ stride)
    (hhi : stride.toNat ≤ 2 * info.width.toNat) :
    SizesExact sys nh info stride b ↔
      exactBytes info stride < 2 ^ 31 ∨
      (0 < (largestFdBytes sys nh).toInt ∧
       (largestFdBytes sys nh).toInt ≤ (logicalSize info stride).toInt) := by
  obtain ⟨hvalid, hstride, hsize⟩ : areDimensionsValid info = true ∧
      b.stride = (byteStride info stride).toInt32 ∧ b.size = recordedSize sys nh
      (logicalSize info stride) := by
    simp only [allocMem, hgralloc] at hb
    split_ifs at hb with hv
    cases hb
    rw [Bool.not_eq_true', Bool.not_eq_false, validateAllocInfo] at hv
    refine ⟨?_, rfl, rfl⟩
    by_contra hdims
    simp [hdims] at hv
  have hlt := exactStride_lt hvalid hhi
  obtain ⟨hpos, hbytes⟩ := exactBytes_pos hvalid hlo
  have hle := logicalSize_le hlt
  have hb : b.stride.toInt = exactStride info stride := by
    rw [hstride, toInt_of_lt (by rwa [byteStride_toNat hlt]), byteStride_toNat hlt]
  have hs := congrArg Int32.toInt hsize
  rw [recordedSize_toInt] at hs
  have hlogical := (logicalSize info stride).toInt_lt
  constructor
  · rintro ⟨-, hexact, -⟩
    rw [hs] at hexact
    split_ifs at hexact with hknown <;> omega
  · rintro (hsmall | ⟨hknown, hless⟩)
    · have heq := logicalSize_eq hlt hsmall
      refine ⟨hb, by rw [hs, heq], by rw [hb]; omega, ?_⟩
      rw [hs, heq]
      split_ifs <;> omega
    · refine ⟨hb, ?_, by rw [hb]; omega, ?_⟩
      · rw [hs, if_pos hknown, if_pos hknown]
        omega
      · rw [hs, if_pos hknown]
        omega

end Sizes

theorem sizes_exact_square :
    ∃ b,
      allocMem plainSystem (plainGralloc ⟨[5], []⟩ 1024) (square 1024) = some b ∧ b.size = 4194304 ∧
      SizesExact plainSystem ⟨[5], []⟩ (square 1024) 1024 b := by
  have hgralloc : (plainGralloc ⟨[5], []⟩ 1024).allocated = some (⟨[5], []⟩, _, 1024) := rfl
  exact ⟨_, rfl, by decide,
    (sizes_exact_iff hgralloc rfl (by decide) (by decide)).mpr (.inl (by decide))⟩

theorem size_wraps :
    ∃ b, allocMem plainSystem (plainGralloc ⟨[5], []⟩ 32768) (square 32768) = some b ∧
      exactBytes (square 32768) 32768 = 2 ^ 32 ∧ b.size = 0 :=
  ⟨_, rfl, by decide, by decide⟩

end OniroSoc.Display.Alloc

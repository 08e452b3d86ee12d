import OniroSoc.Support.Bytes
import OniroSoc.Support.Unicode

/-!
# Parcels

`wdb_parcel` of `wdbinder.c`: a growing buffer with a read cursor and an error that sticks, with
fields of `int32` and `String16`.  `alloc n` says whether there is memory for `n` bytes; reading
past the end of a C string reads the terminator.
-/

namespace OniroSoc.Binder
open Support

inductive Err where
  | eopen
  | enoservice
  | etimedout
  | edead
  | eproto
  | eremote
  | enomem
  | einval
deriving DecidableEq

def maxReply : Nat := 4 * 1024 * 1024

structure Parcel where
  data : List UInt8 := []
  (cap pos : Nat := 0)
  error : Option Err := none
deriving DecidableEq

def byteAt (s : List UInt8) (i : Nat) : Nat := (s.getD i 0).toNat

def utf8Tail (s : List UInt8) : Nat → Nat → Nat → Nat × List UInt8
  | 0, i, cp => (cp, s.drop i)
  | n + 1, i, cp =>
    if byteAt s i &&& 0xC0 ≠ 0x80 then (0xFFFD, s.drop i)
    else utf8Tail s n (i + 1) (cp <<< 6 ||| (byteAt s i &&& 0x3F))

def utf8Next (s : List UInt8) : Nat × List UInt8 :=
  let c := byteAt s 0
  if c < 0x80 then (c, s.drop 1)
  else if c &&& 0xE0 = 0xC0 then utf8Tail s 1 1 (c &&& 0x1F)
  else if c &&& 0xF0 = 0xE0 then utf8Tail s 2 1 (c &&& 0x0F)
  else if c &&& 0xF8 = 0xF0 then utf8Tail s 3 1 (c &&& 0x07)
  else (0xFFFD, s.drop 1)

def codePointsLoop : Nat → List UInt8 → List Nat
  | 0, _ => []
  | n + 1, s => if byteAt s 0 = 0 then [] else (utf8Next s).1 :: codePointsLoop n (utf8Next s).2

def codePoints (s : List UInt8) : List Nat := codePointsLoop s.length s

def unitsOf (cp : Nat) : List Nat :=
  if 0x10000 ≤ cp then [0xD800 ||| (cp - 0x10000) >>> 10, 0xDC00 ||| ((cp - 0x10000) &&& 0x3FF)]
  else [cp]

def paddedSize (units : Nat) : Nat := ((units + 1) * 2 + 3) / 4 * 4

structure Out where
  size : Nat
  bytes : List UInt8 := []
  overrun : Bool := false
deriving DecidableEq

namespace Out

def put (o : Out) (b : Nat) : Out :=
  { o with
    bytes := o.bytes ++ [UInt8.ofNat b]
    overrun := o.overrun || decide (o.size ≤ o.bytes.length) }

def putCodePoint (o : Out) (cp : Nat) : Out :=
  if cp < 0x80 then o.put cp
  else if cp < 0x800 then (o.put (0xC0 ||| cp >>> 6)).put (0x80 ||| (cp &&& 0x3F))
  else if cp < 0x10000 then
    ((o.put (0xE0 ||| cp >>> 12)).put (0x80 ||| (cp >>> 6 &&& 0x3F))).put (0x80 ||| (cp &&& 0x3F))
  else (((o.put (0xF0 ||| cp >>> 18)).put (0x80 ||| (cp >>> 12 &&& 0x3F))).put
    (0x80 ||| (cp >>> 6 &&& 0x3F))).put (0x80 ||| (cp &&& 0x3F))

end Out

def joinUnits : List Nat → List Nat
  | u :: lo :: us =>
    if 0xD800 ≤ u ∧ u ≤ 0xDBFF ∧ 0xDC00 ≤ lo ∧ lo ≤ 0xDFFF then
      (0x10000 + (u - 0xD800) <<< 10 + (lo - 0xDC00)) :: joinUnits us
    else u :: joinUnits (lo :: us)
  | us => us

namespace Parcel

def len (p : Parcel) : Nat := p.data.length

def doubled (need : Nat) : Nat → Nat → Nat
  | 0, cap => cap
  | n + 1, cap => if cap < need then doubled need n (cap * 2) else cap

def grow (alloc : Nat → Bool) (p : Parcel) (n : Nat) : Parcel × Option Nat :=
  if p.error.isSome then (p, none)
  else if maxReply < n ∨ maxReply < p.len + n then ({ p with error := some .einval }, none)
  else if p.cap < p.len + n then
    let cap := doubled (p.len + n) (p.len + n) (if p.cap = 0 then 256 else p.cap)
    if alloc cap then ({ p with cap, data := p.data ++ List.replicate n 0 }, some p.len)
    else ({ p with error := some .enomem }, none)
  else ({ p with data := p.data ++ List.replicate n 0 }, some p.len)

def poke (p : Parcel) (off : Nat) (bytes : List UInt8) : Parcel :=
  { p with data := p.data.take off ++ bytes ++ p.data.drop (off + bytes.length) }

def putI32 (alloc : Nat → Bool) (p : Parcel) (v : Int32) : Parcel :=
  match p.grow alloc 4 with
  | (p, some off) => p.poke off (bytes32 v.toUInt32).reverse
  | (p, none) => p

def putStr16 (alloc : Nat → Bool) (p : Parcel) : Option (List UInt8) → Parcel
  | none => p.putI32 alloc (-1)
  | some s =>
    let units := (codePoints s).flatMap unitsOf
    if maxReply / 4 < units.length then { p with error := some .einval }
    else
      match (p.putI32 alloc (Int32.ofNat units.length)).grow alloc (paddedSize units.length) with
      | (p, some off) => p.poke off (units.flatMap le16)
      | (p, none) => p

def putToken (alloc : Nat → Bool) (p : Parcel) (interface : List UInt8) : Parcel :=
  (((p.putI32 alloc (UInt32.toInt32 0x80000000)).putI32 alloc (-1)).putI32 alloc
    0x53595354).putStr16 alloc (some interface)

def getI32 (p : Parcel) : Int32 × Parcel :=
  if p.error.isSome then (0, p)
  else if p.len < p.pos + 4 then (0, { p with error := some .eproto })
  else
    match p.data.drop p.pos with
    | b₀ :: b₁ :: b₂ :: b₃ :: _ => ((be32 b₃ b₂ b₁ b₀).toInt32, { p with pos := p.pos + 4 })
    | _ => (0, p)

def getStr16 (alloc : Nat → Bool) (p : Parcel) : Option Out × Parcel :=
  match p.getI32 with
  | (units, p) =>
    if p.error.isSome ∨ units.toInt < 0 then (none, p)
    else
      let n := units.toInt.toNat
      if maxReply < n ∨ p.len < p.pos + paddedSize n then (none, { p with error := some .eproto })
      else if alloc (n * 3 + 1) then
        (some (((joinUnits (units16 n (p.data.drop p.pos))).foldl Out.putCodePoint
          { size := n * 3 + 1 }).put 0), { p with pos := p.pos + paddedSize n })
      else (none, { p with error := some .enomem })

end Parcel

end OniroSoc.Binder

import OniroSoc.Support.Bytes

/-!
# The launcher's SHA-256

`waydroidd` carries its own SHA-256.  Arrays are lists here, and a `const uint8_t *p` with its
`size_t n` is the list of the `n` bytes at `p`.
-/

namespace OniroSoc.Launcher
open OniroSoc.Support (be32)

def sha256K : List UInt32 :=
  [0x428a2f98, 0x71374491, 0xb5c0fbcf, 0xe9b5dba5, 0x3956c25b, 0x59f111f1, 0x923f82a4, 0xab1c5ed5,
   0xd807aa98, 0x12835b01, 0x243185be, 0x550c7dc3, 0x72be5d74, 0x80deb1fe, 0x9bdc06a7, 0xc19bf174,
   0xe49b69c1, 0xefbe4786, 0x0fc19dc6, 0x240ca1cc, 0x2de92c6f, 0x4a7484aa, 0x5cb0a9dc, 0x76f988da,
   0x983e5152, 0xa831c66d, 0xb00327c8, 0xbf597fc7, 0xc6e00bf3, 0xd5a79147, 0x06ca6351, 0x14292967,
   0x27b70a85, 0x2e1b2138, 0x4d2c6dfc, 0x53380d13, 0x650a7354, 0x766a0abb, 0x81c2c92e, 0x92722c85,
   0xa2bfe8a1, 0xa81a664b, 0xc24b8b70, 0xc76c51a3, 0xd192e819, 0xd6990624, 0xf40e3585, 0x106aa070,
   0x19a4c116, 0x1e376c08, 0x2748774c, 0x34b0bcb5, 0x391c0cb3, 0x4ed8aa4a, 0x5b9cca4f, 0x682e6ff3,
   0x748f82ee, 0x78a5636f, 0x84c87814, 0x8cc70208, 0x90befffa, 0xa4506ceb, 0xbef9a3f7, 0xc67178f2]

def shaRor (x n : UInt32) : UInt32 := x >>> n ||| x <<< (32 - n)

def extendSchedule (w : List UInt32) (i : Nat) : List UInt32 :=
  let x := w.getD (i - 15) 0
  let y := w.getD (i - 2) 0
  let s0 := shaRor x 7 ^^^ shaRor x 18 ^^^ x >>> 3
  let s1 := shaRor y 17 ^^^ shaRor y 19 ^^^ y >>> 10
  w ++ [w.getD (i - 16) 0 + s0 + w.getD (i - 7) 0 + s1]

def blockSchedule (p : List UInt8) : List UInt32 :=
  (List.range' 16 48).foldl extendSchedule ((List.range 16).map fun i =>
    be32 (p.getD (4 * i) 0) (p.getD (4 * i + 1) 0) (p.getD (4 * i + 2) 0) (p.getD (4 * i + 3) 0))

structure Regs where
  (a b c d e f g h : UInt32)

def blockRound (w : List UInt32) (r : Regs) (i : Nat) : Regs :=
  let t1 := r.h + (shaRor r.e 6 ^^^ shaRor r.e 11 ^^^ shaRor r.e 25) +
    ((r.e &&& r.f) ^^^ (~~~r.e &&& r.g)) + sha256K.getD i 0 + w.getD i 0
  let t2 := (shaRor r.a 2 ^^^ shaRor r.a 13 ^^^ shaRor r.a 22) +
    ((r.a &&& r.b) ^^^ (r.a &&& r.c) ^^^ (r.b &&& r.c))
  { h := r.g, g := r.f, f := r.e, e := r.d + t1, d := r.c, c := r.b, b := r.a, a := t1 + t2 }

def sha256Block (h : Vector UInt32 8) (p : List UInt8) : Vector UInt32 8 :=
  let r := (List.range 64).foldl (blockRound (blockSchedule p))
    ⟨h[0], h[1], h[2], h[3], h[4], h[5], h[6], h[7]⟩
  #v[h[0] + r.a, h[1] + r.b, h[2] + r.c, h[3] + r.d, h[4] + r.e, h[5] + r.f, h[6] + r.g, h[7] + r.h]

structure Sha256 where
  h : Vector UInt32 8
  len : UInt64
  buf : List UInt8
  fill : Nat
  buf_length : buf.length = 64
  fill_lt : fill < 64

def sha256Iv : Vector UInt32 8 :=
  #v[0x6a09e667, 0xbb67ae85, 0x3c6ef372, 0xa54ff53a, 0x510e527f, 0x9b05688c, 0x1f83d9ab, 0x5be0cd19]

def sha256Init (buf : Vector UInt8 64) : Sha256 where
  h := sha256Iv
  len := 0
  buf := buf.toList
  fill := 0
  buf_length := by simp
  fill_lt := by decide

def Sha256.store (s : Sha256) (bs : List UInt8) (hbs : bs.length ≤ 64 - s.fill) : Sha256 :=
  let buf := s.buf.take s.fill ++ bs ++ s.buf.drop (s.fill + bs.length)
  have hbuf : buf.length = 64 := by
    have := s.fill_lt
    simp only [buf, List.length_append, List.length_take, List.length_drop, s.buf_length]
    omega
  if h : s.fill + bs.length = 64 then
    { s with h := sha256Block s.h buf, buf, fill := 0, buf_length := hbuf, fill_lt := by decide }
  else
    { s with
      buf, fill := s.fill + bs.length, buf_length := hbuf
      fill_lt := by have := s.fill_lt; omega }

def sha256UpdateLoop (s : Sha256) (p : List UInt8) : Sha256 :=
  if p.length = 0 then s
  else if s.fill = 0 ∧ 64 ≤ p.length then
    sha256UpdateLoop { s with h := sha256Block s.h (p.take 64) } (p.drop 64)
  else
    let take := min (64 - s.fill) p.length
    sha256UpdateLoop (s.store (p.take take) (by simp; omega)) (p.drop take)
termination_by p.length
decreasing_by
  · simp only [List.length_drop]
    omega
  · have := s.fill_lt
    simp only [List.length_drop]
    omega

def sha256Update (s : Sha256) (p : List UInt8) : Sha256 :=
  sha256UpdateLoop { s with len := s.len + UInt64.ofNat p.length } p

def hex08 (v : UInt32) : List Char :=
  (List.range 8).map fun i => Nat.digitChar (v.toNat / 16 ^ (7 - i) % 16)

def Sha256.pad (s : Sha256) : List UInt8 :=
  ((0x80 :: List.replicate 71 0).take ((if s.fill < 56 then 56 else 120) - s.fill))

def Sha256.lenb (s : Sha256) : List UInt8 :=
  let bits := s.len * 8
  (List.range 8).map fun i => (bits >>> UInt64.ofNat (56 - 8 * i)).toUInt8

def sha256Hex (s : Sha256) : List Char :=
  (sha256Update (sha256Update s s.pad) s.lenb).h.toList.flatMap hex08

end OniroSoc.Launcher

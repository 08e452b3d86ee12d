import OniroSoc.Support.Absorb
import OniroSoc.Support.Bytes

/-!
# Support — SHA-256 as FIPS 180-4 defines it

The functions of §4.1.2, the constants of §4.2.2 and §5.3.3 from the primes they are taken from, the
padding of §5.1.1 and the computation of §6.2.2, for messages of whole bytes.
-/

namespace OniroSoc.Support.Fips180

def rotr (n x : UInt32) : UInt32 := x >>> n ||| x <<< (32 - n)

def ch (x y z : UInt32) : UInt32 := (x &&& y) ^^^ (~~~x &&& z)

def maj (x y z : UInt32) : UInt32 := (x &&& y) ^^^ (x &&& z) ^^^ (y &&& z)

def bigSigma0 (x : UInt32) : UInt32 := rotr 2 x ^^^ rotr 13 x ^^^ rotr 22 x

def bigSigma1 (x : UInt32) : UInt32 := rotr 6 x ^^^ rotr 11 x ^^^ rotr 25 x

def smallSigma0 (x : UInt32) : UInt32 := rotr 7 x ^^^ rotr 18 x ^^^ x >>> 3

def smallSigma1 (x : UInt32) : UInt32 := rotr 17 x ^^^ rotr 19 x ^^^ x >>> 10

def primes : List Nat :=
  (List.range 312).filter fun p => 2 ≤ p && (List.range' 2 (p - 2)).all fun d => p % d != 0

def rootBits (k p : Nat) : UInt32 := UInt32.ofNat (Nat.nthRoot k (p * 2 ^ (32 * k)))

def roundConstant (t : Nat) : UInt32 := rootBits 3 (primes.getD t 0)

def initialHash : Vector UInt32 8 := Vector.ofFn fun j => rootBits 2 (primes.getD j 0)

theorem exists_zeroBits (l : Nat) : ∃ k, (l + 1 + k) % 512 = 448 :=
  ⟨447 + (512 - l % 512), by omega⟩

def zeroBits (l : Nat) : Nat := Nat.find (exists_zeroBits l)

theorem zeroBits_bytes (n : Nat) : zeroBits (8 * n) = 8 * ((119 - n % 64) % 64) + 7 := by
  rw [zeroBits, Nat.find_eq_iff]
  refine ⟨by omega, fun k hk => ?_⟩
  omega

def be64 (n : Nat) : List UInt8 := (List.range 8).map fun i => UInt8.ofNat (n / 2 ^ (56 - 8 * i))

/-- The padding of a message of `n` bytes: the bit one, the zero bits, and the length in bits. -/
def padding (n : Nat) : List UInt8 :=
  0x80 :: List.replicate (zeroBits (8 * n) / 8) 0 ++ be64 (8 * n)

def pad (m : List UInt8) : List UInt8 := m ++ padding m.length

def schedule (m : List UInt8) (t : Nat) : UInt32 :=
  if t < 16 then be32 (m.getD (4 * t) 0) (m.getD (4 * t + 1) 0) (m.getD (4 * t + 2) 0)
    (m.getD (4 * t + 3) 0)
  else smallSigma1 (schedule m (t - 2)) + schedule m (t - 7) + smallSigma0 (schedule m (t - 15)) +
    schedule m (t - 16)

structure Work where
  (a b c d e f g h : UInt32)

def round (w : Nat → UInt32) (v : Work) (t : Nat) : Work :=
  let t₁ := v.h + bigSigma1 v.e + ch v.e v.f v.g + roundConstant t + w t
  let t₂ := bigSigma0 v.a + maj v.a v.b v.c
  { h := v.g, g := v.f, f := v.e, e := v.d + t₁, d := v.c, c := v.b, b := v.a, a := t₁ + t₂ }

def Work.ofHash (H : Vector UInt32 8) : Work :=
  ⟨H.get 0, H.get 1, H.get 2, H.get 3, H.get 4, H.get 5, H.get 6, H.get 7⟩

def Work.addTo (v : Work) (H : Vector UInt32 8) : Vector UInt32 8 :=
  #v[v.a + H.get 0, v.b + H.get 1, v.c + H.get 2, v.d + H.get 3, v.e + H.get 4, v.f + H.get 5,
    v.g + H.get 6, v.h + H.get 7]

def compress (H : Vector UInt32 8) (m : List UInt8) : Vector UInt32 8 :=
  ((List.range 64).foldl (round (schedule m)) (Work.ofHash H)).addTo H

def hash (m : List UInt8) : Vector UInt32 8 := (absorb compress 64 initialHash (pad m)).1

def hexBytes (bs : List UInt8) : List Char :=
  bs.flatMap fun b => [Nat.digitChar (b.toNat / 16), Nat.digitChar (b.toNat % 16)]

def hexDigest (m : List UInt8) : List Char := hexBytes ((hash m).toList.flatMap bytes32)

end OniroSoc.Support.Fips180

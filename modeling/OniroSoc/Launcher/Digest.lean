import OniroSoc.Support.Fips180
import OniroSoc.Launcher.Sha256

/-!
# The launcher's digests are SHA-256

After any sequence of updates the state is what absorbing the whole message leaves (`Absorbed`),
whatever the pieces were; the padding `sha256Hex` feeds is then the standard's for that message's
length.
-/

namespace OniroSoc.Launcher
open Support
open OniroSoc.Support.Fips180 (schedule smallSigma0 smallSigma1 compress Work)

theorem primes_eq : Fips180.primes = [ 2, 3, 5, 7, 11, 13, 17, 19, 23, 29, 31, 37, 41, 43, 47, 53, 59, 61, 67,
      71, 73, 79, 83, 89, 97, 101, 103, 107, 109, 113, 127, 131, 137, 139, 149, 151, 157, 163, 167,
      173, 179, 181, 191, 193, 197, 199, 211, 223, 227, 229, 233, 239, 241, 251, 257, 263, 269, 271,
      277, 281, 283, 293, 307, 311] := by
  decide +kernel

theorem sha256K_eq_roots : sha256K = Fips180.primes.map (Fips180.rootBits 3) := by
  rw [primes_eq]
  decide +kernel

theorem sha256Iv_eq_roots : sha256Iv = Fips180.initialHash := by
  unfold Fips180.initialHash
  rw [primes_eq]
  decide +kernel

variable {i : Nat}

theorem sha256K_getD (hi : i < 64) : sha256K.getD i 0 = Fips180.roundConstant i := by
  have hp : i < Fips180.primes.length := by rw [primes_eq]; exact hi
  simp [sha256K_eq_roots, Fips180.roundConstant, List.getD_eq_getElem?_getD, hp]

theorem getD_map_range {f : Nat → UInt32} {n : Nat} (hi : i < n) :
    ((List.range n).map f).getD i 0 = f i := by
  simp [List.getD_eq_getElem?_getD, hi]

theorem extendSchedule_eq (p : List UInt8) {t : Nat} (ht : 16 ≤ t) :
    extendSchedule ((List.range t).map (schedule p)) t = (List.range (t + 1)).map (schedule p) := by
  rw [List.range_succ, List.map_append, List.map_singleton, schedule, if_neg (by omega)]
  unfold extendSchedule
  simp only [getD_map_range (show t - 15 < t by omega), getD_map_range (show t - 2 < t by omega),
    getD_map_range (show t - 16 < t by omega), getD_map_range (show t - 7 < t by omega)]
  congr 2
  -- the source adds the four words in another order
  show _ + smallSigma0 _ + _ + smallSigma1 _ = _
  ac_rfl

theorem foldl_extendSchedule (p : List UInt8) (n : Nat) :
    (List.range' 16 n).foldl extendSchedule ((List.range 16).map (schedule p)) =
      (List.range (16 + n)).map (schedule p) := by
  induction n with
  | zero => rfl
  | succ n ih =>
    rw [List.range'_concat, List.foldl_append, ih, Nat.one_mul]
    exact extendSchedule_eq p (by omega)

theorem blockSchedule_eq (p : List UInt8) : blockSchedule p = (List.range 64).map (schedule p) := by
  rw [← foldl_extendSchedule p 48, blockSchedule]
  congr 1
  refine List.map_congr_left fun i hi => ?_
  rw [schedule, if_pos (List.mem_range.mp hi)]

def Regs.work (r : Regs) : Work := ⟨r.a, r.b, r.c, r.d, r.e, r.f, r.g, r.h⟩

theorem blockRound_work (p : List UInt8) (r : Regs) (hi : i < 64) :
    (blockRound (blockSchedule p) r i).work = Fips180.round (schedule p) r.work i := by
  simp only [blockRound, Regs.work, Fips180.round, sha256K_getD hi, blockSchedule_eq,
    getD_map_range hi]
  rfl

theorem foldl_blockRound_work (p : List UInt8) (r : Regs) {n : Nat} (hn : n ≤ 64) :
    ((List.range n).foldl (blockRound (blockSchedule p)) r).work =
      (List.range n).foldl (Fips180.round (schedule p)) r.work := by
  induction n with
  | zero => rfl
  | succ n ih =>
    rw [List.range_succ, List.foldl_append, List.foldl_append, ← ih (by omega)]
    exact blockRound_work p _ (by omega)

theorem add_regs_eq (h : Vector UInt32 8) (r : Regs) : #v[h.get 0 + r.a, h.get 1 + r.b, h.get 2 + r.c,
    h.get 3 + r.d, h.get 4 + r.e, h.get 5 + r.f, h.get 6 + r.g, h.get 7 + r.h] =
    r.work.addTo h := by
  simp only [Regs.work, Work.addTo, UInt32.add_comm]

theorem sha256Block_eq (h : Vector UInt32 8) (p : List UInt8) : sha256Block h p = compress h p :=
  (add_regs_eq h _).trans (congrArg (Work.addTo · h) (foldl_blockRound_work p _ (Nat.le_refl 64)))

namespace Sha256

def pending (s : Sha256) : List UInt8 := s.buf.take s.fill

@[simp] theorem length_pending (s : Sha256) : s.pending.length = s.fill := by
  have := s.fill_lt
  simp only [pending, List.length_take, s.buf_length]
  omega

theorem store_len (s : Sha256) (bs : List UInt8) (hbs : bs.length ≤ 64 - s.fill) :
    (s.store bs hbs).len = s.len := by
  unfold store
  dsimp only
  split <;> rfl

theorem store_absorbs (s : Sha256) (bs : List UInt8) (hbs : bs.length ≤ 64 - s.fill) :
    absorb compress 64 s.h (s.pending ++ bs) = ((s.store bs hbs).h, (s.store bs hbs).pending) := by
  have hfill := s.fill_lt
  have hlen : (s.pending ++ bs).length = s.fill + bs.length := by simp
  unfold store
  dsimp only
  split
  case isTrue h =>
    -- the buffer is full: nothing of its old content is left behind it
    have hbuf : s.buf.take s.fill ++ bs ++ s.buf.drop (s.fill + bs.length) = s.pending ++ bs := by
      rw [h, List.drop_of_length_le (by rw [s.buf_length]), List.append_nil, pending]
    have habs : absorb compress 64 s.h (s.pending ++ bs) = (compress s.h (s.pending ++ bs), []) :=
      by
      rw [← List.append_nil (s.pending ++ bs), absorb_block (by omega), List.append_nil, absorb_short (by simp)]
    rw [habs]
    simp only [pending, List.take_zero, sha256Block_eq] at hbuf ⊢
    rw [hbuf]
  case isFalse h =>
    rw [absorb_short (by omega)]
    congr 1
    exact (List.take_left' hlen).symm

end Sha256

theorem sha256UpdateLoop_len (s : Sha256) (p : List UInt8) :
    (sha256UpdateLoop s p).len = s.len := by
  fun_induction sha256UpdateLoop s p with
  | case1 => rfl
  | case2 s p hp h ih => exact ih
  | case3 s p hp h take ih => rw [ih, Sha256.store_len]

theorem sha256UpdateLoop_absorbs (s : Sha256) (p : List UInt8) :
    absorb compress 64 s.h (s.pending ++ p) =
      ((sha256UpdateLoop s p).h, (sha256UpdateLoop s p).pending) := by
  fun_induction sha256UpdateLoop s p with
  | case1 s p hp =>
    have hfill := s.fill_lt
    rw [List.length_eq_zero_iff.mp hp, List.append_nil, absorb_short (by simpa using hfill)]
  | case2 s p hp h ih =>
    -- a block straight from the piece, with nothing pending
    have hpend : s.pending = [] := by simp [Sha256.pending, h.1]
    have hblock : (p.take 64).length = 64 := by simp [h.2]
    rw [← ih, hpend, List.nil_append, ← List.take_append_drop 64 p, absorb_block hblock,
      List.take_append_drop, sha256Block_eq]
    simp only [Sha256.pending, h.1, List.take_zero, List.nil_append]
  | case3 s p hp h take ih =>
    have hsplit : s.pending ++ p = s.pending ++ p.take take ++ p.drop take := by
      rw [List.append_assoc, List.take_append_drop]
    have hle : (p.take take).length ≤ 64 - s.fill := by simp [take]
    rw [hsplit, absorb_append, Sha256.store_absorbs s (p.take take) hle, ih]

structure Absorbed (s : Sha256) (m : List UInt8) : Prop where
  absorbs : absorb compress 64 Fips180.initialHash m = (s.h, s.pending)
  len : s.len = UInt64.ofNat m.length

theorem absorbed_init (buf : Vector UInt8 64) : Absorbed (sha256Init buf) [] where
  absorbs := by
    rw [absorb_short (by decide), ← sha256Iv_eq_roots]
    simp [sha256Init, Sha256.pending]
  len := rfl

variable {s : Sha256} {m : List UInt8}

namespace Absorbed

theorem update (h : Absorbed s m) (p : List UInt8) :
    Absorbed (sha256Update s p) (m ++ p) where
  absorbs := by
    rw [absorb_append, h.absorbs]
    exact sha256UpdateLoop_absorbs { s with len := s.len + UInt64.ofNat p.length } p
  len := by
    rw [sha256Update, sha256UpdateLoop_len, h.len, List.length_append, UInt64.ofNat_add]

theorem foldl (h : Absorbed s m)
    (ps : List (List UInt8)) : Absorbed (ps.foldl sha256Update s) (m ++ ps.flatten) := by
  induction ps generalizing s m with
  | nil => simpa using h
  | cons p ps ih =>
    rw [List.flatten_cons, ← List.append_assoc]
    exact ih (h.update p)

theorem fill (h : Absorbed s m) : s.fill = m.length % 64 := by
  rw [← s.length_pending, ← length_absorb Fips180.initialHash m (f := compress), h.absorbs]

theorem pad (h : Absorbed s m) :
    s.pad = 0x80 :: List.replicate (Fips180.zeroBits (8 * m.length) / 8) 0 := by
  have hm : m.length % 64 < 64 := Nat.mod_lt _ (by decide)
  have hlen : (if m.length % 64 < 56 then 56 else 120) - m.length % 64 =
      (Fips180.zeroBits (8 * m.length) / 8) + 1 := by
    rw [Fips180.zeroBits_bytes]
    split <;> omega
  have hz : Fips180.zeroBits (8 * m.length) / 8 < 64 := by
    rw [Fips180.zeroBits_bytes]
    omega
  rw [Sha256.pad, h.fill, hlen, List.take_succ_cons, List.take_replicate]
  congr 2
  omega

theorem lenb (h : Absorbed s m) (hm : m.length < 2 ^ 61) :
    s.lenb = Fips180.be64 (8 * m.length) := by
  -- below `2 ^ 61` bytes the length in bits fits its 64-bit counter
  have hbits : (s.len * 8).toNat = 8 * m.length := by
    rw [h.len, UInt64.toNat_mul, UInt64.toNat_ofNat']
    simp
    omega
  refine List.map_congr_left fun i hi => ?_
  have hi8 := List.mem_range.mp hi
  apply UInt8.toNat_inj.mp
  rw [UInt64.toNat_toUInt8, UInt64.toNat_shiftRight, hbits, Nat.shiftRight_eq_div_pow,
    UInt64.toNat_ofNat', UInt8.toNat_ofNat']
  congr 3
  omega

theorem hex_eq {s s' : Sha256} (h : Absorbed s m)
    (h' : Absorbed s' m) : sha256Hex s = sha256Hex s' := by
  have hpad : s.pad = s'.pad := by rw [Sha256.pad, Sha256.pad, h.fill, h'.fill]
  have hlenb : s.lenb = s'.lenb := by rw [Sha256.lenb, Sha256.lenb, h.len, h'.len]
  have hend := ((h.update s.pad).update s.lenb).absorbs
  have hend' := ((h'.update s'.pad).update s'.lenb).absorbs
  rw [hpad, hlenb, hend'] at hend
  rw [sha256Hex, sha256Hex, hpad, hlenb, (Prod.mk.inj hend).1]

end Absorbed

theorem hex08_eq (v : UInt32) : hex08 v = Fips180.hexBytes (bytes32 v) := by
  have h8 : List.range 8 = [0, 1, 2, 3, 4, 5, 6, 7] := rfl
  have high : ∀ n : Nat, n % 256 / 16 = n / 16 % 16 := by omega
  have low : ∀ n : Nat, n % 256 % 16 = n % 16 := by omega
  simp only [hex08, h8, Fips180.hexBytes, bytes32, List.flatMap_cons, List.flatMap_nil,
    List.map_cons, List.map_nil, List.cons_append, List.nil_append, UInt32.toNat_toUInt8,
    UInt32.toNat_shiftRight, UInt32.reduceToNat, Nat.reduceMod, Nat.shiftRight_eq_div_pow,
    Nat.reducePow, Nat.reduceSub, high, low, Nat.div_div_eq_div_mul, Nat.reduceMul, Nat.div_one]

/-- **Image hashing.** However a message is cut into updates, `sha256_hex` pads as the standard does
and prints the standard's digest in lower-case hexadecimal. -/
theorem sha256_digest (buf : Vector UInt8 64) {m : List UInt8} {ps : List (List UInt8)}
    (hps : ps.flatten = m) (hm : m.length < 2 ^ 61) :
    (ps.foldl sha256Update (sha256Init buf)).pad ++ (ps.foldl sha256Update (sha256Init buf)).lenb =
      Fips180.padding m.length ∧
    sha256Hex (ps.foldl sha256Update (sha256Init buf)) = Fips180.hexDigest m := by
  have h : Absorbed (ps.foldl sha256Update (sha256Init buf)) m := by
    rw [← hps]
    exact (absorbed_init buf).foldl ps
  generalize ps.foldl sha256Update (sha256Init buf) = s at h ⊢
  have hpad : s.pad ++ s.lenb = Fips180.padding m.length := by
    rw [h.pad, h.lenb hm, Fips180.padding]
  refine ⟨hpad, ?_⟩
  -- the two updates of `sha256_hex` absorb the padded message, which leaves nothing over
  have hend := ((h.update s.pad).update s.lenb).absorbs
  rw [List.append_assoc, hpad] at hend
  have hhash : (sha256Update (sha256Update s s.pad) s.lenb).h = Fips180.hash m := by
    rw [Fips180.hash, Fips180.pad, hend]
  rw [sha256Hex, hhash, Fips180.hexDigest]
  simp only [Fips180.hexBytes, List.flatMap_assoc]
  exact List.flatMap_congr fun v _ => hex08_eq v

theorem sha256_digest_abc :
    sha256Hex ([[0x61], [], [0x62, 0x63]].foldl sha256Update (sha256Init (Vector.replicate 64 0))) =
      Fips180.hexDigest [0x61, 0x62, 0x63] :=
  (sha256_digest _ rfl (by decide)).2

end OniroSoc.Launcher

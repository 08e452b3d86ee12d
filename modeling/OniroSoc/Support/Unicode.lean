import Mathlib.Tactic

/-!
# Support — Unicode transformation formats

A scalar value and its forms in UTF-8 (`String.utf8EncodeChar`) and UTF-16 (`utf16`).  The lemmas of
the first section turn masks, tags and shifts into arithmetic.
-/

namespace OniroSoc.Support
open List

theorem continuation_iff : ∀ n < 256, (n &&& 0xC0 = 0x80 ↔ 0x80 ≤ n ∧ n < 0xC0) := by decide +kernel

theorem lead2_iff : ∀ n < 256, (n &&& 0xE0 = 0xC0 ↔ 0xC0 ≤ n ∧ n < 0xE0) := by decide +kernel

theorem lead3_iff : ∀ n < 256, (n &&& 0xF0 = 0xE0 ↔ 0xE0 ≤ n ∧ n < 0xF0) := by decide +kernel

theorem lead4_iff : ∀ n < 256, (n &&& 0xF8 = 0xF0 ↔ 0xF0 ≤ n ∧ n < 0xF8) := by decide +kernel

theorem lead2_bits : ∀ n < 256, 0xC0 ≤ n ∧ n < 0xE0 → n &&& 0x1F = n - 0xC0 := by decide +kernel

theorem lead3_bits : ∀ n < 256, 0xE0 ≤ n ∧ n < 0xF0 → n &&& 0x0F = n - 0xE0 := by decide +kernel

theorem lead4_bits : ∀ n < 256, 0xF0 ≤ n ∧ n < 0xF8 → n &&& 0x07 = n - 0xF0 := by decide +kernel

theorem tag_or {k t n : Nat} (h : n < 2 ^ k) : 2 ^ k * t ||| n = n + 2 ^ k * t := by
  rw [← Nat.two_pow_add_eq_or_of_lt h, Nat.add_comm]

theorem shift_or {a n : Nat} (h : n < 64) : a <<< 6 ||| n = a * 64 + n := by
  rw [← Nat.shiftLeft_add_eq_or_of_lt (i := 6) h, Nat.shiftLeft_eq]

theorem mask6 (n : Nat) : n &&& 0x3F = n % 64 := Nat.and_two_pow_sub_one_eq_mod n 6

theorem mask10 (n : Nat) : n &&& 0x3FF = n % 1024 := Nat.and_two_pow_sub_one_eq_mod n 10

theorem scalar_cases (c : Char) : c.toNat < 0xD800 ∨ 0xDFFF < c.toNat ∧ c.toNat < 0x110000 := c.valid

def utf16 (c : Char) : List Nat :=
  if c.toNat < 0x10000 then [c.toNat]
  else [0xD800 + (c.toNat - 0x10000) / 1024, 0xDC00 + (c.toNat - 0x10000) % 1024]

def utf8 (cs : List Char) : List UInt8 := cs.flatMap String.utf8EncodeChar

/-- The three bytes of a value between `0x800` and `0xFFFF`. -/
def bytes3 (v : Nat) : List UInt8 :=
  [UInt8.ofNat (v / 4096 % 16 + 224), UInt8.ofNat (v / 64 % 64 + 128), UInt8.ofNat (v % 64 + 128)]

/-- A text in UTF-16 and its bytes: the scalar values are in UTF-8, and a surrogate that belongs to
no pair has three bytes of its own. -/
inductive Transcodes : List Nat → List UInt8 → Prop where
  | nil : Transcodes [] []
  | scalar (c : Char) {us : List Nat} {bs : List UInt8} (h : Transcodes us bs) :
    Transcodes (utf16 c ++ us) (String.utf8EncodeChar c ++ bs)
  | lone {u : Nat} {us : List Nat} {bs : List UInt8} (hu : 0xD800 ≤ u ∧ u ≤ 0xDFFF)
    (hpair : ∀ lo ∈ us.head?, ¬ (u ≤ 0xDBFF ∧ 0xDC00 ≤ lo ∧ lo ≤ 0xDFFF))
    (h : Transcodes us bs) : Transcodes (u :: us) (bytes3 u ++ bs)

theorem surrogates {v : Nat} (h : 0x10000 ≤ v) (h' : v < 0x110000) :
    0xD800 ≤ 0xD800 + (v - 0x10000) / 1024 ∧ 0xD800 + (v - 0x10000) / 1024 ≤ 0xDBFF ∧
    0xDC00 ≤ 0xDC00 + (v - 0x10000) % 1024 ∧ 0xDC00 + (v - 0x10000) % 1024 ≤ 0xDFFF ∧
    0x10000 + (v - 0x10000) / 1024 * 1024 + (v - 0x10000) % 1024 = v := by
  omega

theorem utf16_lt (c : Char) : ∀ u ∈ utf16 c, u < 0x10000 := by
  intro u hu
  have hc := scalar_cases c
  unfold utf16 at hu
  split_ifs at hu
  · rw [mem_singleton.mp hu]
    assumption
  · rcases mem_pair.mp hu with hu | hu
    · omega
    · omega

theorem utf8EncodeChar_length_le (c : Char) :
    (String.utf8EncodeChar c).length ≤ 3 * (utf16 c).length := by
  have hv : c.val.toNat = c.toNat := rfl
  unfold String.utf8EncodeChar utf16
  dsimp only
  rw [hv]
  split_ifs
  all_goals first | omega | simp

theorem utf8_length_le (cs : List Char) : (utf8 cs).length ≤ 3 * (cs.flatMap utf16).length := by
  induction cs with
  | nil => simp [utf8]
  | cons c cs ih =>
    have hc := utf8EncodeChar_length_le c
    simp only [utf8, flatMap_cons, length_append] at ih ⊢
    omega

def Continuation (b : UInt8) : Prop := 0x80 ≤ b.toNat ∧ b.toNat < 0xC0

instance (b : UInt8) : Decidable (Continuation b) := inferInstanceAs (Decidable (_ ∧ _))

def leadOf (b : UInt8) : Option (Nat × Nat) :=
  if b.toNat < 0x80 then some (0, b.toNat)
  else if b.toNat < 0xC0 then none
  else if b.toNat < 0xE0 then some (1, b.toNat - 0xC0)
  else if b.toNat < 0xF0 then some (2, b.toNat - 0xE0)
  else if b.toNat < 0xF8 then some (3, b.toNat - 0xF0)
  else none

def extend (cp : Nat) (conts : List UInt8) : Nat :=
  conts.foldl (fun cp b => cp * 64 + b.toNat % 64) cp

def Complete : List UInt8 → Prop
  | [] => False
  | b :: conts => (leadOf b).map Prod.fst = some conts.length ∧ ∀ c ∈ conts, Continuation c

instance : DecidablePred Complete
  | [] => inferInstanceAs (Decidable False)
  | _ :: _ => inferInstanceAs (Decidable (_ ∧ _))

def value : List UInt8 → Nat
  | [] => 0
  | b :: conts => extend (((leadOf b).map Prod.snd).getD 0) conts

def least : Nat → Nat
  | 0 | 1 => 0
  | 2 => 0x80
  | 3 => 0x800
  | _ => 0x10000

def NotScalar (v : Nat) : Prop := (0xD800 ≤ v ∧ v ≤ 0xDFFF) ∨ 0x110000 ≤ v

instance (v : Nat) : Decidable (NotScalar v) := inferInstanceAs (Decidable (_ ∨ _))

variable {t : List UInt8}

theorem Complete.cases (h : Complete t) :
    (∃ b, t = [b] ∧ b.toNat < 0x80) ∨
    (∃ b c, t = [b, c] ∧ 0xC0 ≤ b.toNat ∧ b.toNat < 0xE0 ∧ Continuation c) ∨
    (∃ b c d, t = [b, c, d] ∧ 0xE0 ≤ b.toNat ∧ b.toNat < 0xF0 ∧ Continuation c ∧ Continuation d) ∨
    ∃ b c d e,
      t = [b, c, d, e] ∧ 0xF0 ≤ b.toNat ∧ b.toNat < 0xF8 ∧ Continuation c ∧ Continuation d ∧
      Continuation e := by
  cases t with
  | nil => exact h.elim
  | cons b conts =>
    obtain ⟨hlead, hconts⟩ := h
    rw [leadOf] at hlead
    split_ifs at hlead with h₁ h₂ h₃ h₄ h₅
    · obtain rfl := length_eq_zero_iff.mp (Option.some.inj hlead).symm
      exact .inl ⟨b, rfl, h₁⟩
    · cases hlead
    · obtain ⟨c, rfl⟩ := length_eq_one_iff.mp (Option.some.inj hlead).symm
      exact .inr (.inl ⟨b, c, rfl, not_lt.mp h₂, h₃, hconts c (by simp)⟩)
    · obtain ⟨c, d, rfl⟩ := length_eq_two.mp (Option.some.inj hlead).symm
      exact .inr (.inr (.inl ⟨b, c, d, rfl, not_lt.mp h₃, h₄, hconts c (by simp), hconts d (by simp)⟩))
    · obtain ⟨c, d, e, rfl⟩ := length_eq_three.mp (Option.some.inj hlead).symm
      exact .inr (.inr (.inr ⟨b, c, d, e, rfl, not_lt.mp h₄, h₅, hconts c (by simp),
        hconts d (by simp), hconts e (by simp)⟩))
    · cases hlead

section Lead
variable {b c d e : UInt8}

theorem leadOf_one (h : b.toNat < 0x80) : leadOf b = some (0, b.toNat) := if_pos h

theorem leadOf_two (h : 0xC0 ≤ b.toNat) (h' : b.toNat < 0xE0) :
    leadOf b = some (1, b.toNat - 0xC0) := by
  rw [leadOf, if_neg (by omega), if_neg (by omega), if_pos h']

theorem leadOf_three (h : 0xE0 ≤ b.toNat) (h' : b.toNat < 0xF0) :
    leadOf b = some (2, b.toNat - 0xE0) := by
  rw [leadOf, if_neg (by omega), if_neg (by omega), if_neg (by omega), if_pos h']

theorem leadOf_four (h : 0xF0 ≤ b.toNat) (h' : b.toNat < 0xF8) :
    leadOf b = some (3, b.toNat - 0xF0) := by
  rw [leadOf, if_neg (by omega), if_neg (by omega), if_neg (by omega), if_neg (by omega), if_pos h']

theorem leadOf_none (h : 0x80 ≤ b.toNat ∧ b.toNat < 0xC0 ∨ 0xF8 ≤ b.toNat) : leadOf b = none := by
  rw [leadOf, if_neg (by omega)]
  rcases h with h | h
  · rw [if_pos h.2]
  · rw [if_neg (by omega), if_neg (by omega), if_neg (by omega), if_neg (by omega)]

variable {n : Nat}

theorem value_of_lead {conts : List UInt8} {bits : Nat} (h : leadOf b = some (n, bits)) :
    value (b :: conts) = extend bits conts := by
  rw [value, h]
  rfl

theorem value_one (h : b.toNat < 0x80) : value [b] = b.toNat := value_of_lead (leadOf_one h)

theorem value_two (h : 0xC0 ≤ b.toNat) (h' : b.toNat < 0xE0) :
    value [b, c] = (b.toNat - 0xC0) * 64 + c.toNat % 64 := value_of_lead (leadOf_two h h')

theorem value_three (h : 0xE0 ≤ b.toNat) (h' : b.toNat < 0xF0) :
    value [b, c, d] = ((b.toNat - 0xE0) * 64 + c.toNat % 64) * 64 + d.toNat % 64 :=
  value_of_lead (leadOf_three h h')

theorem value_four (h : 0xF0 ≤ b.toNat) (h' : b.toNat < 0xF8) : value [b, c, d, e] =
      (((b.toNat - 0xF0) * 64 + c.toNat % 64) * 64 + d.toNat % 64) * 64 + e.toNat % 64 :=
  value_of_lead (leadOf_four h h')

theorem eq_ofNat (h : b.toNat = n) : b = UInt8.ofNat n := by
  rw [← h, UInt8.ofNat_toNat]

theorem complete_of_lead {conts : List UInt8} {bits : Nat} (hlead : leadOf b = some (conts.length, bits))
    (hconts : ∀ c ∈ conts, Continuation c) : Complete (b :: conts) := ⟨by rw [hlead]; rfl, hconts⟩

end Lead

theorem complete_utf8EncodeChar (c : Char) :
    Complete (String.utf8EncodeChar c) ∧ value (String.utf8EncodeChar c) = c.toNat ∧
    least (String.utf8EncodeChar c).length ≤ c.toNat := by
  have hc := scalar_cases c
  have hv : c.val.toNat = c.toNat := rfl
  unfold String.utf8EncodeChar
  dsimp only
  rw [hv]
  generalize c.toNat = v at *
  have hbits : ∀ n, (UInt8.ofNat (n % 64 + 128)).toNat = n % 64 + 128 :=
    fun n => UInt8.toNat_ofNat_of_lt' (show _ < 256 by omega)
  have hcont : ∀ n, Continuation (UInt8.ofNat (n % 64 + 128)) := by
    intro n
    rw [Continuation, hbits]
    omega
  split_ifs with h₁ h₂ h₃
  · have hb : (UInt8.ofNat v).toNat = v := UInt8.toNat_ofNat_of_lt' (show v < 256 by omega)
    refine ⟨complete_of_lead (leadOf_one (by omega)) nofun, ?_, Nat.zero_le _⟩
    rw [value_one (by omega), hb]
  · have hb : (UInt8.ofNat (v / 64 % 32 + 192)).toNat = v / 64 % 32 + 192 :=
      UInt8.toNat_ofNat_of_lt' (show _ < 256 by omega)
    refine ⟨complete_of_lead (leadOf_two (by omega) (by omega)) ?_, ?_, ?_⟩
    · exact forall_mem_cons.mpr ⟨hcont v, nofun⟩
    · rw [value_two (by omega) (by omega), hb, hbits]
      omega
    · show 0x80 ≤ v
      omega
  · have hb : (UInt8.ofNat (v / 4096 % 16 + 224)).toNat = v / 4096 % 16 + 224 :=
      UInt8.toNat_ofNat_of_lt' (show _ < 256 by omega)
    refine ⟨complete_of_lead (leadOf_three (by omega) (by omega)) ?_, ?_, ?_⟩
    · exact forall_mem_cons.mpr ⟨hcont _, forall_mem_cons.mpr ⟨hcont v, nofun⟩⟩
    · rw [value_three (by omega) (by omega), hb, hbits, hbits]
      omega
    · show 0x800 ≤ v
      omega
  · have hb : (UInt8.ofNat (v / 262144 % 8 + 240)).toNat = v / 262144 % 8 + 240 :=
      UInt8.toNat_ofNat_of_lt' (show _ < 256 by omega)
    refine ⟨complete_of_lead (leadOf_four (by omega) (by omega)) ?_, ?_, ?_⟩
    · exact forall_mem_cons.mpr ⟨hcont _, forall_mem_cons.mpr ⟨hcont _, forall_mem_cons.mpr ⟨hcont v, nofun⟩⟩⟩
    · rw [value_four (by omega) (by omega), hb, hbits, hbits, hbits]
      omega
    · show 0x10000 ≤ v
      omega

theorem Complete.cons_of_append {b : UInt8} {s r : List UInt8} (h : Complete t)
    (ht : b :: s = t ++ r) : ∃ conts, t = b :: conts ∧ s = conts ++ r := by
  cases t with
  | nil => exact h.elim
  | cons b' conts =>
    obtain ⟨rfl, hs⟩ := List.cons.inj ht
    exact ⟨conts, rfl, hs⟩

theorem Complete.not_continuation {b : UInt8} {conts : List UInt8} (h : Complete (b :: conts)) :
    ¬ Continuation b := by
  intro hcont
  have hlen := h.1
  rw [leadOf_none (.inl hcont)] at hlen
  cases hlen

theorem exists_char {v : Nat} (h : ¬ NotScalar v) : ∃ c : Char, c.toNat = v := by
  have hvalid : v.isValidChar := by
    rw [NotScalar] at h
    rcases Nat.lt_or_ge v 0xD800 with hlt | hge
    · exact .inl hlt
    · exact .inr ⟨by omega, by omega⟩
  exact ⟨Char.ofNatAux v hvalid, rfl⟩

/-- **A complete sequence is the form of a scalar value** exactly when its value is one and needs
it. -/
theorem encodes_iff (h : Complete t) :
    (∃ c, t = String.utf8EncodeChar c) ↔ ¬ NotScalar (value t) ∧ least t.length ≤ value t := by
  constructor
  · rintro ⟨c, rfl⟩
    obtain ⟨-, hvalue, hleast⟩ := complete_utf8EncodeChar c
    have hc := scalar_cases c
    rw [hvalue, NotScalar]
    exact ⟨by omega, hleast⟩
  · rintro ⟨hscalar, hleast⟩
    obtain ⟨c, hc⟩ := exists_char hscalar
    have hv : c.val.toNat = value t := hc
    refine ⟨c, ?_⟩
    unfold String.utf8EncodeChar
    dsimp only
    rw [hv]
    clear hc hv
    -- the length of the sequence decides which branch of the encoder is taken
    rcases h.cases with ⟨b, rfl, hb⟩ | ⟨b, x, rfl, hb, hb', hx⟩ | ⟨b, x, y, rfl, hb, hb', hx, hy⟩ |
      ⟨b, x, y, z, rfl, hb, hb', hx, hy, hz⟩
    · rw [value_one hb, if_pos (by omega), ← eq_ofNat rfl]
    · have hleast : 0x80 ≤ value [b, x] := hleast
      rw [Continuation] at hx
      rw [value_two hb hb'] at hleast ⊢
      rw [if_neg (by omega), if_pos (by omega)]
      exact congrArg₂ (fun b x => [b, x]) (eq_ofNat (by omega)) (eq_ofNat (by omega))
    · have hleast : 0x800 ≤ value [b, x, y] := hleast
      rw [Continuation] at hx hy
      rw [value_three hb hb'] at hleast ⊢
      rw [if_neg (by omega), if_neg (by omega), if_pos (by omega)]
      rw [← eq_ofNat (b := b) (by omega), ← eq_ofNat (b := x) (by omega), ← eq_ofNat (b := y) (by omega)]
    · have hleast : 0x10000 ≤ value [b, x, y, z] := hleast
      rw [Continuation] at hx hy hz
      rw [NotScalar] at hscalar
      rw [value_four hb hb'] at hleast hscalar ⊢
      rw [if_neg (by omega), if_neg (by omega), if_neg (by omega)]
      rw [← eq_ofNat (b := b) (by omega), ← eq_ofNat (b := x) (by omega),
        ← eq_ofNat (b := y) (by omega), ← eq_ofNat (b := z) (by omega)]

def le16 (u : Nat) : List UInt8 := [UInt8.ofNat (u % 256), UInt8.ofNat (u / 256)]

@[simp] theorem length_le16 (u : Nat) : (le16 u).length = 2 := rfl

theorem length_flatMap_le16 (us : List Nat) : (us.flatMap le16).length = 2 * us.length := by
  induction us with
  | nil => rfl
  | cons u us ih => simp [ih]; omega

def units16 : Nat → List UInt8 → List Nat
  | n + 1, b₀ :: b₁ :: bs => (b₀.toNat + 256 * b₁.toNat) :: units16 n bs
  | _, _ => []

theorem units16_lt (n : Nat) (bs : List UInt8) : ∀ u ∈ units16 n bs, u < 0x10000 := by
  fun_induction units16 n bs with
  | case1 n b₀ b₁ bs ih =>
    have h₀ := b₀.toNat_lt
    have h₁ := b₁.toNat_lt
    exact forall_mem_cons.mpr ⟨by omega, ih⟩
  | case2 => exact nofun

theorem units16_le16 {us : List Nat} (h : ∀ u ∈ us, u < 0x10000) (bs : List UInt8) :
    units16 us.length (us.flatMap le16 ++ bs) = us := by
  induction us with
  | nil => cases bs <;> rfl
  | cons u us ih =>
    obtain ⟨hu, hus⟩ := forall_mem_cons.mp h
    simp only [length_cons, flatMap_cons, le16, cons_append, nil_append, units16, ih hus, UInt8.toNat_ofNat']
    congr 1
    omega

end OniroSoc.Support

import OniroSoc.Binder.Parcel

/-!
# Parcel round trip

A string goes in as UTF-8, lies in the parcel as UTF-16 and comes out as UTF-8; in between are four
conversions, and each is compared with the transformation format it computes.
-/

namespace OniroSoc.Binder
open Support List

section Next
variable {s : List UInt8} {i : Nat}

theorem byteAt_getElem (h : i < s.length) : byteAt s i = s[i].toNat := by
  rw [byteAt, getD_eq_getElem?_getD, getElem?_eq_getElem h]
  rfl

theorem lt_of_continuation (h : ¬ byteAt s i &&& 0xC0 ≠ 0x80) : i < s.length := by
  by_contra hge
  apply h
  rw [byteAt, getD_eq_getElem?_getD, getElem?_eq_none (not_lt.mp hge)]
  decide

theorem utf8Tail_cases (n cp : Nat) (h : i ≤ s.length) :
    ∃ conts, s.drop i = conts ++ (utf8Tail s n i cp).2 ∧ (∀ c ∈ conts, Continuation c) ∧
      (conts.length = n ∧ (utf8Tail s n i cp).1 = extend cp conts ∨
       (utf8Tail s n i cp).1 = 0xFFFD ∧
       ∀ conts' r, s.drop i = conts' ++ r → conts'.length = n → ¬ ∀ c ∈ conts', Continuation c) :=
    by
  induction n generalizing i cp with
  | zero => exact ⟨[], rfl, nofun, .inl ⟨rfl, rfl⟩⟩
  | succ n ih =>
    rw [utf8Tail]
    split_ifs with hcont
    · refine ⟨[], rfl, nofun, .inr ⟨rfl, fun conts' r hdrop hlen hconts => hcont ?_⟩⟩
      obtain ⟨c, conts', rfl⟩ := exists_cons_of_length_eq_add_one hlen
      have hget : s[i]? = some c := by
        rw [← head?_drop, hdrop]
        rfl
      have hbyte : byteAt s i = c.toNat := by
        rw [byteAt, getD_eq_getElem?_getD, hget]
        rfl
      rw [hbyte, continuation_iff _ c.toNat_lt]
      exact hconts c (.head _)
    · have hlt := lt_of_continuation hcont
      have hbyte := byteAt_getElem hlt
      rw [not_not, hbyte, continuation_iff _ s[i].toNat_lt] at hcont
      rw [hbyte, mask6, shift_or (Nat.mod_lt _ (by norm_num)), drop_eq_getElem_cons hlt]
      obtain ⟨conts, hdrop, hconts, hvalue⟩ := ih (cp * 64 + s[i].toNat % 64) hlt
      refine ⟨s[i] :: conts, ?_, forall_mem_cons.mpr ⟨hcont, hconts⟩,
        hvalue.imp (fun h => ⟨congrArg (· + 1) h.1, h.2⟩) fun h => ⟨h.1, fun conts' r hdrop hlen hconts => ?_⟩⟩
      · rw [hdrop]
        rfl
      · obtain ⟨c, conts', rfl⟩ := exists_cons_of_length_eq_add_one hlen
        exact h.2 conts' r (List.cons.inj hdrop).2 (Nat.succ.inj hlen) (forall_mem_cons.mp hconts).2

theorem utf8Next_cases (b : UInt8) (s : List UInt8) :
    ∃ conts, s = conts ++ (utf8Next (b :: s)).2 ∧ (∀ c ∈ conts, Continuation c) ∧
      (Complete (b :: conts) ∧ (utf8Next (b :: s)).1 = value (b :: conts) ∨
       (utf8Next (b :: s)).1 = 0xFFFD ∧ ∀ t r, b :: s = t ++ r → ¬ Complete t) := by
  have hlt := b.toNat_lt
  have htail : ∀ {n bits},
    leadOf b = some (n, bits) → utf8Next (b :: s) = utf8Tail (b :: s) n 1 bits →
      ∃ conts, s = conts ++ (utf8Next (b :: s)).2 ∧ (∀ c ∈ conts, Continuation c) ∧
        (Complete (b :: conts) ∧ (utf8Next (b :: s)).1 = value (b :: conts) ∨
          (utf8Next (b :: s)).1 = 0xFFFD ∧ ∀ t r, b :: s = t ++ r → ¬ Complete t) := by
    intro n bits hlead hnext
    have hone : 1 ≤ (b :: s).length := Nat.succ_pos _
    obtain ⟨conts, hdrop, hconts, hvalue⟩ := utf8Tail_cases n bits hone
    rw [hnext]
    refine ⟨conts, hdrop, hconts,
      hvalue.imp (fun h => ⟨?_, ?_⟩) fun h => ⟨h.1, fun t r ht hcomplete => ?_⟩⟩
    · exact complete_of_lead (h.1 ▸ hlead) hconts
    · rw [h.2, value_of_lead hlead]
    · obtain ⟨conts', rfl, hs⟩ := hcomplete.cons_of_append ht
      have hlen := hcomplete.1
      rw [hlead] at hlen
      exact h.2 conts' r hs (Option.some.inj hlen).symm hcomplete.2
  have hb : byteAt (b :: s) 0 = b.toNat := rfl
  by_cases h1 : b.toNat < 0x80
  · have hnext : utf8Next (b :: s) = (b.toNat, s) := by
      rw [utf8Next, hb]
      exact if_pos h1
    rw [hnext]
    exact ⟨[], rfl, nofun, .inl ⟨complete_of_lead (leadOf_one h1) nofun, (value_one h1).symm⟩⟩
  by_cases h2 : 0xC0 ≤ b.toNat ∧ b.toNat < 0xE0
  · refine htail (leadOf_two h2.1 h2.2) ?_
    rw [utf8Next, hb]
    rw [if_neg h1, if_pos ((lead2_iff _ hlt).mpr h2), lead2_bits _ hlt h2]
  by_cases h3 : 0xE0 ≤ b.toNat ∧ b.toNat < 0xF0
  · refine htail (leadOf_three h3.1 h3.2) ?_
    rw [utf8Next, hb]
    rw [if_neg h1, if_neg (mt (lead2_iff _ hlt).mp h2), if_pos ((lead3_iff _ hlt).mpr h3),
      lead3_bits _ hlt h3]
  by_cases h4 : 0xF0 ≤ b.toNat ∧ b.toNat < 0xF8
  · refine htail (leadOf_four h4.1 h4.2) ?_
    rw [utf8Next, hb]
    rw [if_neg h1, if_neg (mt (lead2_iff _ hlt).mp h2), if_neg (mt (lead3_iff _ hlt).mp h3),
      if_pos ((lead4_iff _ hlt).mpr h4), lead4_bits _ hlt h4]
  · have hnext : utf8Next (b :: s) = (0xFFFD, s) := by
      rw [utf8Next, hb]
      rw [if_neg h1, if_neg (mt (lead2_iff _ hlt).mp h2), if_neg (mt (lead3_iff _ hlt).mp h3),
        if_neg (mt (lead4_iff _ hlt).mp h4)]
      rfl
    have hnone : leadOf b = none := leadOf_none (by omega)
    rw [hnext]
    refine ⟨[], rfl, nofun, .inr ⟨rfl, fun t r ht hcomplete => ?_⟩⟩
    obtain ⟨conts', rfl, -⟩ := hcomplete.cons_of_append ht
    have hlen := hcomplete.1
    rw [hnone] at hlen
    cases hlen

end Next

theorem utf8Next_utf8EncodeChar (c : Char) (rest : List UInt8) :
    utf8Next (String.utf8EncodeChar c ++ rest) = (c.toNat, rest) := by
  obtain ⟨hcomplete, hvalue, -⟩ := complete_utf8EncodeChar c
  obtain ⟨b, t, hbt⟩ := exists_cons_of_ne_nil (String.utf8EncodeChar_ne_nil (c := c))
  rw [hbt] at hcomplete hvalue ⊢
  obtain ⟨conts, hrest, -, ⟨hconts, hpoint⟩ | ⟨-, hnone⟩⟩ := utf8Next_cases b (t ++ rest)
  · -- the lead byte says how many bytes follow
    have hlen : t.length = conts.length := Option.some.inj (hcomplete.1.symm.trans hconts.1)
    obtain ⟨rfl, hnext⟩ := append_inj hrest hlen
    exact Prod.ext (hpoint.trans hvalue) hnext.symm
  · exact absurd hcomplete (hnone (b :: t) rest rfl)

theorem byteAt_utf8EncodeChar {c : Char} (h : c ≠ '\x00') (rest : List UInt8) :
    byteAt (String.utf8EncodeChar c ++ rest) 0 ≠ 0 := by
  obtain ⟨hcomplete, hvalue, -⟩ := complete_utf8EncodeChar c
  obtain ⟨b, t, hbt⟩ := exists_cons_of_ne_nil (String.utf8EncodeChar_ne_nil (c := c))
  rw [hbt] at hcomplete hvalue ⊢
  intro hb
  have hlead : leadOf b = some (0, 0) := by
    have hzero : b.toNat = 0 := hb
    rw [leadOf_one (by omega), hzero]
  have hlen := hcomplete.1
  rw [hlead] at hlen
  rw [length_eq_zero_iff.mp (Option.some.inj hlen).symm, value_of_lead hlead] at hvalue
  exact h (Char.toNat_inj.mp hvalue.symm)

variable {cs : List Char}

theorem codePoints_utf8 (h : ∀ c ∈ cs, c ≠ '\x00') : codePoints (utf8 cs) = cs.map Char.toNat := by
  suffices hloop : ∀ n, (utf8 cs).length ≤ n → codePointsLoop n (utf8 cs) = cs.map Char.toNat from
    hloop _ le_rfl
  induction cs with
  | nil =>
    intro n _
    cases n <;> rfl
  | cons c cs ih =>
    obtain ⟨hc, hcs⟩ := forall_mem_cons.mp h
    intro n hn
    have hlen : (utf8 (c :: cs)).length = (String.utf8EncodeChar c).length + (utf8 cs).length := by
      rw [utf8, flatMap_cons, length_append]
      rfl
    have hpos : 0 < (String.utf8EncodeChar c).length :=
      length_pos_iff.mpr String.utf8EncodeChar_ne_nil
    obtain ⟨n, rfl⟩ : ∃ m, n = m + 1 := ⟨n - 1, by omega⟩
    rw [show utf8 (c :: cs) = String.utf8EncodeChar c ++ utf8 cs from rfl, codePointsLoop,
      if_neg (byteAt_utf8EncodeChar hc _), utf8Next_utf8EncodeChar, ih hcs n (by omega)]
    rfl

theorem unitsOf_eq (c : Char) : unitsOf c.toNat = utf16 c := by
  have hc := scalar_cases c
  unfold unitsOf utf16
  split_ifs with h₁ h₂
  · omega
  · have hhi : 0xD800 ||| (c.toNat - 0x10000) / 1024 = (c.toNat - 0x10000) / 1024 + 0xD800 :=
      tag_or (k := 10) (t := 54) (by omega)
    have hlo : 0xDC00 ||| (c.toNat - 0x10000) % 1024 = (c.toNat - 0x10000) % 1024 + 0xDC00 :=
      tag_or (k := 10) (t := 55) (by omega)
    rw [Nat.shiftRight_eq_div_pow, mask10, hhi, hlo, Nat.add_comm, Nat.add_comm 0xDC00]
  · rfl
  · omega

theorem codePoints_units (h : ∀ c ∈ cs, c ≠ '\x00') :
    (codePoints (utf8 cs)).flatMap unitsOf = cs.flatMap utf16 := by
  rw [codePoints_utf8 h, flatMap_map]
  exact flatMap_congr fun c _ => unitsOf_eq c

theorem joinUnits_single {u : Nat} (h : ¬ (0xD800 ≤ u ∧ u ≤ 0xDBFF)) (us : List Nat) :
    joinUnits (u :: us) = u :: joinUnits us := by
  cases us with
  | nil => rfl
  | cons lo us =>
    rw [joinUnits, if_neg]
    exact fun hp => h ⟨hp.1, hp.2.1⟩

theorem joinUnits_utf16 (cs : List Char) : joinUnits (cs.flatMap utf16) = cs.map Char.toNat := by
  induction cs with
  | nil => rfl
  | cons c cs ih =>
    have hc := scalar_cases c
    rw [flatMap_cons, map_cons, ← ih]
    unfold utf16
    split_ifs with hlt
    · exact joinUnits_single (by omega) _
    · obtain ⟨h₁, h₂, h₃, h₄, hv⟩ := surrogates (v := c.toNat) (by omega) (by omega)
      rw [cons_append, cons_append, nil_append, joinUnits, if_pos ⟨h₁, h₂, h₃, h₄⟩, Nat.shiftLeft_eq, show 2 ^
        10 = 1024 from rfl, Nat.add_sub_cancel_left, Nat.add_sub_cancel_left, hv]

/-- `o'` is `o` with the bytes `bs` put behind, which stay inside the allocation if they fit. -/
structure Fills (o : Out) (bs : List UInt8) (o' : Out) : Prop where
  bytes : o'.bytes = o.bytes ++ bs
  size : o'.size = o.size
  fits : o.overrun = false → o.bytes.length + bs.length ≤ o.size → o'.overrun = false

section
variable {o o₁ o' : Out}

theorem fills_put (o : Out) (b : Nat) : Fills o [UInt8.ofNat b] (o.put b) := by
  refine ⟨rfl, rfl, fun ho hfit => ?_⟩
  rw [length_singleton] at hfit
  simp only [Out.put, ho, Bool.false_or, decide_eq_false_iff_not]
  omega

theorem Fills.trans {xs ys : List UInt8} (h₁ : Fills o xs o₁) (h₂ : Fills o₁ ys o') :
    Fills o (xs ++ ys) o' := by
  refine ⟨by rw [h₂.bytes, h₁.bytes, append_assoc], h₂.size.trans h₁.size, fun ho hfit => ?_⟩
  rw [length_append] at hfit
  refine h₂.fits (h₁.fits ho (by omega)) ?_
  rw [h₁.bytes, h₁.size, length_append]
  omega

theorem fills_bytes3 (o : Out) {v : Nat} (h : 0x800 ≤ v) (h' : v < 0x10000) :
    Fills o (bytes3 v) (o.putCodePoint v) := by
  have htag : ∀ n, 0x80 ||| n % 64 = n % 64 + 128 := fun n =>
    tag_or (k := 6) (t := 2) (Nat.mod_lt n (by norm_num))
  have h12 : 0xE0 ||| v >>> 12 = v / 4096 % 16 + 224 := by
    rw [Nat.shiftRight_eq_div_pow]
    exact (tag_or (k := 4) (t := 14) (by omega)).trans (by omega)
  rw [Out.putCodePoint, if_neg (by omega), if_neg (by omega), if_pos h', h12, mask6, mask6, htag,
    htag, Nat.shiftRight_eq_div_pow]
  exact ((fills_put o _).trans (fills_put _ _)).trans (fills_put _ _)

theorem fills_putCodePoint (o : Out) (c : Char) :
    Fills o (String.utf8EncodeChar c) (o.putCodePoint c.toNat) := by
  have hc := scalar_cases c
  have hv : c.val.toNat = c.toNat := rfl
  unfold String.utf8EncodeChar
  dsimp only
  rw [hv]
  generalize c.toNat = v at *
  -- Each byte is a tag with the bits of its place below it.
  have htag : ∀ n, 0x80 ||| n % 64 = n % 64 + 128 := fun n =>
    tag_or (k := 6) (t := 2) (Nat.mod_lt n (by norm_num))
  split_ifs
  · rw [Out.putCodePoint, if_pos (by omega)]
    exact fills_put o v
  · have h6 : 0xC0 ||| v >>> 6 = v / 64 % 32 + 192 := by
      rw [Nat.shiftRight_eq_div_pow]
      exact (tag_or (k := 5) (t := 6) (by omega)).trans (by omega)
    rw [Out.putCodePoint, if_neg (by omega), if_pos (by omega), h6, mask6, htag]
    exact (fills_put o _).trans (fills_put _ _)
  · exact fills_bytes3 o (by omega) (by omega)
  · have h18 : 0xF0 ||| v >>> 18 = v / 262144 % 8 + 240 := by
      rw [Nat.shiftRight_eq_div_pow]
      exact (tag_or (k := 3) (t := 30) (by omega)).trans (by omega)
    rw [Out.putCodePoint, if_neg (by omega), if_neg (by omega), if_neg (by omega), h18, mask6,
      mask6, mask6, htag, htag, htag, Nat.shiftRight_eq_div_pow, Nat.shiftRight_eq_div_pow]
    exact (((fills_put o _).trans (fills_put _ _)).trans (fills_put _ _)).trans (fills_put _ _)

theorem fills_putCodePoints (o : Out) (cs : List Char) :
    Fills o (utf8 cs) ((cs.map Char.toNat).foldl Out.putCodePoint o) := by
  induction cs generalizing o with
  | nil => exact ⟨(append_nil _).symm, rfl, fun ho _ => ho⟩
  | cons c cs ih => exact (fills_putCodePoint o c).trans (ih _)

end

/-- A unit that begins no pair is transcoded by itself. -/
theorem fills_single {u : Nat} {us : List Nat} {bs : List UInt8} (o : Out) (hu : u < 0x10000)
    (hpair : ∀ lo ∈ us.head?, ¬ (0xD800 ≤ u ∧ u ≤ 0xDBFF ∧ 0xDC00 ≤ lo ∧ lo ≤ 0xDFFF))
    (h : Transcodes us bs) :
    ∃ b, Fills o b (o.putCodePoint u) ∧ b.length ≤ 3 ∧ Transcodes (u :: us) (b ++ bs) := by
  by_cases hs : 0xD800 ≤ u ∧ u ≤ 0xDFFF
  · refine ⟨bytes3 u, fills_bytes3 o (by omega) hu, le_rfl, .lone hs (fun lo hlo hlow => ?_) h⟩
    exact hpair lo hlo ⟨hs.1, hlow⟩
  · obtain ⟨c, rfl⟩ := exists_char (v := u) (by rw [NotScalar]; omega)
    have hc : utf16 c = [c.toNat] := if_pos hu
    have hlen := utf8EncodeChar_length_le c
    have htail := h.scalar c
    rw [hc] at hlen htail
    exact ⟨_, fills_putCodePoint o c, hlen, htail⟩

/-- **What `wdb_get_str16` puts together** is the text of the units, in the allocation. -/
theorem fills_joinUnits {us : List Nat} (hus : ∀ u ∈ us, u < 0x10000) (o : Out) :
    ∃ bs, Transcodes us bs ∧ bs.length ≤ 3 * us.length ∧
      Fills o bs ((joinUnits us).foldl Out.putCodePoint o) := by
  fun_induction joinUnits us generalizing o with
  | case1 u lo us hpair ih =>
    obtain ⟨h₁, h₂, h₃, h₄⟩ := hpair
    obtain ⟨c, hc⟩ := exists_char (v := 0x10000 + (u - 0xD800) <<< 10 + (lo - 0xDC00)) (by
      rw [NotScalar, Nat.shiftLeft_eq]
      omega)
    rw [Nat.shiftLeft_eq] at hc
    have hunits : utf16 c = [u, lo] := by
      rw [utf16, if_neg (by omega), hc]
      exact congrArg₂ (fun a b => [a, b]) (by omega) (by omega)
    obtain ⟨bs, htext, hlen, hfill⟩ :=
      ih (fun v hv => hus v (by simp [hv])) (o.putCodePoint c.toNat)
    have hfirst := utf8EncodeChar_length_le c
    have hall := htext.scalar c
    rw [hunits] at hfirst hall
    refine ⟨_, hall, ?_, ?_⟩
    · simp only [length_append, length_cons, length_nil] at hfirst ⊢
      omega
    · rw [foldl_cons, Nat.shiftLeft_eq, ← hc]
      exact (fills_putCodePoint o c).trans hfill
  | case2 u lo us hpair ih =>
    obtain ⟨hu, hrest⟩ := forall_mem_cons.mp hus
    obtain ⟨bs, htext, hlen, hfill⟩ := ih hrest (o.putCodePoint u)
    obtain ⟨b, hb, hblen, hall⟩ := fills_single o hu (by simpa using hpair) htext
    refine ⟨_, hall, ?_, hb.trans hfill⟩
    simp only [length_append, length_cons] at hlen ⊢
    omega
  | case3 us hshort =>
    rcases us with _ | ⟨u, _ | ⟨lo, us⟩⟩
    · exact ⟨[], .nil, le_rfl, (append_nil _).symm, rfl, fun ho _ => ho⟩
    · obtain ⟨b, hb, hblen, hall⟩ :=
        fills_single o (hus u (by simp)) (by simp) (.nil : Transcodes [] [])
      exact ⟨_, hall, by simpa using hblen, by simpa using hb⟩
    · exact absurd rfl (hshort u lo us)

theorem put_utf8 (cs : List Char) :
    ((cs.map Char.toNat).foldl Out.putCodePoint { size := (cs.flatMap utf16).length * 3 + 1 }).put
      0 =
      { size := (cs.flatMap utf16).length * 3 + 1, bytes := utf8 cs ++ [0] } := by
  have hlen := utf8_length_le cs
  obtain ⟨hbytes, hsize, hfits⟩ := (fills_putCodePoints
    { size := (cs.flatMap utf16).length * 3 + 1 } cs).trans (fills_put _ 0)
  have hover := hfits rfl (by simp only [length_append, length_nil, length_singleton]; omega)
  cases h : ((cs.map Char.toNat).foldl Out.putCodePoint
    { size := (cs.flatMap utf16).length * 3 + 1 }).put 0 with
  | mk size bytes overrun =>
    rw [h] at hbytes hsize hover
    cases hbytes
    cases hsize
    cases hover
    rfl

inductive Field where
  | int (v : Int32)
  | str (s : Option (List Char))

inductive Kind where
  | int
  | str

inductive Answer where
  | int (v : Int32)
  | str (s : Option Out)
deriving DecidableEq

namespace Field

def kind : Field → Kind
  | .int _ => .int
  | .str _ => .str

def put (alloc : Nat → Bool) (p : Parcel) : Field → Parcel
  | .int v => p.putI32 alloc v
  | .str s => p.putStr16 alloc (s.map utf8)

def Valid : Field → Prop
  | .str (some cs) => (∀ c ∈ cs, c ≠ '\x00') ∧ (cs.flatMap utf16).length ≤ 2 ^ 20
  | _ => True

def size : Field → Nat
  | .str (some cs) => 4 + paddedSize (cs.flatMap utf16).length
  | _ => 4

/-- The integer itself; NULL for NULL; the string's own bytes with the terminator, in an allocation
of three bytes a unit and one more. -/
def answer : Field → Answer
  | .int v => .int v
  | .str none => .str none
  | .str (some cs) =>
    .str (some { size := (cs.flatMap utf16).length * 3 + 1, bytes := utf8 cs ++ [0] })

def wire : Field → List UInt8
  | .int v => (bytes32 v.toUInt32).reverse
  | .str none => (bytes32 (-1 : Int32).toUInt32).reverse
  | .str (some cs) =>
    let units := cs.flatMap utf16
    (bytes32 (Int32.ofNat units.length).toUInt32).reverse ++
      (units.flatMap le16 ++ List.replicate (paddedSize units.length - 2 * units.length) 0)

end Field

def get (alloc : Nat → Bool) (p : Parcel) : Kind → Answer × Parcel
  | .int => ((.int p.getI32.1), p.getI32.2)
  | .str => ((.str (p.getStr16 alloc).1), (p.getStr16 alloc).2)

def getAll (alloc : Nat → Bool) : List Kind → Parcel → List Answer × Parcel
  | [], p => ([], p)
  | k :: ks, p => ((get alloc p k).1 :: (getAll alloc ks (get alloc p k).2).1,
      (getAll alloc ks (get alloc p k).2).2)

def putAll (alloc : Nat → Bool) (fields : List Field) : Parcel := fields.foldl (Field.put alloc) {}

theorem two_mul_le_paddedSize (n : Nat) : 2 * n ≤ paddedSize n := by
  unfold paddedSize
  omega

theorem Field.length_wire (f : Field) : f.wire.length = f.size := by
  match f with
  | .int v => rfl
  | .str none => rfl
  | .str (some cs) =>
    have := two_mul_le_paddedSize (cs.flatMap utf16).length
    simp only [wire, size, length_append, length_reverse, length_bytes32, length_flatMap_le16,
      length_replicate]
    omega

theorem Field.size_mod (f : Field) : f.size % 4 = 0 := by
  match f with
  | .int v => simp [size]
  | .str none => simp [size]
  | .str (some cs) =>
    simp only [size, paddedSize]
    omega

theorem wires_mod (fields : List Field) : (fields.flatMap Field.wire).length % 4 = 0 := by
  induction fields with
  | nil => rfl
  | cons f fields ih =>
    have hf := f.size_mod
    rw [flatMap_cons, length_append, f.length_wire]
    omega

structure Appends (p : Parcel) (w : List UInt8) (p' : Parcel) : Prop where
  data : p'.data = p.data ++ w
  pos : p'.pos = p.pos
  error : p'.error = none

section
variable {alloc : Nat → Bool} {p p₁ p' : Parcel}

theorem Appends.trans {xs ys : List UInt8} (h₁ : Appends p xs p₁) (h₂ : Appends p₁ ys p') :
    Appends p (xs ++ ys) p' :=
  ⟨by rw [h₂.data, h₁.data, append_assoc], h₂.pos.trans h₁.pos, h₂.error⟩

variable (halloc : ∀ n, alloc n = true)
include halloc

theorem grow_appends {n : Nat} (he : p.error = none) (hfit : p.len + n ≤ maxReply) :
    ∃ p', p.grow alloc n = (p', some p.len) ∧ Appends p (List.replicate n 0) p' := by
  unfold Parcel.grow
  rw [if_neg (by simp [he]), if_neg (by omega)]
  simp only [halloc, if_true]
  by_cases hcap : p.cap < p.len + n
  · rw [if_pos hcap]
    exact ⟨_, rfl, rfl, rfl, he⟩
  · rw [if_neg hcap]
    exact ⟨_, rfl, rfl, rfl, he⟩

theorem grow_poke {n : Nat} (bytes : List UInt8) (he : p.error = none)
    (hfit : p.len + n ≤ maxReply) :
    ∃ p', p.grow alloc n = (p', some p.len) ∧
      Appends p (bytes ++ List.replicate (n - bytes.length) 0) (p'.poke p.len bytes) := by
  obtain ⟨p', hg, hdata, hpos, herr⟩ := grow_appends halloc he hfit
  refine ⟨p', hg, ?_, hpos, herr⟩
  show p'.data.take p.data.length ++ bytes ++ p'.data.drop (p.data.length + bytes.length) = _
  rw [hdata, take_left, drop_length_add_append, drop_replicate, append_assoc]

theorem putI32_appends (v : Int32) (he : p.error = none) (hfit : p.len + 4 ≤ maxReply) :
    Appends p (bytes32 v.toUInt32).reverse (p.putI32 alloc v) := by
  obtain ⟨p', hg, happ⟩ := grow_poke halloc (bytes32 v.toUInt32).reverse he hfit
  unfold Parcel.putI32
  rw [hg]
  simpa using happ

theorem putStr16_appends {cs : List Char} (hv : Field.Valid (.str (some cs))) (he : p.error = none)
    (hfit : p.len + Field.size (.str (some cs)) ≤ maxReply) :
    Appends p (Field.wire (.str (some cs))) (p.putStr16 alloc (some (utf8 cs))) := by
  obtain ⟨hnul, hlen⟩ := hv
  unfold Parcel.putStr16 Field.wire
  dsimp only [Field.size] at hfit ⊢
  rw [codePoints_units hnul, if_neg (by unfold maxReply; omega)]
  have hint := putI32_appends halloc (Int32.ofNat (cs.flatMap utf16).length) he (by omega)
  have hlen' : (p.putI32 alloc (Int32.ofNat (cs.flatMap utf16).length)).len = p.len + 4 := by
    unfold Parcel.len
    rw [hint.data]
    simp
  obtain ⟨p', hg, happ⟩ := grow_poke halloc ((cs.flatMap utf16).flatMap le16) hint.error
    (n := paddedSize (cs.flatMap utf16).length) (by omega)
  rw [hg]
  rw [length_flatMap_le16] at happ
  exact hint.trans happ

theorem put_appends {f : Field} (hv : f.Valid) (he : p.error = none)
    (hfit : p.len + f.size ≤ maxReply) : Appends p f.wire (f.put alloc p) := by
  match f with
  | .int v => exact putI32_appends halloc v he hfit
  | .str none => exact putI32_appends halloc (-1) he hfit
  | .str (some cs) => exact putStr16_appends halloc hv he hfit

theorem putAll_appends {fields : List Field} (hv : ∀ f ∈ fields, f.Valid) (he : p.error = none)
    (hfit : p.len + (fields.map Field.size).sum ≤ maxReply) :
    Appends p (fields.flatMap Field.wire) (fields.foldl (Field.put alloc) p) := by
  induction fields generalizing p with
  | nil => exact ⟨(append_nil _).symm, rfl, he⟩
  | cons f fields ih =>
    obtain ⟨hf, hfs⟩ := forall_mem_cons.mp hv
    rw [map_cons, sum_cons] at hfit
    have happ := put_appends halloc hf he (by omega)
    have hlen : (f.put alloc p).len = p.len + f.size := by
      unfold Parcel.len
      rw [happ.data, length_append, f.length_wire]
    exact happ.trans (ih hfs happ.error (by omega))

end

def Reads {α : Type} (g : Parcel → α × Parcel) (w : List UInt8) (a : α) : Prop :=
  ∀ (p : Parcel) (xs ys : List UInt8), p.data = xs ++ (w ++ ys) → p.pos = xs.length →
    p.error = none → g p = (a, { p with pos := xs.length + w.length })

theorem reads_i32 (v : Int32) : Reads Parcel.getI32 (bytes32 v.toUInt32).reverse v := by
  intro p xs ys hdata hpos he
  have hlen : ¬ p.len < p.pos + 4 := by
    unfold Parcel.len
    rw [hdata, hpos]
    simp
  have hdrop : p.data.drop p.pos = (bytes32 v.toUInt32).reverse ++ ys := by
    rw [hdata, hpos, drop_left]
  unfold Parcel.getI32
  rw [if_neg (by simp [he]), if_neg hlen, hdrop]
  simp only [bytes32, reverse_cons, reverse_nil, nil_append, cons_append,
    be32_bytes32, Int32.toInt32_toUInt32, hpos]
  rfl

theorem reads_null (alloc : Nat → Bool) :
    Reads (Parcel.getStr16 alloc) (Field.wire (.str none)) none := by
  intro p xs ys hdata hpos he
  unfold Parcel.getStr16
  rw [reads_i32 (-1) p xs ys hdata hpos he]
  exact if_pos (.inr (by decide))

variable {alloc : Nat → Bool}

theorem reads_str16 (halloc : ∀ n, alloc n = true) (hv : Field.Valid (.str (some cs))) :
    Reads (Parcel.getStr16 alloc) (Field.wire (.str (some cs)))
      (some { size := (cs.flatMap utf16).length * 3 + 1, bytes := utf8 cs ++ [0] }) := by
  intro p xs ys hdata hpos he
  have hmem : ∀ u ∈ cs.flatMap utf16, u < 0x10000 := by
    intro u hu
    obtain ⟨c, -, hc⟩ := mem_flatMap.mp hu
    exact utf16_lt c u hc
  have hlen : (cs.flatMap utf16).length ≤ 2 ^ 20 := hv.2
  have hval : (Int32.ofNat (cs.flatMap utf16).length).toInt = (cs.flatMap utf16).length :=
    Int32.toInt_ofNat_of_lt (by omega)
  have hwire := (Field.str (some cs)).length_wire
  have hsize : Field.size (.str (some cs)) = 4 + paddedSize (cs.flatMap utf16).length := rfl
  have htotal : p.len = xs.length + (Field.wire (.str (some cs))).length + ys.length := by
    rw [Parcel.len, hdata, length_append, length_append, Nat.add_assoc]
  -- The length comes first; behind it are the units.
  simp only [Field.wire, append_assoc] at hdata
  unfold Parcel.getStr16
  rw [reads_i32 _ p xs _ hdata hpos he]
  dsimp only
  rw [if_neg (fun h => h.elim (by simp [he]) (by omega)), hval, Int.toNat_natCast, if_neg ?fits,
    if_pos (halloc _)]
  case fits =>
    simp only [length_reverse, length_bytes32, maxReply, Parcel.len] at htotal ⊢
    omega
  have hdrop : p.data.drop (xs.length + (bytes32 (Int32.ofNat (cs.flatMap
      utf16).length).toUInt32).reverse.length) = (cs.flatMap utf16).flatMap le16 ++
      (List.replicate (paddedSize
      (cs.flatMap utf16).length - 2 * (cs.flatMap utf16).length) 0 ++ ys) := by
    rw [hdata, drop_length_add_append, drop_left]
  rw [hdrop, units16_le16 hmem, joinUnits_utf16, put_utf8]
  congr 2
  rw [hwire, hsize, length_reverse, length_bytes32]
  omega

theorem reads_get (halloc : ∀ n, alloc n = true) {f : Field} (hv : f.Valid) :
    Reads (get alloc · f.kind) f.wire f.answer := by
  intro p xs ys hdata hpos he
  match f with
  | .int v => simp only [Field.kind, get, reads_i32 v p xs ys hdata hpos he]; rfl
  | .str none => simp only [Field.kind, get, reads_null alloc p xs ys hdata hpos he]; rfl
  | .str (some cs) => simp only [Field.kind, get, reads_str16 halloc hv p xs ys hdata hpos he]; rfl

theorem reads_getAll (halloc : ∀ n, alloc n = true) {fields : List Field}
    (hv : ∀ f ∈ fields, f.Valid) :
    Reads (getAll alloc (fields.map Field.kind)) (fields.flatMap Field.wire)
      (fields.map Field.answer) := by
  induction fields with
  | nil =>
    intro p xs ys hdata hpos he
    simp only [map_nil, getAll, flatMap_nil, length_nil, Nat.add_zero, ← hpos]
  | cons f fields ih =>
    obtain ⟨hf, hfs⟩ := forall_mem_cons.mp hv
    intro p xs ys hdata hpos he
    rw [flatMap_cons, append_assoc] at hdata
    have hget : get alloc p f.kind = (f.answer, { p with pos := xs.length + f.wire.length }) :=
      reads_get halloc hf p xs _ hdata hpos he
    have hrest := ih hfs { p with pos := xs.length + f.wire.length } (xs ++ f.wire) ys
      (by rw [hdata, append_assoc]) (by rw [length_append]) he
    rw [map_cons, map_cons, getAll, hget, hrest, flatMap_cons, length_append, length_append,
      Nat.add_assoc]

/-- **Parcel round trip.** Fields are read back as they were written, each string inside its
allocation; the reading ends where the writing did, and every field starts at a multiple of four. -/
theorem parcel_round_trip {alloc : Nat → Bool} (halloc : ∀ n, alloc n = true)
    {fields : List Field} (hv : ∀ f ∈ fields, f.Valid)
    (hfit : (fields.map Field.size).sum ≤ maxReply) :
    (putAll alloc fields).error = none ∧
    (∃ q, getAll alloc (fields.map Field.kind) (putAll alloc fields) =
        (fields.map Field.answer, q) ∧
      q.error = none ∧ q.pos = (putAll alloc fields).len) ∧
    ∀ k, (putAll alloc (fields.take k)).len % 4 = 0 ∧
      (getAll alloc ((fields.take k).map Field.kind) (putAll alloc fields)).2.pos =
        (putAll alloc (fields.take k)).len := by
  have hput : ∀ fs : List Field, (∀ f ∈ fs, f.Valid) → (fs.map Field.size).sum ≤ maxReply →
      Appends {} (fs.flatMap Field.wire) (putAll alloc fs) := fun fs hfs hs =>
    putAll_appends halloc hfs rfl (by simpa [Parcel.len] using hs)
  obtain ⟨hdata, hpos, herr⟩ := hput fields hv hfit
  have hget : ∀ k, getAll alloc ((fields.take k).map Field.kind) (putAll alloc fields) =
      ((fields.take k).map Field.answer,
        { putAll alloc fields with pos := ((fields.take k).flatMap Field.wire).length }) := by
    intro k
    have hk := reads_getAll halloc (fun f hf => hv f (mem_of_mem_take hf)) (putAll alloc fields) []
      ((fields.drop k).flatMap Field.wire) (by rw [hdata, nil_append, nil_append, ← flatMap_append,
      take_append_drop]) hpos herr
    simpa using hk
  refine ⟨herr, ?_, fun k => ?_⟩
  · have hall := hget fields.length
    rw [take_length] at hall
    refine ⟨_, hall, herr, ?_⟩
    rw [Parcel.len, hdata, nil_append]
  · have hsum : ((fields.take k).map Field.size).sum ≤ maxReply := by
      rw [← take_append_drop k fields, map_append, sum_append] at hfit
      omega
    obtain ⟨hdk, -, -⟩ := hput (fields.take k) (fun f hf => hv f (mem_of_mem_take hf)) hsum
    have hlen : (putAll alloc (fields.take k)).len = ((fields.take k).flatMap Field.wire).length :=
      by
      rw [Parcel.len, hdk, nil_append]
    refine ⟨?_, by rw [hget, hlen]⟩
    rw [hlen]
    exact wires_mod (fields.take k)

def mixedFields : List Field := [.int (-7), .str none, .str (some ['a', 'é', '€', '😀'])]

theorem parcel_round_trip_mixedFields :
    (putAll (fun _ => true) mixedFields).error = none ∧
    ∃ q, getAll (fun _ => true) (mixedFields.map Field.kind) (putAll (fun _ => true) mixedFields) =
        (mixedFields.map Field.answer, q) ∧
      q.error = none ∧ q.pos = (putAll (fun _ => true) mixedFields).len := by
  have h := @parcel_round_trip (fun _ => true) (fun _ => rfl) mixedFields
    (by simp [mixedFields, Field.Valid]; decide) (by decide)
  exact ⟨h.1, h.2.1⟩

end OniroSoc.Binder

import OniroSoc.Binder.RoundTrip

/-!
# Malformed UTF-8 in a parcel

The comment over `utf8_next` says that malformed input yields U+FFFD.  A sequence with all its
continuation bytes, though, is taken for what its bits say, whether or not these are the form of a
scalar value.
-/

namespace OniroSoc.Binder
open Support List Option

def readAt (buf : List UInt8) (i : Nat) : Option Nat := buf[i]?.map UInt8.toNat

def utf8TailIn (buf : List UInt8) : Nat → Nat → Nat → Option (Nat × List UInt8)
  | 0, i, cp => some (cp, buf.drop i)
  | n + 1, i, cp => do
    let c ← readAt buf i
    if c &&& 0xC0 ≠ 0x80 then some (0xFFFD, buf.drop i)
    else utf8TailIn buf n (i + 1) (cp <<< 6 ||| (c &&& 0x3F))

def utf8NextIn (buf : List UInt8) : Option (Nat × List UInt8) := do
  let c ← readAt buf 0
  if c < 0x80 then some (c, buf.drop 1)
  else if c &&& 0xE0 = 0xC0 then utf8TailIn buf 1 1 (c &&& 0x1F)
  else if c &&& 0xF0 = 0xE0 then utf8TailIn buf 2 1 (c &&& 0x0F)
  else if c &&& 0xF8 = 0xF0 then utf8TailIn buf 3 1 (c &&& 0x07)
  else some (0xFFFD, buf.drop 1)

def countUnits : Nat → List UInt8 → Nat → Option Nat
  | 0, _, _ => none
  | n + 1, buf, units => do
    let c ← readAt buf 0
    if c = 0 then some units
    else
      let (cp, buf) ← utf8NextIn buf
      countUnits n buf (units + if 0x10000 ≤ cp then 2 else 1)

def writeUnits : Nat → List UInt8 → List Nat → Option (List Nat)
  | 0, _, _ => none
  | n + 1, buf, written => do
    let c ← readAt buf 0
    if c = 0 then some written
    else
      let (cp, buf) ← utf8NextIn buf
      writeUnits n buf (written ++ unitsOf cp)

section Passes
variable {s : List UInt8} {n i cp : Nat}

theorem readAt_append (h : i ≤ s.length) : readAt (s ++ [0]) i = some (byteAt s i) := by
  rw [readAt, byteAt, getD_eq_getElem?_getD]
  rcases h.lt_or_eq with hlt | rfl
  · rw [getElem?_append_left hlt, getElem?_eq_getElem hlt]
    rfl
  · rw [getElem?_concat_length, getElem?_eq_none le_rfl]
    rfl

theorem utf8TailIn_append (h : i ≤ s.length) :
    utf8TailIn (s ++ [0]) n i cp = some ((utf8Tail s n i cp).1, (utf8Tail s n i cp).2 ++ [0]) := by
  induction n generalizing i cp with
  | zero => rw [utf8TailIn, utf8Tail, drop_append_of_le_length h]
  | succ n ih =>
    rw [utf8TailIn, utf8Tail, readAt_append h, bind_eq_bind, Option.bind_some]
    split_ifs with hcont
    · rw [drop_append_of_le_length h]
    · exact ih (lt_of_continuation hcont)

theorem utf8NextIn_append (h : s ≠ []) :
    utf8NextIn (s ++ [0]) = some ((utf8Next s).1, (utf8Next s).2 ++ [0]) := by
  have hone : 1 ≤ s.length := length_pos_iff.mpr h
  rw [utf8NextIn, utf8Next, readAt_append (Nat.zero_le _), bind_eq_bind, Option.bind_some]
  split_ifs
  · rw [drop_append_of_le_length hone]
  · exact utf8TailIn_append hone
  · exact utf8TailIn_append hone
  · exact utf8TailIn_append hone
  · rw [drop_append_of_le_length hone]

end Passes

def piecesLoop : Nat → List UInt8 → List (List UInt8 × Nat)
  | 0, _ => []
  | n + 1, s =>
    if byteAt s 0 = 0 then []
    else (s.take (s.length - (utf8Next s).2.length), (utf8Next s).1) :: piecesLoop n (utf8Next s).2

def pieces (s : List UInt8) : List (List UInt8 × Nat) := piecesLoop s.length s

inductive WellFormed16 : List Nat → Prop where
  | nil : WellFormed16 []
  | unit {u : Nat} {us : List Nat} (hpos : 0 < u) (hlt : u < 0x10000)
    (hno : ¬ (0xD800 ≤ u ∧ u ≤ 0xDFFF))
      (hus : WellFormed16 us) : WellFormed16 (u :: us)
  | pair {hi lo : Nat} {us : List Nat} (hhi : 0xD800 ≤ hi ∧ hi ≤ 0xDBFF)
    (hlo : 0xDC00 ≤ lo ∧ lo ≤ 0xDFFF)
      (hus : WellFormed16 us) : WellFormed16 (hi :: lo :: us)

structure Sanitised (s : List UInt8) : Prop where
  /-- Neither pass reads past the terminator, and the first one counts what the second one
  writes. -/
  counted : countUnits (s.length + 1) (s ++ [0]) 0 = some ((codePoints s).flatMap unitsOf).length
  written : writeUnits (s.length + 1) (s ++ [0]) [] = some ((codePoints s).flatMap unitsOf)
  wellFormed : WellFormed16 ((codePoints s).flatMap unitsOf)
  /-- The calls of `utf8_next` share out the string, and the units are what they give. -/
  bytes : (pieces s).flatMap Prod.fst = s
  points : (pieces s).map Prod.snd = codePoints s
  replaced : ∀ piece ∈ pieces s,
    (∀ c, piece.1 ≠ String.utf8EncodeChar c) → unitsOf piece.2 = [0xFFFD]

/-- A sequence with all its continuation bytes that is longer than its value needs (an overlong
form), or whose value is a surrogate or above U+10FFFF; the overlong form of U+FFFD itself apart. -/
def Forbidden (t : List UInt8) : Prop :=
  Complete t ∧ (value t < least t.length ∨ NotScalar (value t)) ∧ value t ≠ 0xFFFD

instance : DecidablePred Forbidden := fun _ => inferInstanceAs (Decidable (_ ∧ _))

section Strings
variable {s t : List UInt8} {n : Nat}

structure Takes (s piece rest : List UInt8) (cp : Nat) : Prop where
  whole : s = piece ++ rest
  next : utf8Next s = (cp, rest)
  ne : piece ≠ []
  tail : ∀ c ∈ piece.tail, Continuation c
  point : Complete piece ∧ cp = value piece ∨ cp = 0xFFFD ∧ ∀ t r, s = t ++ r → ¬ Complete t

theorem exists_takes (h : s ≠ []) : ∃ piece rest cp, Takes s piece rest cp := by
  obtain ⟨b, s, rfl⟩ := exists_cons_of_ne_nil h
  obtain ⟨conts, hs, hconts, hpoint⟩ := utf8Next_cases b s
  exact ⟨b :: conts, _, _, congrArg (b :: ·) hs, rfl, cons_ne_nil _ _, hconts, hpoint⟩

variable {piece rest : List UInt8} {cp : Nat}

theorem Takes.length_lt (h : Takes s piece rest cp) : rest.length < s.length := by
  have hpos := length_pos_iff.mpr h.ne
  rw [h.whole, length_append]
  omega

theorem Takes.ne_nil (h : Takes s piece rest cp) : s ≠ [] := by
  rintro rfl
  exact h.ne (append_eq_nil_iff.mp h.whole.symm).1

theorem byteAt_ne_zero (h : s ≠ []) (hs : 0 ∉ s) : byteAt s 0 ≠ 0 := by
  obtain ⟨b, s, rfl⟩ := exists_cons_of_ne_nil h
  intro hzero
  have hb : b = 0 := UInt8.toNat_inj.mp hzero
  exact hs (hb ▸ mem_cons_self)

theorem Takes.piecesLoop (h : Takes s piece rest cp) (hs : 0 ∉ s) :
    piecesLoop (n + 1) s = (piece, cp) :: Binder.piecesLoop n rest := by
  rw [Binder.piecesLoop, if_neg (byteAt_ne_zero h.ne_nil hs), h.next]
  refine congrArg₂ _ ?_ rfl
  rw [h.whole, length_append, Nat.add_sub_cancel]
  exact congrArg (·, cp) (take_left ..)

theorem calls_induction {P : Nat → List UInt8 → Prop} (hnil : ∀ n, P n [])
    (hnext : ∀ {n s piece rest cp}, Takes s piece rest cp → 0 ∉ s → P n rest → P (n + 1) s)
    (hs : 0 ∉ s) (hn : s.length ≤ n) : P n s := by
  induction n generalizing s with
  | zero =>
    obtain rfl := length_eq_zero_iff.mp (Nat.le_zero.mp hn)
    exact hnil 0
  | succ n ih =>
    by_cases hne : s = []
    · subst hne
      exact hnil (n + 1)
    · obtain ⟨piece, rest, cp, htakes⟩ := exists_takes hne
      have hrest : 0 ∉ rest := fun h => hs (htakes.whole ▸ mem_append_right _ h)
      exact hnext htakes hs (ih hrest (Nat.le_of_lt_succ (htakes.length_lt.trans_le hn)))

theorem piecesLoop_nil (n : Nat) : piecesLoop n [] = [] := by cases n <;> rfl

theorem passes_eq (hs : 0 ∉ s) (hn : s.length ≤ n) :
    ∀ units written, countUnits (n + 1) (s ++ [0]) units =
        some (units + (((piecesLoop n s).map Prod.snd).flatMap unitsOf).length) ∧
      writeUnits (n + 1) (s ++ [0]) written =
        some (written ++ ((piecesLoop n s).map Prod.snd).flatMap unitsOf) := by
  refine calls_induction
    (P := fun n s => ∀ units written, countUnits (n + 1) (s ++ [0]) units = some (units +
    (((piecesLoop n s).map Prod.snd).flatMap unitsOf).length) ∧ writeUnits (n + 1)
    (s ++ [0]) written = some
    (written ++ ((piecesLoop n s).map Prod.snd).flatMap unitsOf)) (fun n units written => ?_)
    (fun {n s piece rest cp} htakes hs ih units written => ?_) hs hn
  · rw [piecesLoop_nil]
    exact ⟨rfl, congrArg some (append_nil _).symm⟩
  · have hzero := byteAt_ne_zero htakes.ne_nil hs
    have hlen : (if 0x10000 ≤ cp then 2 else 1) = (unitsOf cp).length := by
      rw [unitsOf]
      split_ifs <;> rfl
    have hnext : utf8NextIn (s ++ [0]) = some (cp, rest ++ [0]) := by
      rw [utf8NextIn_append htakes.ne_nil, htakes.next]
    obtain ⟨hcount, hwrite⟩ := ih (units + (unitsOf cp).length) (written ++ unitsOf cp)
    rw [htakes.piecesLoop hs, map_cons, flatMap_cons]
    constructor
    · rw [countUnits, readAt_append (Nat.zero_le _), bind_eq_bind, Option.bind_some, if_neg hzero, hnext]
      show countUnits (n + 1) (rest ++ [0]) (units + if 0x10000 ≤ cp then 2 else 1) = _
      rw [hlen, hcount, length_append, Nat.add_assoc]
    · rw [writeUnits, readAt_append (Nat.zero_le _), bind_eq_bind, Option.bind_some, if_neg hzero, hnext]
      show writeUnits (n + 1) (rest ++ [0]) (written ++ unitsOf cp) = _
      rw [hwrite, append_assoc]

theorem pieces_points (s : List UInt8) : (pieces s).map Prod.snd = codePoints s := by
  have hloop : ∀ n s, (piecesLoop n s).map Prod.snd = codePointsLoop n s := by
    intro n
    induction n with
    | zero => exact fun _ => rfl
    | succ n ih =>
      intro s
      rw [piecesLoop, codePointsLoop]
      split_ifs
      · rfl
      · rw [map_cons, ih]
  exact hloop _ s

theorem pieces_bytes (hs : 0 ∉ s) : (pieces s).flatMap Prod.fst = s := by
  refine calls_induction (P := fun n s => (piecesLoop n s).flatMap Prod.fst = s)
    (fun n => ?_) (fun htakes hs ih => ?_) hs le_rfl
  · rw [piecesLoop_nil]
    rfl
  · rw [htakes.piecesLoop hs, flatMap_cons, ih]
    exact htakes.whole.symm

theorem piece_cases (hs : 0 ∉ s) : ∀ piece ∈ pieces s, piece.1 <:+: s ∧
    (Complete piece.1 ∧ piece.2 = value piece.1 ∨ piece.2 = 0xFFFD) := by
  refine calls_induction (P := fun n s => ∀ piece ∈ piecesLoop n s, piece.1 <:+: s ∧
    (Complete piece.1 ∧ piece.2 = value piece.1 ∨ piece.2 = 0xFFFD)) (fun n => ?_)
    (fun htakes hs ih => ?_) hs le_rfl
  · rw [piecesLoop_nil]
    exact nofun
  · rw [htakes.piecesLoop hs]
    refine forall_mem_cons.mpr ⟨⟨?_, htakes.point.imp_right And.left⟩, fun piece hmem => ?_⟩
    · exact ⟨[], _, htakes.whole.symm⟩
    · obtain ⟨hpart, hpoint⟩ := ih piece hmem
      exact ⟨hpart.trans ⟨_, [], (append_nil _).trans htakes.whole.symm⟩, hpoint⟩

theorem piece_of_complete (hs : 0 ∉ s) :
    ∀ l t r, s = l ++ (t ++ r) → Complete t → (t, value t) ∈ pieces s := by
  refine calls_induction
    (P := fun n s => ∀ l t r, s = l ++ (t ++ r) → Complete t → (t, value t) ∈ piecesLoop n s)
    (fun n l t r h hcomplete => ?_)
    (fun {n s piece rest cp} htakes hs ih l t r h hcomplete => ?_) hs le_rfl
  · obtain ⟨rfl, -⟩ := append_eq_nil_iff.mp (append_eq_nil_iff.mp h.symm).2
    exact hcomplete.elim
  · rw [htakes.piecesLoop hs]
    have hwhole := htakes.whole.symm.trans h
    have hlater : ∀ l', rest = l' ++ (t ++ r) → (t, value t) ∈ (piece, cp) :: piecesLoop n rest :=
      fun l' hrest => .tail _ (ih l' t r hrest hcomplete)
    obtain ⟨b, conts, rfl⟩ : ∃ b conts, t = b :: conts := by
      cases t with
      | nil => exact hcomplete.elim
      | cons b conts => exact ⟨b, conts, rfl⟩
    rcases append_eq_append_iff.mp hwhole with ⟨l', -, hrest⟩ | ⟨l', hpiece, hrest⟩
    · exact hlater l' hrest
    · cases l' with
      | nil => exact hlater [] hrest.symm
      | cons c l' =>
        obtain ⟨rfl, -⟩ := List.cons.inj hrest
        cases l with
        | nil =>
          -- the call starts where the sequence does
          obtain ⟨hpiece', hvalue⟩ : Complete piece ∧ cp = value piece := by
            refine htakes.point.resolve_right fun hno => ?_
            exact hno.2 (b :: conts) r (by simpa using h) hcomplete
          subst hpiece
          have hlen : l'.length = conts.length :=
            Option.some.inj (hpiece'.1.symm.trans hcomplete.1)
          obtain ⟨rfl, -⟩ := append_inj (List.cons.inj hwhole).2 hlen
          exact mem_cons.mpr (.inl (by rw [hvalue]; rfl))
        | cons b' l =>
          -- its first byte would be taken as a continuation byte
          refine absurd (htakes.tail b ?_) hcomplete.not_continuation
          rw [hpiece]
          simp

theorem wellFormed_units {points : List Nat} (h : ∀ v ∈ points, 0 < v ∧ ¬ NotScalar v) :
    WellFormed16 (points.flatMap unitsOf) := by
  induction points with
  | nil => exact .nil
  | cons v points ih =>
    obtain ⟨⟨hpos, hscalar⟩, hpoints⟩ := forall_mem_cons.mp h
    obtain ⟨c, rfl⟩ := exists_char hscalar
    rw [flatMap_cons, unitsOf_eq, utf16]
    have hc := scalar_cases c
    split_ifs with hlt
    · exact .unit hpos hlt (by omega) (ih hpoints)
    · obtain ⟨h₁, h₂, h₃, h₄, -⟩ := surrogates (v := c.toNat) (by omega) (by omega)
      exact .pair ⟨h₁, h₂⟩ ⟨h₃, h₄⟩ (ih hpoints)

theorem piece_scalar (hs : 0 ∉ s) (h : ∀ t, t <:+: s → ¬ Forbidden t) :
    ∀ piece ∈ pieces s, piece.2 = 0xFFFD ∨
      0 < piece.2 ∧ ∃ c, piece.1 = String.utf8EncodeChar c ∧ piece.2 = c.toNat := by
  intro piece hmem
  obtain ⟨hpart, ⟨hcomplete, hvalue⟩ | hpoint⟩ := piece_cases hs piece hmem
  · by_cases hfffd : piece.2 = 0xFFFD
    · exact .inl hfffd
    · right
      have hallowed : ¬ NotScalar (value piece.1) ∧ least piece.1.length ≤ value piece.1 := by
        by_contra hno
        refine h piece.1 hpart ⟨hcomplete, ?_, hvalue ▸ hfffd⟩
        by_cases hscalar : NotScalar (value piece.1)
        · exact .inr hscalar
        · exact .inl (not_le.mp fun hle => hno ⟨hscalar, hle⟩)
      obtain ⟨c, hc⟩ := (encodes_iff hcomplete).mpr hallowed
      have hpoint : piece.2 = c.toNat := by
        rw [hvalue, hc]
        exact (complete_utf8EncodeChar c).2.1
      refine ⟨Nat.pos_of_ne_zero fun hzero => hs (hpart.subset ?_), c, hc, hpoint⟩
      have hnul : c = '\x00' := Char.toNat_inj.mp (hpoint.symm.trans hzero)
      rw [hc, hnul]
      decide
  · exact .inl hpoint

/-- **What `wdb_put_str16` makes of a string** is well formed, with U+FFFD for all that is no form
of a scalar value, exactly when the string has no forbidden sequence. -/
theorem sanitised_iff (hs : 0 ∉ s) : Sanitised s ↔ ∀ t, t <:+: s → ¬ Forbidden t := by
  constructor
  · rintro hgood t ⟨l, r, hpart⟩ ⟨hcomplete, hbad, hfffd⟩
    have hmem := piece_of_complete hs l t r (by rw [← hpart, append_assoc]) hcomplete
    have hno : ∀ c, t ≠ String.utf8EncodeChar c := by
      intro c hc
      obtain ⟨hscalar, hleast⟩ := (encodes_iff hcomplete).mp ⟨c, hc⟩
      exact hbad.elim (not_lt.mpr hleast) hscalar
    have hunits := hgood.replaced (t, value t) hmem hno
    rw [unitsOf] at hunits
    split_ifs at hunits
    · exact cons_ne_nil _ _ (List.cons.inj hunits).2
    · exact hfffd (singleton_inj.mp hunits)
  · intro h
    have hpieces := piece_scalar hs h
    have hpoints : ∀ v ∈ codePoints s, 0 < v ∧ ¬ NotScalar v := by
      intro v hv
      rw [← pieces_points] at hv
      obtain ⟨piece, hmem, rfl⟩ := List.mem_map.mp hv
      rcases hpieces piece hmem with hfffd | ⟨hpos, c, -, hpoint⟩
      · rw [hfffd]
        decide
      · have hc := scalar_cases c
        refine ⟨hpos, ?_⟩
        rw [hpoint, NotScalar]
        omega
    obtain ⟨hcount, hwrite⟩ := passes_eq hs le_rfl 0 []
    rw [Nat.zero_add, show piecesLoop s.length s = pieces s from rfl, pieces_points] at hcount
    rw [nil_append, show piecesLoop s.length s = pieces s from rfl, pieces_points] at hwrite
    refine ⟨hcount, hwrite, wellFormed_units hpoints, pieces_bytes hs, pieces_points s,
      fun piece hmem hno => ?_⟩
    rcases hpieces piece hmem with hfffd | ⟨-, c, hc, -⟩
    · rw [hfffd]
      decide
    · exact absurd hc (hno c)

theorem sanitised_mixed :
    Sanitised [0x41, 0xC3, 0xA9, 0xFF, 0xF0, 0x9F, 0x98, 0x80, 0xE2, 0x82, 0x42] := by
  have hall : ∀ u ∈ [0x41, 0xC3, 0xA9, 0xFF, 0xF0, 0x9F, 0x98, 0x80, 0xE2, 0x82, 0x42].tails,
      ∀ t ∈ u.inits, ¬ Forbidden t := by decide +kernel
  refine (sanitised_iff (by decide)).mpr fun t ht => ?_
  obtain ⟨u, htu, hu⟩ := infix_iff_prefix_suffix.mp ht
  exact hall u ((mem_tails _ _).mpr hu) t ((mem_inits _ _).mpr htu)

theorem malformed_written :
    ¬ Sanitised [0xC0, 0x80] ∧ (codePoints [0xC0, 0x80]).flatMap unitsOf = [0] ∧
    (codePoints [0xED, 0xA0, 0x80]).flatMap unitsOf = [0xD800] ∧
    (codePoints [0xF4, 0x90, 0x80, 0x80]).flatMap unitsOf = [0xDC00, 0xDC00] := by
  have hzero : (codePoints [0xC0, 0x80]).flatMap unitsOf = [0] := by decide
  refine ⟨fun hgood => ?_, hzero, by decide, by decide⟩
  have hunits := hgood.wellFormed
  rw [hzero] at hunits
  cases hunits with
  | unit hpos _ _ _ => exact lt_irrefl 0 hpos

end Strings

end OniroSoc.Binder

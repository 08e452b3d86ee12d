import Mathlib.Tactic

/-!
# Support — framed streams

A stream of packets arrives in pieces.  A `Framing` says what a buffer starts with; what it says of
a whole packet or of a bad start does not change when more arrives behind it.
-/

namespace OniroSoc.Support
open List

inductive Next (π : Type*) where
  | more
  | bad
  | packet (p : π) (n : Nat)

/-- A grammar of packets that is read from the front and does not look past a packet's end. -/
structure Framing (β π : Type*) where
  next : List β → Next π
  size_pos : ∀ {b p n}, next b = .packet p n → 0 < n
  size_le : ∀ {b p n}, next b = .packet p n → n ≤ b.length
  packet_append : ∀ {b p n} (c : List β), next b = .packet p n → next (b ++ c) = .packet p n
  bad_append : ∀ {b} (c : List β), next b = .bad → next (b ++ c) = .bad

inductive Stop (β : Type*) where
  | waiting (bs : List β)
  | bad
  | refused

structure Parsed (β π τ : Type*) where
  passed : List π
  state : τ
  stop : Stop β

variable {β π τ : Type*}

def Parsed.after (ps : List π) (Q : Parsed β π τ) : Parsed β π τ :=
  { Q with passed := ps ++ Q.passed }

def Parsed.andThen (P : Parsed β π τ) (k : τ → List β → Parsed β π τ) : Parsed β π τ :=
  match P.stop with
  | .waiting bs => Parsed.after P.passed (k P.state bs)
  | _ => P

namespace Framing

variable (F : Framing β π) (accept : τ → π → Option τ)

/-- Read packet after packet until the consumer refuses one, or the buffer starts with none. -/
def parse (t : τ) (b : List β) : Parsed β π τ :=
  match _h : F.next b with
  | .more => ⟨[], t, .waiting b⟩
  | .bad => ⟨[], t, .bad⟩
  | .packet p n =>
    match accept t p with
    | none => ⟨[p], t, .refused⟩
    | some t₁ =>
      Parsed.after [p] (parse t₁ (b.drop n))
  termination_by b.length
  decreasing_by
    have := F.size_pos _h
    have := F.size_le _h
    simp only [List.length_drop]
    omega

def feed (P : Parsed β π τ) (c : List β) : Parsed β π τ :=
  P.andThen fun t left => F.parse accept t (left ++ c)

variable {F accept} {t : τ} {b : List β}

theorem parse_more (h : F.next b = .more) : F.parse accept t b = ⟨[], t, .waiting b⟩ := by
  rw [parse]
  split <;> simp_all

theorem parse_bad (h : F.next b = .bad) : F.parse accept t b = ⟨[], t, .bad⟩ := by
  rw [parse]
  split <;> simp_all

theorem parse_refused {p : π} {n : Nat} (h : F.next b = .packet p n)
    (ha : accept t p = none) : F.parse accept t b = ⟨[p], t, .refused⟩ := by
  rw [parse]
  split <;> simp_all

theorem parse_packet {t₁ : τ} {p : π} {n : Nat} (h : F.next b = .packet p n)
    (ha : accept t p = some t₁) :
    F.parse accept t b = Parsed.after [p] (F.parse accept t₁ (b.drop n)) := by
  rw [parse]
  split <;> simp_all

theorem after_andThen (ps : List π) (Q : Parsed β π τ) (k : τ → List β → Parsed β π τ) :
    (Parsed.after ps Q).andThen k = Parsed.after ps (Q.andThen k) := by
  obtain ⟨passed, state, stop⟩ := Q
  cases stop with
  | waiting bs => simp [Parsed.after, Parsed.andThen]
  | bad => rfl
  | refused => rfl

/-- **Parsing goes on where it stopped.**  Parsing a buffer in two pieces, with what the first left
over put in front of the second, is parsing it at once. -/
theorem parse_append (t : τ) (b c : List β) :
    F.parse accept t (b ++ c) = F.feed accept (F.parse accept t b) c := by
  -- by induction on the packets of the first piece
  induction hn : b.length using Nat.strong_induction_on generalizing t b with
  | _ n ih =>
    cases h : F.next b with
    | more => simp [parse_more h, feed, Parsed.andThen, Parsed.after]
    | bad => simp [parse_bad h, parse_bad (F.bad_append c h), feed, Parsed.andThen]
    | packet p m =>
      have hc := F.packet_append c h
      cases ha : accept t p with
      | none => simp [parse_refused h ha, parse_refused hc ha, feed, Parsed.andThen]
      | some t₁ =>
        have hle := F.size_le h
        have hpos := F.size_pos h
        rw [parse_packet h ha, parse_packet hc ha, drop_append_of_le_length hle, feed, after_andThen]
        rw [ih (b.drop m).length (by rw [length_drop]; omega) t₁ (b.drop m) rfl]
        rfl

/-- **However a stream is cut.**  Feeding it piece by piece is parsing the whole. -/
theorem foldl_feed (t : τ) (b : List β) (cs : List (List β)) :
    cs.foldl (F.feed accept) (F.parse accept t b) = F.parse accept t (b ++ cs.flatten) := by
  induction cs generalizing b with
  | nil => simp
  | cons c cs ih =>
    rw [foldl_cons, ← parse_append, ih, flatten_cons, append_assoc]

/-- A parser that has given up stays where it is. -/
theorem foldl_feed_stopped {P : Parsed β π τ} (h : ∀ bs, P.stop ≠ .waiting bs)
    (cs : List (List β)) : cs.foldl (F.feed accept) P = P := by
  have hfeed : ∀ c, F.feed accept P c = P := by
    intro c
    unfold feed Parsed.andThen
    split
    · next bs hs => exact absurd hs (h bs)
    · rfl
  induction cs with
  | nil => rfl
  | cons c cs ih => rw [foldl_cons, hfeed, ih]

end Framing

end OniroSoc.Support

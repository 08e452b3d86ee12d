import OniroSoc.Support.Grammar
import OniroSoc.Binder.Connection
import OniroSoc.Binder.RoundTrip

/-!
# The list of apps

What `wdb_platform_list_apps` takes a reply apart into.  The error of a parcel sticks, so the
decoder goes on reading after one; a slot of the result is filled before it is known whether the
entry counts.

The reply is described by a grammar of its own, in which a string is a list of UTF-16 units; a
string of the result is compared with these by `Transcodes`.  `Decodes` relates a reader to a
grammar, and goes through the decoder construct by construct.
-/

namespace OniroSoc.Binder
open Support List

def maxList : Nat := 4096

/-- `memcpy` of `n` bytes out of a buffer: undefined past its end. -/
def fetch? (data : List UInt8) (off n : Nat) : Option (List UInt8) :=
  if off + n ≤ data.length then some ((data.drop off).take n) else none

/-- A reader; `none` is a read outside the reply. -/
abbrev Read (α : Type) := StateT Parcel Option α

/-- The loop of `wdb_get_str16` over the units, and the terminator. -/
def textOf (n : Nat) (units : List Nat) : Out :=
  ((joinUnits units).foldl Out.putCodePoint { size := n * 3 + 1 }).put 0

/-- `wdb_get_i32`. -/
def getI32? : Read Int32 := fun p =>
  if p.error.isSome then some (0, p)
  else if p.len < p.pos + 4 then some (0, { p with error := some .eproto })
  else
    match fetch? p.data p.pos 4 with
    | some [b₀, b₁, b₂, b₃] => some ((be32 b₃ b₂ b₁ b₀).toInt32, { p with pos := p.pos + 4 })
    | _ => none

/-- `wdb_get_str16` behind the length. -/
def getUnits? (alloc : Nat → Bool) (n : Nat) : Read (Option Out) := fun p =>
  if maxReply < n ∨ p.len < p.pos + paddedSize n then some (none, { p with error := some .eproto })
  else if alloc (n * 3 + 1) then (fetch? p.data p.pos (2 * n)).map fun bytes =>
      (some (textOf n (units16 n bytes)), { p with pos := p.pos + paddedSize n })
  else some (none, { p with error := some .enomem })

/-- `wdb_get_str16`. -/
def getStr16? (alloc : Nat → Bool) : Read (Option Out) := do
  let units ← getI32?
  if (← getThe Parcel).error.isSome ∨ units.toInt < 0 then pure none
  else getUnits? alloc units.toInt.toNat

/-! ### The decoder -/

/-- `struct wdb_app`. -/
structure App where
  (name package activity : Option Out := none)
deriving DecidableEq

def App.blank : App := {}

def skipStrings? (alloc : Nat → Bool) : Nat → Read Unit
  | 0 => pure ()
  | n + 1 => do
    if (← getThe Parcel).error.isSome then pure ()
    else do
      let _ ← getStr16? alloc
      skipStrings? alloc n

def readApp? (alloc : Nat → Bool) : Read App := do
  let name ← getStr16? alloc
  let package ← getStr16? alloc
  let _action ← getStr16? alloc
  let _launchIntent ← getStr16? alloc
  let _componentPackageName ← getStr16? alloc
  let activity ← getStr16? alloc
  let cats ← getI32?
  modify fun p => if cats.toInt > maxList then { p with error := some .eproto } else p
  skipStrings? alloc cats.toInt.toNat
  pure { name, package, activity }

/-- A write to a slot, which has to be there. -/
def store? (out : List App) (i : Nat) (a : App) : Read (List App) := fun p =>
  if i < out.length then some (out.set i a, p) else none

/-- The loop over the entries; `used` counts the slots that are taken. -/
def readApps? (alloc : Nat → Bool) : Nat → List App → Nat → Read (List App × Nat)
  | 0, out, used => pure (out, used)
  | n + 1, out, used => do
    if (← getThe Parcel).error.isSome then pure (out, used)
    else do
      let marker ← getI32?
      if marker = 0 then readApps? alloc n out used
      else do
        let a ← readApp? alloc
        let out ← store? out used a
        if (← getThe Parcel).error = none ∧ a.package.isSome then readApps? alloc n out (used + 1)
        else do
          let out ← store? out used .blank
          readApps? alloc n out used

structure Listed where
  rc : Option Err := none
  apps : Option (List App) := none
  count : Nat := 0
deriving DecidableEq

def appSize : Nat := 24

/-- `wdb_platform_list_apps` behind the count of entries. -/
def listFrom? (alloc : Nat → Bool) (n : Int32) (rep : Parcel) : Option Listed :=
  if rep.error.isSome ∨ n.toInt < 0 ∨ n.toInt > maxList then some { rc := some .eproto }
  else
    let slots := if 0 < n.toInt.toNat then n.toInt.toNat else 1
    if alloc (slots * appSize) = false then some { rc := some .enomem }
    else do
      let ((out, used), rep) ← readApps? alloc n.toInt.toNat (List.replicate slots .blank) 0 rep
      if rep.error.isSome then some { rc := some .eproto }
      else some { apps := some out, count := used }

/-- `wdb_platform_list_apps` on what `platform_call` returned. -/
def listApps? (alloc : Nat → Bool) (called : Result) : Option Listed :=
  match called.rc with
  | some e => some { rc := some e }
  | none => do
    let (n, rep) ← getI32? called.reply
    listFrom? alloc n rep

/-! ### The grammar -/

def i32 : Grammar UInt8 Int32 := fun v w =>
  ∃ b₀ b₁ b₂ b₃, w = [b₀, b₁, b₂, b₃] ∧ v = (be32 b₃ b₂ b₁ b₀).toInt32

/-- A text in UTF-16. -/
abbrev String16 := { us : List Nat // ∀ u ∈ us, u < 0x10000 }

/-- The `n` units of a string, the terminator and the padding. -/
def units (n : Nat) : Grammar UInt8 (Option String16) := fun text w =>
  n ≤ maxReply ∧ w.length = paddedSize n ∧ text = some ⟨units16 n w, units16_lt n w⟩

def str16 : Grammar UInt8 (Option String16) := do
  let n ← i32
  if n.toInt < 0 then pure none else units n.toInt.toNat

structure AppInfo where
  (name packageName action launchIntent componentPackageName componentClassName : Option String16)
  categories : List (Option String16)

def appInfo : Grammar UInt8 AppInfo := do
  let name ← str16
  let packageName ← str16
  let action ← str16
  let launchIntent ← str16
  let componentPackageName ← str16
  let componentClassName ← str16
  let n ← i32
  Grammar.require (n.toInt ≤ maxList)
  let categories ← Grammar.repeated str16 n.toInt.toNat
  pure ⟨name, packageName, action, launchIntent, componentPackageName, componentClassName,
    categories⟩

def entry : Grammar UInt8 (Option AppInfo) := do
  let marker ← i32
  if marker = 0 then pure none else some <$> appInfo

def appList : Grammar UInt8 (List (Option AppInfo)) := do
  let n ← i32
  Grammar.require (0 ≤ n.toInt ∧ n.toInt ≤ maxList)
  Grammar.repeated entry n.toInt.toNat

/-- The entries that have a package. -/
def listed (entries : List (Option AppInfo)) : List AppInfo :=
  (entries.filterMap id).filter fun info => info.packageName.isSome

/-- The C string has the bytes of the text, and they are inside its allocation. -/
def Out.Shows (o : Out) (text : String16) : Prop :=
  o.overrun = false ∧ ∃ bs, Transcodes text.1 bs ∧ o.bytes = bs ++ [0]

structure App.Shows (a : App) (info : AppInfo) : Prop where
  name : Option.Rel Out.Shows a.name info.name
  package : Option.Rel Out.Shows a.package info.packageName
  activity : Option.Rel Out.Shows a.activity info.componentClassName

/-! ### Strings -/

def cString (text : String16) : Out := textOf text.1.length text.1

theorem shows_cString (text : String16) : (cString text).Shows text := by
  obtain ⟨bs, htext, hlen, hfill⟩ := fills_joinUnits text.2 { size := text.1.length * 3 + 1 }
  obtain ⟨hbytes, -, hfits⟩ := hfill.trans (fills_put _ 0)
  refine ⟨hfits rfl ?_, bs, htext, hbytes⟩
  simp only [length_append, length_nil, length_singleton]
  omega

def AppInfo.app (info : AppInfo) : App where
  name := info.name.map cString
  package := info.packageName.map cString
  activity := info.componentClassName.map cString

theorem AppInfo.shows (info : AppInfo) : info.app.Shows info := by
  have hrel : ∀ text : Option String16, Option.Rel Out.Shows (text.map cString) text
    | none => .none
    | some text => .some (shows_cString text)
  exact ⟨hrel _, hrel _, hrel _⟩

/-! ### Readers and grammars -/

/-- The reader went over the word `w`. -/
def Parcel.Over (p : Parcel) (w : List UInt8) (p' : Parcel) : Prop :=
  (∃ rest, p.data.drop p.pos = w ++ rest) ∧ p' = { p with pos := p.pos + w.length }

theorem Parcel.Over.nil (p : Parcel) : p.Over [] p := ⟨⟨_, rfl⟩, rfl⟩

variable {p : Parcel}

theorem Parcel.Over.trans {p₁ p₂ : Parcel} {u v : List UInt8} (h₁ : p.Over u p₁)
    (h₂ : p₁.Over v p₂) : p.Over (u ++ v) p₂ := by
  obtain ⟨⟨rest, hu⟩, rfl⟩ := h₁
  obtain ⟨⟨rest', hv⟩, rfl⟩ := h₂
  refine ⟨⟨rest', ?_⟩, ?_⟩
  · dsimp only at hv
    rw [← drop_drop, hu, drop_left] at hv
    rw [hu, hv, append_assoc]
  · rw [length_append, Nat.add_assoc]

theorem Parcel.Over.split {p' : Parcel} {u v : List UInt8} (h : p.Over (u ++ v) p') :
    ∃ p₁, p.Over u p₁ ∧ p₁.Over v p' := by
  obtain ⟨⟨rest, huv⟩, rfl⟩ := h
  rw [append_assoc] at huv
  refine ⟨_, ⟨⟨_, huv⟩, rfl⟩, ⟨rest, ?_⟩, ?_⟩
  · dsimp only
    rw [← drop_drop, huv, drop_left]
  · rw [length_append, Nat.add_assoc]

/-- The reader never leaves the reply and keeps an error; what it reads without one is a word of the
grammar, and with memory it reads every such word. -/
structure Decodes {α : Type} (alloc : Nat → Bool) (g : Read α) (F : Grammar UInt8 α) : Prop where
  total : ∀ p, ∃ a p', g p = some (a, p') ∧ (p.error.isSome → p'.error.isSome)
  sound : ∀ {p a p'}, g p = some (a, p') → p'.error = none → ∃ w, F a w ∧ p.Over w p'
  complete : (∀ n, alloc n = true) → ∀ {p a p' w},
    p.error = none → F a w → p.Over w p' → g p = some (a, p')

section Decodes

variable {α γ : Type} {alloc : Nat → Bool} {g : Read α} {F : Grammar UInt8 α}

theorem bind_some {h : α → Read γ} {p p₁ : Parcel} {a : α} (hg : g p = some (a, p₁)) :
    (g >>= h) p = h a p₁ := by
  show (g p).bind (fun x => h x.1 x.2) = _
  rw [hg]
  rfl

namespace Decodes

theorem error_none (h : Decodes alloc g F) {p p' : Parcel} {a : α}
    (hg : g p = some (a, p')) (he : p'.error = none) : p.error = none := by
  obtain ⟨b, q, hq, hstick⟩ := h.total p
  obtain ⟨-, rfl⟩ : b = a ∧ q = p' := by simpa using hq.symm.trans hg
  by_contra hn
  have := hstick (Option.isSome_iff_ne_none.mpr hn)
  rw [he] at this
  cases this

theorem pure (a : α) : Decodes alloc (Pure.pure a) (Pure.pure a) where
  total p := ⟨a, p, rfl, id⟩
  sound := by
    rintro p _ _ ⟨⟩ -
    exact ⟨[], ⟨rfl, rfl⟩, .nil p⟩
  complete := by
    rintro - p _ p' _ - ⟨rfl, rfl⟩ ⟨-, rfl⟩
    rfl

theorem bind {h : α → Read γ} {G : α → Grammar UInt8 γ} (hg : Decodes alloc g F)
    (hh : ∀ a, Decodes alloc (h a) (G a)) : Decodes alloc (g >>= h) (F >>= G) where
  total p := by
    obtain ⟨a, p₁, h₁, hs₁⟩ := hg.total p
    obtain ⟨c, p₂, h₂, hs₂⟩ := (hh a).total p₁
    exact ⟨c, p₂, (bind_some h₁).trans h₂, fun he => hs₂ (hs₁ he)⟩
  sound := by
    intro p c p₂ hrun he
    obtain ⟨⟨a, p₁⟩, h₁, h₂⟩ := Option.bind_eq_some_iff.mp hrun
    obtain ⟨v, hG, hover₂⟩ := (hh a).sound h₂ he
    obtain ⟨u, hF, hover₁⟩ := hg.sound h₁ ((hh a).error_none h₂ he)
    exact ⟨u ++ v, ⟨a, u, v, rfl, hF, hG⟩, hover₁.trans hover₂⟩
  complete := by
    rintro hmem p c p₂ _ he ⟨a, u, v, rfl, hF, hG⟩ hover
    obtain ⟨p₁, hover₁, hover₂⟩ := hover.split
    have h₁ := hg.complete hmem he hF hover₁
    have he₁ : p₁.error = none := by
      rw [hover₁.2]
      exact he
    exact (bind_some h₁).trans ((hh a).complete hmem he₁ hG hover₂)

theorem of_eq {F F' : Grammar UInt8 α} (hg : Decodes alloc g F) (h : F = F') :
    Decodes alloc g F' := h ▸ hg

theorem unless_error (hg : Decodes alloc g F) (a : α) :
    Decodes alloc (do if (← getThe Parcel).error.isSome then Pure.pure a else g) F where
  total p := by
    show ∃ b p', (if p.error.isSome then Pure.pure a else g : Read α) p = some (b, p') ∧ _
    split
    · exact ⟨a, p, rfl, id⟩
    · exact hg.total p
  sound := by
    intro p b p' hrun he
    change (if p.error.isSome then Pure.pure a else g : Read α) p = some (b, p') at hrun
    split at hrun
    · next hs =>
        obtain ⟨-, rfl⟩ : a = b ∧ p = p' := by simpa using (Option.some.inj hrun)
        simp [he] at hs
    · exact hg.sound hrun he
  complete := by
    intro hmem p b p' w he hF hover
    show (if p.error.isSome then Pure.pure a else g : Read α) p = some (b, p')
    rw [if_neg (by simp [he])]
    exact hg.complete hmem he hF hover

theorem fork {g₁ g₂ : Read α} {F F' : Grammar UInt8 α} {c : Prop} [Decidable c]
    (h₁ : c → Decodes alloc g₁ F) (h₂ : ¬ c → Decodes alloc g₂ F) (herr : Decodes alloc g₂ F') :
    Decodes alloc (do if (← getThe Parcel).error = none ∧ c then g₁ else g₂) F where
  total p := by
    show ∃ b p', (if p.error = none ∧ c then g₁ else g₂ : Read α) p = some (b, p') ∧ _
    split
    · next hc => exact (h₁ hc.2).total p
    · exact herr.total p
  sound := by
    intro p b p' hrun he
    change (if p.error = none ∧ c then g₁ else g₂ : Read α) p = some (b, p') at hrun
    split at hrun
    · next hc => exact (h₁ hc.2).sound hrun he
    · next hn =>
        have hc : ¬ c := fun hc => hn ⟨herr.error_none hrun he, hc⟩
        exact (h₂ hc).sound hrun he
  complete := by
    intro hmem p b p' w he hF hover
    show (if p.error = none ∧ c then g₁ else g₂ : Read α) p = some (b, p')
    split
    · next hc => exact (h₁ hc.2).complete hmem he hF hover
    · next hn => exact (h₂ fun hc => hn ⟨he, hc⟩).complete hmem he hF hover

theorem require {P : Prop} {c : Prop} [Decidable c] (hP : P ↔ ¬ c) (e : Err) :
    Decodes alloc (modify fun p => if c then { p with error := some e } else p)
      (Grammar.require P) where
  total p := by
    refine ⟨(), _, rfl, fun he => ?_⟩
    split
    · rfl
    · exact he
  sound := by
    intro p a p' hrun he
    obtain rfl : (if c then { p with error := some e } else p) = p' :=
      congrArg Prod.snd (Option.some.inj hrun)
    by_cases hc : c
    · rw [if_pos hc] at he
      cases he
    · rw [if_neg hc]
      exact ⟨[], ⟨hP.mpr hc, rfl⟩, .nil p⟩
  complete := by
    rintro - p _ _ _ - ⟨h, rfl⟩ ⟨-, rfl⟩
    exact congrArg (fun q => some ((), q)) (if_neg (hP.mp h))

end Decodes

end Decodes

/-! ### The fields -/

theorem getI32?_cases (p : Parcel) :
    (p.error.isSome ∧ getI32? p = some (0, p)) ∨
    (p.error = none ∧ p.len < p.pos + 4 ∧ getI32? p = some (0, { p with error := some .eproto })) ∨
    ∃ b₀ b₁ b₂ b₃ rest, p.error = none ∧ p.data.drop p.pos = b₀ :: b₁ :: b₂ :: b₃ :: rest ∧
      getI32? p = some ((be32 b₃ b₂ b₁ b₀).toInt32, { p with pos := p.pos + 4 }) := by
  unfold getI32?
  by_cases he : p.error.isSome
  · exact .inl ⟨he, if_pos he⟩
  · rw [if_neg he]
    rw [Bool.not_eq_true, Option.isSome_eq_false_iff, Option.isNone_iff_eq_none] at he
    by_cases hlen : p.len < p.pos + 4
    · exact .inr (.inl ⟨he, hlen, if_pos hlen⟩)
    · rw [if_neg hlen]
      have hle : p.pos + 4 ≤ p.data.length := Nat.le_of_not_lt hlen
      have hdrop : 4 ≤ (p.data.drop p.pos).length := by
        rw [length_drop]
        omega
      match hd : p.data.drop p.pos, hdrop with
      | b₀ :: b₁ :: b₂ :: b₃ :: rest, _ =>
        refine .inr (.inr ⟨b₀, b₁, b₂, b₃, rest, he, rfl, ?_⟩)
        rw [fetch?, if_pos hle, hd]
        rfl

theorem getI32?_eq (p : Parcel) : getI32? p = some p.getI32 := by
  unfold Parcel.getI32
  rcases getI32?_cases p with ⟨he, h⟩ | ⟨he, hlen, h⟩ | ⟨b₀, b₁, b₂, b₃, rest, he, hd, h⟩
  · rw [h, if_pos he]
  · rw [h, if_neg (by simp [he]), if_pos hlen]
  · have hlen : ¬ p.len < p.pos + 4 := by
      have := congrArg List.length hd
      rw [length_drop] at this
      simp only [length_cons, Parcel.len] at this ⊢
      omega
    rw [h, if_neg (by simp [he]), if_neg hlen, hd]

variable {n : Nat}

theorem length_units16 {w : List UInt8} (h : 2 * n ≤ w.length) : (units16 n w).length = n := by
  induction n generalizing w with
  | zero => cases w <;> rfl
  | succ n ih =>
    match w, h with
    | b₀ :: b₁ :: w, h =>
      rw [units16, length_cons, ih (by simp only [length_cons] at h; omega)]

theorem units16_take (n : Nat) (w : List UInt8) : units16 n (w.take (2 * n)) = units16 n w := by
  induction n generalizing w with
  | zero => cases w <;> rfl
  | succ n ih =>
    match w with
    | [] => rfl
    | [_] => rfl
    | b₀ :: b₁ :: w =>
      rw [show 2 * (n + 1) = 2 * n + 1 + 1 by omega, take_succ_cons, take_succ_cons, units16, units16, ih]

theorem fetch?_units (h : p.pos + paddedSize n ≤ p.len) :
    fetch? p.data p.pos (2 * n) = some ((p.data.drop p.pos).take (2 * n)) := by
  refine if_pos ?_
  unfold paddedSize Parcel.len at h
  omega

/-- **No string is read outside its parcel.** -/
theorem getStr16?_eq (alloc : Nat → Bool) (p : Parcel) :
    getStr16? alloc p = some (p.getStr16 alloc) := by
  have hread := getI32?_eq p
  unfold Parcel.getStr16
  generalize p.getI32 = read at hread ⊢
  obtain ⟨units, q⟩ := read
  rw [getStr16?, bind_some hread]
  show (if q.error.isSome ∨ units.toInt < 0 then pure none else getUnits? alloc units.toInt.toNat :
    Read (Option Out)) q = _
  dsimp only
  split
  · rfl
  · unfold getUnits?
    split_ifs with hlen halloc
    · rfl
    · rw [fetch?_units (by omega), Option.map_some, units16_take]
      rfl
    · rfl

theorem decodes_i32 (alloc : Nat → Bool) : Decodes alloc getI32? i32 where
  total p := by
    rcases getI32?_cases p with ⟨he, h⟩ | ⟨he, -, h⟩ | ⟨b₀, b₁, b₂, b₃, rest, he, -, h⟩
    · exact ⟨_, _, h, id⟩
    · exact ⟨_, _, h, fun _ => rfl⟩
    · exact ⟨_, _, h, id⟩
  sound := by
    intro p v p' hrun hok
    rcases getI32?_cases p with ⟨he, h⟩ | ⟨he, -, h⟩ | ⟨b₀, b₁, b₂, b₃, rest, he, hd, h⟩
    · cases h.symm.trans hrun
      rw [hok] at he
      cases he
    · cases h.symm.trans hrun
      cases hok
    · cases h.symm.trans hrun
      exact ⟨[b₀, b₁, b₂, b₃], ⟨b₀, b₁, b₂, b₃, rfl, rfl⟩, ⟨rest, hd⟩, rfl⟩
  complete := by
    rintro - p _ _ _ he ⟨b₀, b₁, b₂, b₃, rfl, rfl⟩ ⟨⟨rest, hd⟩, rfl⟩
    rcases getI32?_cases p with ⟨he', -⟩ | ⟨-, hlen, -⟩ | ⟨c₀, c₁, c₂, c₃, rest', -, hd', h⟩
    · rw [he] at he'
      cases he'
    · have := congrArg List.length hd
      rw [length_drop] at this
      simp only [length_append, length_cons, Parcel.len] at this hlen
      omega
    · cases hd'.symm.trans hd
      exact h

variable {alloc : Nat → Bool}

theorem units_iff {o : Option Out} {x : List UInt8} :
    (Option.map cString <$> units n) o x ↔
      n ≤ maxReply ∧ x.length = paddedSize n ∧ o = some (textOf n (units16 n x)) := by
  have hlen : x.length = paddedSize n → (units16 n x).length = n := fun hx =>
    length_units16 (hx ▸ two_mul_le_paddedSize n)
  rw [Grammar.map_iff]
  constructor
  · rintro ⟨_, ⟨hn, hx, rfl⟩, rfl⟩
    exact ⟨hn, hx, by rw [Option.map_some, cString, hlen hx]⟩
  · rintro ⟨hn, hx, rfl⟩
    exact ⟨_, ⟨hn, hx, rfl⟩, by rw [Option.map_some, cString, hlen hx]⟩

theorem decodes_units (n : Nat) :
    Decodes alloc (getUnits? alloc n) (Option.map cString <$> units n) where
  total p := by
    unfold getUnits?
    split_ifs with hlen halloc
    · exact ⟨_, _, rfl, fun _ => rfl⟩
    · rw [fetch?_units (by omega), Option.map_some]
      exact ⟨_, _, rfl, id⟩
    · exact ⟨_, _, rfl, fun _ => rfl⟩
  sound := by
    intro p o p' hrun hok
    unfold getUnits? at hrun
    split_ifs at hrun with hlen halloc
    · cases hrun
      cases hok
    · have hfit : p.pos + paddedSize n ≤ p.len := by omega
      rw [fetch?_units hfit, Option.map_some, units16_take] at hrun
      obtain ⟨rfl, rfl⟩ : _ = o ∧ _ = p' := by simpa using Option.some.inj hrun
      have hword : ((p.data.drop p.pos).take (paddedSize n)).length = paddedSize n := by
        rw [length_take, length_drop]
        unfold Parcel.len at hfit
        omega
      refine ⟨(p.data.drop p.pos).take (paddedSize n), units_iff.mpr ⟨by omega, hword, ?_⟩,
        ⟨_, (take_append_drop _ _).symm⟩, by rw [hword]⟩
      rw [← units16_take n ((p.data.drop p.pos).take (paddedSize n)), take_take,
        min_eq_left (two_mul_le_paddedSize n), units16_take]
    · cases hrun
      cases hok
  complete := by
    intro hmem p o p' w he hF hover
    obtain ⟨hn, hw, rfl⟩ := units_iff.mp hF
    obtain ⟨⟨rest, hd⟩, rfl⟩ := hover
    have htake := two_mul_le_paddedSize n
    have hfit : p.pos + paddedSize n ≤ p.len := by
      have hlen := congrArg List.length hd
      have hpos : 0 < paddedSize n := by
        unfold paddedSize
        omega
      rw [length_drop, length_append, hw] at hlen
      unfold Parcel.len
      omega
    unfold getUnits?
    rw [if_neg (by omega), if_pos (hmem _), fetch?_units hfit, Option.map_some, hd,
      take_append_of_le_length (hw ▸ htake), units16_take, hw]

theorem decodes_str16 : Decodes alloc (getStr16? alloc) (Option.map cString <$> str16) := by
  rw [str16, map_bind]
  refine (decodes_i32 alloc).bind fun units => ?_
  by_cases hneg : units.toInt < 0
  · -- a null string: nothing more is read
    simp only [hneg, or_true, if_true, map_pure]
    exact .pure none
  · simp only [hneg, or_false, if_false]
    exact (decodes_units _).unless_error none

/-! ### The entries -/

theorem decodes_skip (n : Nat) :
    Decodes alloc (skipStrings? alloc n) ((fun _ => ()) <$> Grammar.repeated str16 n) := by
  induction n with
  | zero =>
    rw [Grammar.repeated, map_pure]
    exact .pure ()
  | succ n ih =>
    refine ((decodes_str16.bind fun _ => ih).unless_error ()).of_eq ?_
    simp only [Grammar.repeated, map_eq_pure_bind, bind_assoc, pure_bind]

theorem decodes_app : Decodes alloc (readApp? alloc) (AppInfo.app <$> appInfo) := by
  have hmap : AppInfo.app <$> appInfo = (do
      let name ← Option.map cString <$> str16
      let package ← Option.map cString <$> str16
      let _ ← Option.map cString <$> str16
      let _ ← Option.map cString <$> str16
      let _ ← Option.map cString <$> str16
      let activity ← Option.map cString <$> str16
      let cats ← i32
      Grammar.require (cats.toInt ≤ maxList)
      (fun _ => ()) <$> Grammar.repeated str16 cats.toInt.toNat
      pure { name, package, activity }) := by
    simp only [appInfo, map_eq_pure_bind, bind_assoc, pure_bind, AppInfo.app]
  rw [hmap, readApp?]
  refine decodes_str16.bind fun name => decodes_str16.bind fun package =>
    decodes_str16.bind fun _ => ?_
  refine decodes_str16.bind fun _ => decodes_str16.bind fun _ => decodes_str16.bind fun activity =>
    ?_
  refine (decodes_i32 alloc).bind fun cats => (Decodes.require not_lt.symm .eproto).bind fun _ => ?_
  exact (decodes_skip _).bind fun _ => .pure _

theorem store?_eq {out : List App} {i : Nat} (h : i < out.length) (a : App) :
    store? out i a = pure (out.set i a) := by
  funext p
  exact if_pos h

/-- The slots and the count after the entries `xs`, with `k` empty slots behind `done`. -/
def slots (done : List App) (k : Nat) (xs : List (Option AppInfo)) : List App × Nat :=
  (done ++ (listed xs).map AppInfo.app ++ List.replicate (k - (listed xs).length) App.blank,
    done.length + (listed xs).length)

theorem slots_some (done : List App) (k : Nat) (info : AppInfo) (xs : List (Option AppInfo)) :
    slots done (k + 1) (some info :: xs) =
      if info.app.package.isSome then slots (done ++ [info.app]) k xs
      else slots done (k + 1) xs := by
  have hpackage : info.app.package.isSome = info.packageName.isSome := by simp [AppInfo.app]
  have hlisted : listed (some info :: xs) =
      if info.packageName.isSome then info :: listed xs else listed xs := by
    simp [listed, filter_cons]
  rw [hpackage]
  unfold slots
  rw [hlisted]
  split
  · refine Prod.ext (by simp) ?_
    simp only [length_cons, length_append, length_nil]
    omega
  · rfl

theorem decodes_apps {k : Nat} (hn : n ≤ k) (done : List App) :
    Decodes alloc (readApps? alloc n (done ++ List.replicate k App.blank) done.length)
      (slots done k <$> Grammar.repeated entry n) := by
  induction n generalizing k done with
  | zero =>
    refine (Decodes.pure _).of_eq ?_
    rw [Grammar.repeated, map_pure]
    simp [slots, listed]
  | succ n ih =>
    obtain ⟨k, rfl⟩ : ∃ m, k = m + 1 := ⟨k - 1, by omega⟩
    have hfill : ∀ a, (done ++ List.replicate (k + 1) App.blank).set done.length a =
        (done ++ [a]) ++ List.replicate k App.blank := by
      intro a
      rw [set_append_right _ _ (le_refl _), Nat.sub_self, replicate_succ, set_cons_zero,
        append_assoc, singleton_append]
    have hempty : ∀ a, ((done ++ [a]) ++ List.replicate k App.blank).set done.length App.blank =
        done ++ List.replicate (k + 1) App.blank := by
      intro a
      rw [append_assoc, set_append_right _ _ (le_refl _), Nat.sub_self, singleton_append,
        set_cons_zero, replicate_succ]
    have hskip : Decodes alloc
      (readApps? alloc n (done ++ List.replicate (k + 1) App.blank) done.length)
        (slots done (k + 1) <$> Grammar.repeated entry n) := ih (by omega) done
    refine (((decodes_i32 alloc).bind (G := fun marker => if marker = 0 then slots done (k + 1) <$>
      Grammar.repeated entry n else (AppInfo.app <$> appInfo) >>= fun a => if a.package.isSome then
      slots (done ++ [a]) k <$> Grammar.repeated entry n else slots done (k + 1) <$>
      Grammar.repeated entry n) fun marker => ?_).unless_error _).of_eq ?_
    · split
      · exact hskip
      · refine decodes_app.bind fun a => ?_
        have hlt : done.length < (done ++ List.replicate (k + 1) App.blank).length := by simp
        have hlt' : done.length < ((done ++ [a]) ++ List.replicate k App.blank).length := by simp
        have hnext := ih (k := k) (by omega) (done ++ [a])
        rw [length_append, length_singleton] at hnext
        rw [store?_eq hlt, pure_bind, hfill]
        simp only [store?_eq hlt', pure_bind, hempty]
        refine Decodes.fork (fun hc => ?_) (fun hc => ?_) hskip
        · rw [if_pos hc]
          exact hnext
        · rw [if_neg hc]
          exact hskip
    · simp only [Grammar.repeated, map_eq_pure_bind, bind_assoc]
      generalize Grammar.repeated entry n = rest
      simp only [entry, map_eq_pure_bind, bind_assoc]
      refine bind_congr fun marker => ?_
      split
      · simp only [pure_bind]
        rfl
      · simp only [bind_assoc, pure_bind]
        refine bind_congr fun info => ?_
        split
        · next hc => simp only [slots_some, if_pos hc]
        · next hc => simp only [slots_some, if_neg hc]

/-! ### The whole function -/

theorem i32_prefixFree : i32.PrefixFree := by
  rintro _ _ _ _ r s ⟨b₀, b₁, b₂, b₃, rfl, rfl⟩ ⟨c₀, c₁, c₂, c₃, rfl, rfl⟩ heq
  simp only [cons_append, nil_append, List.cons.injEq] at heq
  obtain ⟨rfl, rfl, rfl, rfl, -⟩ := heq
  exact ⟨rfl, rfl⟩

theorem str16_prefixFree : str16.PrefixFree := by
  refine i32_prefixFree.bind fun n => ?_
  split
  · exact .pure none
  · rintro _ _ u v r s ⟨-, hu, rfl⟩ ⟨-, hv, rfl⟩ heq
    obtain ⟨rfl, -⟩ := append_inj heq (hu.trans hv.symm)
    exact ⟨rfl, rfl⟩

theorem entry_prefixFree : entry.PrefixFree := by
  have hinfo : appInfo.PrefixFree := by
    refine str16_prefixFree.bind fun _ => str16_prefixFree.bind fun _ =>
      str16_prefixFree.bind fun _ => ?_
    refine str16_prefixFree.bind fun _ => str16_prefixFree.bind fun _ =>
      str16_prefixFree.bind fun _ => ?_
    refine i32_prefixFree.bind fun _ => (Grammar.PrefixFree.require _).bind fun _ => ?_
    exact (str16_prefixFree.repeated _).bind fun _ => .pure _
  refine i32_prefixFree.bind fun marker => ?_
  split
  · exact .pure none
  · rw [map_eq_pure_bind]
    exact hinfo.bind fun info => .pure (some info)

theorem appList_prefixFree : appList.PrefixFree :=
  i32_prefixFree.bind fun _ => (Grammar.PrefixFree.require _).bind fun _ =>
    entry_prefixFree.repeated _

theorem appList_iff {p₁ : Parcel} {n : Int32} (he : p.error = none) (h : getI32? p = some (n, p₁))
    {entries : List (Option AppInfo)} :
    (∃ w rest, p.data.drop p.pos = w ++ rest ∧ appList entries w) ↔
      p₁.error = none ∧ (0 ≤ n.toInt ∧ n.toInt ≤ maxList) ∧
      ∃ v p₂, Grammar.repeated entry n.toInt.toNat entries v ∧ p₁.Over v p₂ := by
  constructor
  · rintro ⟨_, rest, hd, m, u, _, rfl, hm, ⟨⟩, _, v, rfl, ⟨hrange, rfl⟩, hv⟩
    rw [nil_append] at hd
    obtain ⟨p', hover₁, hover₂⟩ := Parcel.Over.split ⟨⟨rest, hd⟩, rfl⟩
    have hread := (decodes_i32 fun _ => true).complete (fun _ => rfl) he hm hover₁
    obtain ⟨rfl, rfl⟩ : m = n ∧ p' = p₁ := by simpa using hread.symm.trans h
    refine ⟨?_, hrange, v, _, hv, hover₂⟩
    rw [hover₁.2]
    exact he
  · rintro ⟨he₁, hrange, v, p₂, hv, hover₂⟩
    obtain ⟨u, hn, hover₁⟩ := (decodes_i32 fun _ => true).sound h he₁
    obtain ⟨⟨rest, hd⟩, -⟩ := hover₁.trans hover₂
    exact ⟨u ++ v, rest, hd, n, u, v, rfl, hn, (), [], v, rfl, ⟨hrange, rfl⟩, hv⟩

/-- The reply behind the exception code. -/
def Result.body (called : Result) : List UInt8 := called.reply.data.drop called.reply.pos

/-- The reply begins with the list of `entries`. -/
def Result.Begins (called : Result) (entries : List (Option AppInfo)) : Prop :=
  ∃ w rest, called.body = w ++ rest ∧ appList entries w

/-- Behind the count `n` comes the list of `entries`. -/
structure Follows (n : Int32) (p : Parcel) (entries : List (Option AppInfo)) : Prop where
  error : p.error = none
  range : 0 ≤ n.toInt ∧ n.toInt ≤ maxList
  words : ∃ v p', Grammar.repeated entry n.toInt.toNat entries v ∧ p.Over v p'

theorem listFrom?_spec (alloc : Nat → Bool) (n : Int32) (p : Parcel) :
    ∃ r, listFrom? alloc n p = some r ∧
      (r.rc = none → ∃ entries out, Follows n p entries ∧ r.apps = some out ∧
        out.take r.count = (listed entries).map AppInfo.app ∧
        r.count = (listed entries).length) ∧
      (r.rc ≠ none → r.apps = none ∧ r.count = 0) ∧
      ((∀ n, alloc n = true) → ∀ entries, Follows n p entries → r.rc = none) := by
  unfold listFrom?
  by_cases hbad : p.error.isSome ∨ n.toInt < 0 ∨ n.toInt > maxList
  · refine ⟨_, if_pos hbad, nofun, fun _ => ⟨rfl, rfl⟩, fun _ entries h => ?_⟩
    rcases hbad with he | hlow | hhigh
    · rw [h.error] at he
      cases he
    · exact absurd hlow (not_lt.mpr h.range.1)
    · exact absurd hhigh (not_lt.mpr h.range.2)
  · rw [if_neg hbad]
    simp only [not_or, not_lt, Bool.not_eq_true, Option.isSome_eq_false_iff,
      Option.isNone_iff_eq_none] at hbad
    obtain ⟨he, hlow, hhigh⟩ := hbad
    dsimp only
    generalize hslots : (if 0 < n.toInt.toNat then n.toInt.toNat else 1) = k
    have hk : n.toInt.toNat ≤ k := by
      rw [← hslots]
      split <;> omega
    cases halloc : alloc (k * appSize) with
    | false =>
      refine ⟨_, if_pos rfl, nofun, fun _ => ⟨rfl, rfl⟩, fun hmem => ?_⟩
      rw [hmem] at halloc
      cases halloc
    | true =>
      have hdec : Decodes alloc _ _ := decodes_apps hk []
      obtain ⟨⟨out, used⟩, p', hrun, -⟩ := hdec.total p
      have hread : readApps? alloc n.toInt.toNat (List.replicate k .blank) 0 p = some ((out, used), p') := hrun
      rw [if_neg (by decide), hread, Option.bind_eq_bind, Option.bind_some]
      dsimp only
      cases he' : p'.error with
      | some e =>
        refine ⟨_, if_pos rfl, nofun, fun _ => ⟨rfl, rfl⟩, fun hmem entries h => ?_⟩
        obtain ⟨v, q, hv, hover⟩ := h.words
        have hcomplete := hdec.complete hmem he (Grammar.map_iff.mpr ⟨entries, hv, rfl⟩) hover
        obtain ⟨-, rfl⟩ : _ ∧ q = p' := by simpa using hcomplete.symm.trans hrun
        rw [hover.2, he] at he'
        cases he'
      | none =>
        refine ⟨_, if_neg nofun, fun _ => ?_, fun h => absurd rfl h, fun _ _ _ => rfl⟩
        obtain ⟨v, hv, hover⟩ := hdec.sound hrun he'
        obtain ⟨entries, hv, hout⟩ := Grammar.map_iff.mp hv
        refine ⟨entries, out, ⟨he, ⟨hlow, hhigh⟩, v, p', hv, hover⟩, rfl, ?_⟩
        obtain ⟨rfl, rfl⟩ := Prod.ext_iff.mp hout
        simp [slots]

/-! ### On a connection -/

def ifacePlatform : List UInt8 := Session.ascii "lineageos.waydroid.IPlatform"

def platformGetAppsInfo : Nat := 3

/-- `wdb_platform_list_apps`. -/
def Session.listApps (s : Session) (alloc : Nat → Bool) (envs : List Env) :
    Option (Listed × Session) := do
  let (called, s) ← s.platformCall platformGetAppsInfo (({} : Parcel).putToken alloc ifacePlatform)
    envs
  let r ← listApps? alloc called
  some (r, s)

theorem Session.platformCall_sound {s s' : Session} {code : Nat} {req : Parcel} {envs : List Env}
    {called : Result} (h : s.platformCall code req envs = some (called, s'))
    (hrc : called.rc = none) : called.reply.error = none := by
  obtain ⟨⟨r, s₁⟩, -, hr⟩ := Option.map_eq_some_iff.mp h
  dsimp only at hr
  split at hr
  · cases hr
    cases hrc
  · split_ifs at hr with herr hex <;> cases hr
    · cases hrc
    · cases hrc
    · simpa using herr

/-- **The list of apps is what the reply says.**  The function is defined whatever `platform_call`
came to.  With `WDB_OK` the slots show the entries that have a package, in order and no others;
otherwise there is no list and the count is zero.  With memory it returns `WDB_OK` exactly if the
reply begins with a list, and it begins with one list at most. -/
theorem list_apps_decodes (alloc : Nat → Bool) {s s' : Session} {envs : List Env} {called : Result}
    (hcall : s.platformCall platformGetAppsInfo (({} : Parcel).putToken alloc ifacePlatform) envs =
      some (called, s')) :
    ∃ r, s.listApps alloc envs = some (r, s') ∧
      (r.rc = none → called.rc = none ∧ ∃ entries out, called.Begins entries ∧
        r.apps = some out ∧ Forall₂ App.Shows (out.take r.count) (listed entries) ∧
        r.count = (listed entries).length) ∧
      (r.rc ≠ none → r.apps = none ∧ r.count = 0) ∧
      ((∀ n, alloc n = true) →
        (r.rc = none ↔ called.rc = none ∧ ∃ entries, called.Begins entries)) ∧
      ∀ xs ys, called.Begins xs → called.Begins ys → xs = ys := by
  have hlist : ∀ r, listApps? alloc called = some r → s.listApps alloc envs = some (r, s') := by
    intro r hr
    simp only [Session.listApps, hcall, Option.bind_eq_bind, Option.bind_some, hr]
  have hunique : ∀ xs ys, called.Begins xs → called.Begins ys → xs = ys := by
    rintro xs ys ⟨u, r, hu, hxs⟩ ⟨v, s, hv, hys⟩
    exact (appList_prefixFree hxs hys (hu.symm.trans hv)).1
  cases hrc : called.rc with
  | some e =>
    refine ⟨{ rc := some e }, hlist _ (by rw [listApps?, hrc]), nofun, fun _ => ⟨rfl, rfl⟩,
      fun _ => ?_, hunique⟩
    simp
  | none =>
    have he := Session.platformCall_sound hcall hrc
    obtain ⟨n, p, hn, -⟩ := (decodes_i32 alloc).total called.reply
    obtain ⟨r, hr, hok, herr, hcomplete⟩ := listFrom?_spec alloc n p
    have hbegins : ∀ entries, called.Begins entries ↔ Follows n p entries := by
      intro entries
      refine (appList_iff he hn).trans ⟨?_, fun h => ⟨h.error, h.range, h.words⟩⟩
      rintro ⟨h₁, h₂, h₃⟩
      exact ⟨h₁, h₂, h₃⟩
    refine ⟨r, hlist r ?_, fun h => ⟨rfl, ?_⟩, herr, fun hmem => ⟨fun h => ⟨rfl, ?_⟩, ?_⟩, hunique⟩
    · simp only [listApps?, hrc, hn, Option.bind_eq_bind, Option.bind_some, hr]
    · obtain ⟨entries, out, hf, hout, htake, hcount⟩ := hok h
      refine ⟨entries, out, (hbegins entries).mpr hf, hout, ?_, hcount⟩
      rw [htake, forall₂_map_left_iff, forall₂_same]
      exact fun info _ => info.shows
    · obtain ⟨entries, out, hf, -⟩ := hok h
      exact ⟨entries, (hbegins entries).mpr hf⟩
    · rintro ⟨-, entries, h⟩
      exact hcomplete hmem entries ((hbegins entries).mp h)

/-- A list with a null entry, an entry without a package and one with a name and a package; the rest
of its strings and its categories are null. -/
def threeEntries : List UInt8 :=
  [0, 0, 0, 0] ++ [3, 0, 0, 0] ++ [0, 0, 0, 0] ++
    [1, 0, 0, 0] ++ [1, 0, 0, 0, 0x78, 0, 0, 0] ++ List.replicate 24 0xFF ++
    [1, 0, 0, 0] ++ [1, 0, 0, 0, 0x41, 0, 0, 0] ++ [1, 0, 0, 0, 0x70, 0, 0, 0] ++
    List.replicate 20 0xFF

/-- A connection with a cached handle, and the reply to the first call on it. -/
def connected : Session :=
  { wdb := { path := [47], fd := some 0, havePlatform := true, platform := 9 } }

def threeEntriesReply : Env where
  waits := [.read ([0x03, 0x72, 0x40, 0x80] ++ List.replicate 32 0 ++
      UInt8.ofNat threeEntries.length :: List.replicate 31 0)
    { memory := fun address => threeEntries.getD address 0 }]

theorem list_apps_threeEntries :
    ∃ called s' r, connected.platformCall platformGetAppsInfo
        (({} : Parcel).putToken (fun _ => true) ifacePlatform) [threeEntriesReply] =
          some (called, s') ∧
      connected.listApps (fun _ => true) [threeEntriesReply] = some (r, s') ∧
      (∃ entries out, called.Begins entries ∧ r.apps = some out ∧
        Forall₂ App.Shows (out.take r.count) (listed entries)) ∧ (r.rc, r.count) = (none, 1) := by
  obtain ⟨⟨called, s'⟩, hcall, hrc⟩ : ∃ x, connected.platformCall platformGetAppsInfo
      (({} : Parcel).putToken (fun _ => true) ifacePlatform) [threeEntriesReply] = some x ∧
      True := exists_of_any (by decide +kernel)
  obtain ⟨⟨r', s₁⟩, hrun, hres⟩ : ∃ x, connected.listApps (fun _ => true) [threeEntriesReply] =
      some x ∧ (x.1.rc, x.1.count) = (none, 1) := exists_of_any (by decide +kernel)
  obtain ⟨r, hr, hok, -⟩ := list_apps_decodes (fun _ => true) hcall
  obtain ⟨rfl, rfl⟩ : r' = r ∧ s₁ = s' := by simpa using hrun.symm.trans hr
  obtain ⟨-, entries, out, hb, hout, hshows, -⟩ := hok (congrArg Prod.fst hres)
  exact ⟨called, _, _, hcall, hr, ⟨entries, out, hb, hout, hshows⟩, hres⟩

end OniroSoc.Binder

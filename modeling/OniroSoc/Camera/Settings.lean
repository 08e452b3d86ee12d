import Mathlib.Tactic

/-!
# The settings of a camera

camera_service sends only what has changed.  `UpdateSettings` takes the items of the update and the
old ones that they do not replace, and adds them to a new `CameraMetadata` of a capacity computed
beforehand. The last smooth-zoom ratio becomes the zoom ratio.
-/

namespace OniroSoc.Camera.Settings
open List Option

inductive Tag where
  | zoomRatio
  | smoothZoomRatios
  | other (tag : Nat)
deriving DecidableEq

structure Item where
  tag : Tag
  data : List Nat
  width : Nat := 1
  narrow : width ≤ 8 := by decide
deriving DecidableEq

def zoomItem (ratio : Nat) : Item := { tag := .zoomRatio, data := [ratio], width := 4 }

/-- What is assumed of the metadata library and of its floats: a serialisation that is read back,
the bytes that an entry takes beside its slot, and the hundredths of integers. -/
structure Library (β : Type) where
  empty : β
  decode : β → Option (List Item)
  encode : List Item → β
  decode_encode : ∀ items, decode (encode items) = some items
  encode_ne : ∀ items, encode items ≠ empty
  entryBytes : Item → Nat
  /-- No element takes more than 8 bytes, and the padding of an entry is less. -/
  entryBytes_le : ∀ item, entryBytes item ≤ item.data.length * 8 + 8
  /-- A single float is stored in the slot. -/
  entryBytes_zoom : ∀ ratio, entryBytes (zoomItem ratio) = 0
  percent : Nat → Nat
  minusOne : Nat
  positive : Nat → Bool
  positive_percent : ∀ z, positive (percent z) = decide (0 < z)
  minusOne_neg : positive minusOne = false

structure CameraMetadata where
  (itemCapacity dataCapacity : Nat)
  items : List Item := []
  refused : Bool := false

variable {β : Type}

/-- An entry is refused when the slots or the bytes do not suffice. -/
def CameraMetadata.addEntry (lib : Library β) (m : CameraMetadata) (item : Item) : CameraMetadata :=
  if m.items.length < m.itemCapacity ∧
      ((m.items ++ [item]).map lib.entryBytes).sum ≤ m.dataCapacity then
    { m with items := m.items ++ [item] }
  else { m with refused := true }

def collect (lib : Library β) : List Item → List Item → Nat → List Item × Nat
  | [], items, smoothTarget => (items, smoothTarget)
  | item :: rest, items, smoothTarget =>
    if item.tag = .smoothZoomRatios then collect lib rest items
      (if item.data.length ≥ 2 then lib.percent
      (item.data.getD (item.data.length - 2) 0) else smoothTarget)
    else collect lib rest (items ++ [item]) smoothTarget

def dataBytes (items : List Item) : Nat := 4 + (items.map fun item => item.data.length * 8 + 8).sum

def fill (lib : Library β) (items : List Item) (smooth : Option Item) : CameraMetadata :=
  let out := items.foldl (CameraMetadata.addEntry lib)
    { itemCapacity := items.length + 2, dataCapacity := dataBytes items + 1 }
  match smooth with
  | some zoom => out.addEntry lib zoom
  | none => out

def build (lib : Library β) (old new : List Item) : CameraMetadata :=
  let (items, smoothTarget) := collect lib new [] lib.minusOne
  let smooth :=
    if lib.positive smoothTarget ∧ .zoomRatio ∉ items.map Item.tag then some (zoomItem smoothTarget)
    else none
  let tags := (smooth.toList ++ items).map Item.tag
  fill lib (items ++ old.filter (·.tag ∉ tags)) smooth

def contents [DecidableEq β] (lib : Library β) (merged : β) : List Item :=
  if merged = lib.empty then [] else (lib.decode merged).getD []

def mergeSettings [DecidableEq β] (lib : Library β) (merged update : β) : β :=
  match lib.decode update with
  | none => merged
  | some new => lib.encode (build lib (contents lib merged) new).items

def lookup (items : List Item) (tag : Tag) : Option Item := items.find? (·.tag = tag)

def pairs : List Nat → List (Nat × Nat)
  | zoom :: time :: rest => (zoom, time) :: pairs rest
  | _ => []

def smoothZoom (lib : Library β) (new : List Item) : Option Item := do
  let item ← lookup new .smoothZoomRatios
  let last ← (pairs item.data).getLast?
  if 0 < last.1 then some (zoomItem (lib.percent last.1)) else none

def carried (lib : Library β) (new : List Item) : Tag → Option Item
  | .smoothZoomRatios => none
  | .zoomRatio => (lookup new .zoomRatio).or (smoothZoom lib new)
  | .other tag => lookup new (.other tag)

def latest (lib : Library β) (updates : List β) (tag : Tag) : Option Item :=
  updates.foldl (fun value update =>
    ((lib.decode update).bind fun new => carried lib new tag).or value) none

/-- Each tag comes once, and smooth-zoom lists are whole pairs. -/
def Distinct (new : List Item) : Prop :=
  (new.map Item.tag).Nodup ∧ ∀ item ∈ new, item.tag = .smoothZoomRatios → Even item.data.length

theorem foldl_addEntry {lib : Library β} {m : CameraMetadata} {items : List Item}
    (hitems : m.items.length + items.length ≤ m.itemCapacity)
    (hdata : ((m.items ++ items).map lib.entryBytes).sum ≤ m.dataCapacity) :
    items.foldl (CameraMetadata.addEntry lib) m = { m with items := m.items ++ items } := by
  induction items generalizing m with
  | nil => simp
  | cons item items ih =>
    have hadd : m.addEntry lib item = { m with items := m.items ++ [item] } := by
      refine if_pos ⟨?_, ?_⟩
      · simp only [length_cons] at hitems
        omega
      · simp only [map_append, map_cons, sum_append, sum_cons, map_nil, sum_nil] at hdata ⊢
        omega
    rw [foldl_cons, hadd, ih]
    · simp
    · simp only [length_append, length_cons, length_nil] at hitems ⊢
      omega
    · simpa using hdata

theorem sum_entryBytes_le (lib : Library β) (items : List Item) :
    (items.map lib.entryBytes).sum + 4 ≤ dataBytes items := by
  rw [dataBytes, add_comm]
  exact Nat.add_le_add_left (sum_le_sum fun item _ => lib.entryBytes_le item) 4

section Merge
variable {lib : Library β} {old new : List Item}

def kept (new : List Item) : List Item := new.filter (·.tag ≠ .smoothZoomRatios)

theorem collect_items (lib : Library β) (new items : List Item) (s : Nat) :
    (collect lib new items s).1 = items ++ kept new := by
  induction new generalizing items s with
  | nil => simp [collect, kept]
  | cons item rest ih =>
    rw [collect]
    split_ifs with h <;> simp [ih, kept, h]

theorem collect_smooth (hno : ∀ item ∈ new, item.tag ≠ .smoothZoomRatios) (items : List Item)
    (s : Nat) : (collect lib new items s).2 = s := by
  induction new generalizing items with
  | nil => rfl
  | cons item rest ih =>
    rw [collect, if_neg (hno item (.head _))]
    exact ih (fun i hi => hno i (.tail _ hi)) _

theorem getLast?_pairs {data : List Nat} (h : Even data.length) :
    (pairs data).getLast?.map Prod.fst =
      if data.length ≥ 2 then some (data.getD (data.length - 2) 0) else none := by
  induction data using pairs.induct with
  | case1 zoom time rest ih =>
    have hrest : Even rest.length := by
      simpa [Nat.even_add_one] using h
    specialize ih hrest
    match rest, hrest with
    | [], _ => simp [pairs]
    | [x], hrest => simp at hrest
    | x :: y :: rest, _ =>
      rw [pairs, getLast?_cons]
      simp only [pairs, getLast?_cons, map_some, length_cons] at ih ⊢
      simpa using ih
  | case2 data hnot =>
    match data with
    | [] => rfl
    | [x] => simp at h
    | x :: y :: rest => exact absurd rfl (hnot x y rest)

theorem collect_target (lib : Library β) (hwf : Distinct new) (items : List Item) :
    let s := (collect lib new items lib.minusOne).2
    smoothZoom lib new = if lib.positive s then some (zoomItem s) else none := by
  induction new generalizing items with
  | nil => simp [collect, smoothZoom, lookup, lib.minusOne_neg]
  | cons item rest ih =>
    obtain ⟨hnodup, heven⟩ := hwf
    rw [map_cons, nodup_cons] at hnodup
    by_cases htag : item.tag = .smoothZoomRatios
    · have hno : ∀ i ∈ rest, i.tag ≠ .smoothZoomRatios := fun i hi heq =>
        hnodup.1 (htag ▸ heq ▸ List.mem_map_of_mem hi)
      have hpairs := getLast?_pairs (heven item (.head _) htag)
      simp only [collect, htag, if_true, collect_smooth hno]
      simp only [smoothZoom, lookup, find?_cons, htag, decide_true, bind_eq_bind, bind_some]
      split_ifs at hpairs ⊢ with hlen hpos hpos
      · obtain ⟨last, hlast, hfst⟩ := map_eq_some_iff.mp hpairs
        rw [lib.positive_percent, decide_eq_true_eq] at hpos
        simp only [hlast, bind_some, hfst, hpos, if_true]
      · obtain ⟨last, hlast, hfst⟩ := map_eq_some_iff.mp hpairs
        rw [lib.positive_percent, decide_eq_true_eq] at hpos
        simp only [hlast, bind_some, hfst, hpos, if_false]
      · rw [lib.minusOne_neg] at hpos
        cases hpos
      · simp [map_eq_none_iff.mp hpairs]
    · have hfind : smoothZoom lib (item :: rest) = smoothZoom lib rest := by
        simp [smoothZoom, lookup, htag]
      simp only [collect, htag, if_false, hfind]
      exact ih ⟨hnodup.2, fun i hi => heven i (.tail _ hi)⟩ _

variable {items : List Item} {tag : Tag}

theorem lookup_eq_none_iff : lookup items tag = none ↔ tag ∉ items.map Item.tag := by
  simp only [lookup, find?_eq_none, decide_eq_true_eq, List.mem_map, not_exists, not_and]

def synthesised (lib : Library β) (new : List Item) : Option Item :=
  if .zoomRatio ∈ (kept new).map Item.tag then none else smoothZoom lib new

def replaced (lib : Library β) (new : List Item) : List Tag :=
  ((synthesised lib new).toList ++ kept new).map Item.tag

theorem zoom_of_synthesised {item : Item} (h : item ∈ synthesised lib new) :
    (∃ z, item = zoomItem z) ∧ .zoomRatio ∉ (kept new).map Item.tag := by
  obtain ⟨hno, h⟩ := ite_none_left_eq_some.mp h
  simp only [smoothZoom, bind_eq_bind, bind_eq_some_iff, ite_none_right_eq_some] at h
  obtain ⟨-, -, last, -, -, ⟨⟩⟩ := h
  exact ⟨⟨_, rfl⟩, hno⟩

theorem fill_eq (items : List Item) (smooth : Option Item)
    (h : ∀ item ∈ smooth, ∃ z, item = zoomItem z) :
    (fill lib items smooth).refused = false ∧
      (fill lib items smooth).items = items ++ smooth.toList := by
  have hbytes := sum_entryBytes_le lib items
  have hitems : items.foldl (CameraMetadata.addEntry lib)
      { itemCapacity := items.length + 2, dataCapacity := dataBytes items + 1 } =
      { itemCapacity := items.length + 2, dataCapacity := dataBytes items + 1, items } :=
    foldl_addEntry (by simp) (show (items.map lib.entryBytes).sum ≤ dataBytes items + 1 by omega)
  cases smooth with
  | none => simp [fill, hitems]
  | some zoom =>
    obtain ⟨z, rfl⟩ := h zoom rfl
    simp only [fill, hitems, CameraMetadata.addEntry, map_append, sum_append, map_cons,
      lib.entryBytes_zoom, map_nil, sum_cons, sum_nil]
    rw [if_pos ⟨by omega, by omega⟩]
    exact ⟨rfl, rfl⟩

theorem build_eq (old : List Item) (hwf : Distinct new) :
    (build lib old new).refused = false ∧
    (build lib old new).items =
      kept new ++ old.filter (·.tag ∉ replaced lib new) ++ (synthesised lib new).toList := by
  have htarget := collect_target lib hwf []
  have hitems := collect_items lib new [] lib.minusOne
  rcases hcollect : collect lib new [] lib.minusOne with ⟨items, s⟩
  rw [hcollect] at htarget hitems
  obtain rfl : items = kept new := hitems
  have hsmooth : (if lib.positive s = true ∧ .zoomRatio ∉
    (kept new).map Item.tag then some (zoomItem s)
      else none) = synthesised lib new := by
    rw [synthesised, htarget, ite_and]
    split_ifs <;> rfl
  simp only [build, hcollect, hsmooth]
  exact fill_eq _ _ fun item hitem => (zoom_of_synthesised hitem).1

@[simp] theorem lookup_append (xs ys : List Item) (tag : Tag) :
    lookup (xs ++ ys) tag = (lookup xs tag).or (lookup ys tag) := find?_append

theorem lookup_filter {p : Item → Bool} (h : ∀ item : Item, item.tag = tag → p item = true) :
    lookup (items.filter p) tag = lookup items tag := by
  rw [lookup, find?_filter]
  refine congrFun (congrArg List.find? (funext fun item => ?_)) items
  by_cases htag : item.tag = tag <;> simp [htag, h]

theorem lookup_none (h : tag ∉ items.map Item.tag) : lookup items tag = none :=
  lookup_eq_none_iff.mpr h

theorem synthesised_tags (new : List Item) :
    (synthesised lib new).toList.map Item.tag ⊆ [.zoomRatio] := by
  intro tag htag
  obtain ⟨item, hitem, rfl⟩ := List.mem_map.mp htag
  obtain ⟨⟨z, rfl⟩, -⟩ := zoom_of_synthesised (mem_toList.mp hitem)
  exact .head _

theorem carried_eq (new : List Item) (tag : Tag) :
    carried lib new tag = lookup (kept new ++ (synthesised lib new).toList) tag := by
  have hkept (h : tag ≠ .smoothZoomRatios) : lookup (kept new) tag = lookup new tag :=
    lookup_filter fun item htag => by simpa [htag] using h
  have hsynth (h : tag ≠ .zoomRatio) : lookup (synthesised lib new).toList tag = none :=
    lookup_none fun hin => h (mem_singleton.mp (synthesised_tags new hin))
  cases tag with
  | smoothZoomRatios =>
    have hnone : lookup (kept new) .smoothZoomRatios = none := by
      simp [lookup, kept]
    simp [carried, hnone, hsynth]
  | other tag => simp [carried, hkept, hsynth]
  | zoomRatio =>
    rw [carried, lookup_append, hkept nofun]
    by_cases hin : .zoomRatio ∈ (kept new).map Item.tag
    · obtain ⟨item, hitem⟩ := ne_none_iff_exists'.mp (mt lookup_eq_none_iff.mp (not_not.mpr hin))
      rw [← hkept nofun, hitem, some_or, some_or]
    · have hnone : lookup new .zoomRatio = none := hkept nofun ▸ lookup_none hin
      rw [hnone, none_or, none_or, synthesised, if_neg hin]
      cases hsmooth : smoothZoom lib new with
      | none => rfl
      | some item =>
        have hsome : synthesised lib new = some item := (if_neg hin).trans hsmooth
        obtain ⟨⟨z, rfl⟩, -⟩ := zoom_of_synthesised hsome
        rfl

theorem lookup_build (old : List Item) (hwf : Distinct new) (tag : Tag) :
    lookup (build lib old new).items tag = (carried lib new tag).or (lookup old tag) := by
  rw [(build_eq old hwf).2, carried_eq]
  by_cases hin : tag ∈ replaced lib new
  · have hold : lookup (old.filter (·.tag ∉ replaced lib new)) tag = none := by
      refine lookup_none fun hfilter => ?_
      obtain ⟨item, hitem, rfl⟩ := List.mem_map.mp hfilter
      exact of_decide_eq_true (mem_filter.mp hitem).2 hin
    have hsome : lookup (kept new ++ (synthesised lib new).toList) tag ≠ none := by
      rw [Ne, lookup_eq_none_iff, not_not]
      simpa [replaced, or_comm] using hin
    obtain ⟨item, hitem⟩ := ne_none_iff_exists'.mp hsome
    rw [lookup_append] at hitem
    simp only [lookup_append, hold, or_none, hitem, some_or]
  · have hold : lookup (old.filter (·.tag ∉ replaced lib new)) tag = lookup old tag :=
      lookup_filter fun item htag => by simpa [htag] using hin
    rw [replaced, map_append, mem_append, not_or] at hin
    simp only [lookup_append, hold, lookup_none hin.1, lookup_none hin.2, or_none, none_or]

theorem nodup_build (hold : (old.map Item.tag).Nodup) (hwf : Distinct new) :
    ((build lib old new).items.map Item.tag).Nodup := by
  rw [(build_eq old hwf).2, map_append, map_append, append_assoc, nodup_append, nodup_append]
  refine ⟨hwf.1.sublist (filter_sublist.map _), ⟨hold.sublist (filter_sublist.map _), ?_, ?_⟩, ?_⟩
  · cases synthesised lib new <;> simp
  · intro tag htag tag' htag' heq
    obtain ⟨item, hitem, rfl⟩ := List.mem_map.mp htag
    refine of_decide_eq_true (mem_filter.mp hitem).2 ?_
    rw [replaced, map_append, heq]
    exact mem_append_left _ htag'
  · intro tag htag tag' htag' heq
    subst heq
    rcases mem_append.mp htag' with hfilter | hsynth
    · obtain ⟨item, hitem, rfl⟩ := List.mem_map.mp hfilter
      refine of_decide_eq_true (mem_filter.mp hitem).2 ?_
      rw [replaced, map_append]
      exact mem_append_right _ htag
    · obtain ⟨item, hitem, rfl⟩ := List.mem_map.mp hsynth
      obtain ⟨⟨z, rfl⟩, hno⟩ := zoom_of_synthesised (mem_toList.mp hitem)
      exact hno htag

end Merge

/-- The settings hold the values, each tag once, and no smooth-zoom list. -/
structure Holds [DecidableEq β] (lib : Library β) (merged : β)
    (values : Tag → Option Item) : Prop where
  values : ∀ tag, lookup (contents lib merged) tag = values tag
  once : ((contents lib merged).map Item.tag).Nodup
  smooth : .smoothZoomRatios ∉ (contents lib merged).map Item.tag

/-- **Settings accumulate.** After any updates the settings have for each tag its value in the
latest update that carried it.  No merge runs out of capacity. -/
theorem settings_accumulate [DecidableEq β] (lib : Library β) (updates : List β)
    (hwf : ∀ update ∈ updates, ∀ new, lib.decode update = some new → Distinct new) :
    Holds lib (updates.foldl (mergeSettings lib) lib.empty) (latest lib updates) ∧
    ∀ update ∈ updates,
      ∀ new, lib.decode update = some new → ∀ old, (build lib old new).refused = false := by
  refine ⟨?_, fun update hin new hnew old => (build_eq old (hwf update hin new hnew)).1⟩
  induction updates using reverseRecOn with
  | nil => exact ⟨by simp [contents, lookup, latest], by simp [contents], by simp [contents]⟩
  | append_singleton updates update ih =>
    have hold := ih fun u hu => hwf u (mem_append_left _ hu)
    simp only [foldl_append, foldl_cons, foldl_nil, mergeSettings]
    cases hnew : lib.decode update with
    | none =>
      have hlatest : latest lib (updates ++ [update]) = latest lib updates := by
        funext tag
        simp [latest, hnew]
      exact hlatest ▸ hold
    | some new =>
      have hdistinct := hwf update (by simp) new hnew
      generalize updates.foldl (mergeSettings lib) lib.empty = merged at hold
      have hcontents : contents lib (lib.encode (build lib (contents lib merged) new).items) =
          (build lib (contents lib merged) new).items := by
        rw [contents, if_neg (lib.encode_ne _), lib.decode_encode, getD_some]
      constructor
      · intro tag
        rw [hcontents, lookup_build _ hdistinct, hold.values]
        simp [latest, hnew]
      · rw [hcontents]
        exact nodup_build hold.once hdistinct
      · rw [hcontents, ← lookup_eq_none_iff, lookup_build _ hdistinct, carried, none_or]
        exact lookup_none hold.smooth

/-- The library as it is, but for its serialisation. -/
def transparent : Library (Option (List Item)) where
  empty := none
  decode vec := vec
  encode := some
  decode_encode _ := rfl
  encode_ne := nofun
  entryBytes item :=
    let bytes := item.data.length * item.width
    if bytes ≤ 4 then 0 else (bytes + 7) / 8 * 8
  entryBytes_le item := by
    have := Nat.mul_le_mul_left item.data.length item.narrow
    dsimp only
    split_ifs <;> omega
  entryBytes_zoom _ := rfl
  percent z := z
  minusOne := 0
  positive z := decide (0 < z)
  positive_percent _ := rfl
  minusOne_neg := rfl

def zooming : List (Option (List Item)) :=
  [some [{ tag := .other 7, data := [1] }], none,
    some [{ tag := .smoothZoomRatios, data := [200, 10, 300, 20], width := 4 }]]

theorem settings_accumulate_zooming :
    lookup (contents transparent (zooming.foldl (mergeSettings transparent) none)) .zoomRatio =
      some (zoomItem 300) := by
  refine ((settings_accumulate transparent zooming ?_).1.values .zoomRatio).trans (by decide)
  simp [zooming, transparent, Distinct]
  decide

end OniroSoc.Camera.Settings

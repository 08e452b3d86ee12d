import OniroSoc.Support.Lookup
import OniroSoc.Support.Runs

/-!
# Composition types

A layer is composed with the GPU (CLIENT) or by the hardware composer.  `HybrisDisplay` makes its
sticky layers CLIENT before a frame is validated, and reports those whose entry says CLIENT; what
the hardware composer changed is stored in the same map.
-/

namespace OniroSoc.Display.Composition
open Support List Option Function

inductive Hwc2Composition where
  | invalid | client | device | solidColor | cursor | sideband
deriving DecidableEq

inductive CompositionType where
  | client | device | cursor | video | deviceClear | clientClear | tunnel
  | other (value : Int)
deriving DecidableEq

def ohosToHwc2CompositionType : CompositionType → Hwc2Composition
  | .client => .client
  | .device => .device
  | .cursor => .cursor
  | .video => .device
  | .deviceClear => .device
  | .clientClear => .client
  | .tunnel => .sideband
  | .other _ => .client

structure HybrisDisplay where
  layers : AList fun _ : UInt32 => Nat := ∅
  nextLayerId : UInt32 := 1
  (stickyClientLayers pendingClientLayers : AList fun _ : UInt32 => Hwc2Composition := ∅)
  (needsClientComposition needFlushFb : Bool := false)
  made : Nat := 0
  (types committed : Nat → Hwc2Composition := fun _ => .invalid)
  listed : List Nat := []

structure Validation where
  valid : Bool := true
  changed : AList fun _ : Nat => Hwc2Composition := ∅
  readable : Bool := true

namespace HybrisDisplay

def createLayer (d : HybrisDisplay) (made cursor : Bool) : Option (HybrisDisplay × UInt32) :=
  if !made then none
  else
    let layerId := d.nextLayerId
    let compType := if cursor then CompositionType.cursor else .client
    some ({ d with
      nextLayerId := d.nextLayerId + 1
      made := d.made + 1
      types := update d.types d.made (ohosToHwc2CompositionType compType)
      layers := d.layers.insert layerId d.made
      stickyClientLayers := d.stickyClientLayers.insert layerId .client }, layerId)

def destroyLayer (d : HybrisDisplay) (layerId : UInt32) : Option HybrisDisplay :=
  match d.layers.lookup layerId with
  | none => none
  | some _ => some { d with
      layers := d.layers.erase layerId
      stickyClientLayers := d.stickyClientLayers.erase layerId
      pendingClientLayers := d.pendingClientLayers.erase layerId }

def setLayerCompositionType (d : HybrisDisplay) (layerId : UInt32)
    (type : CompositionType) : Option HybrisDisplay :=
  (d.layers.lookup layerId).map fun layer =>
    { d with types := update d.types layer (ohosToHwc2CompositionType type) }

def forceClient (d : HybrisDisplay) : Nat → Hwc2Composition :=
  d.stickyClientLayers.keys.foldl (fun types layerId =>
    match d.layers.lookup layerId with
    | some layer => update types layer (ohosToHwc2CompositionType .client)
    | none => types) d.types

def layerIdOf (d : HybrisDisplay) (layer : Nat) : Option UInt32 :=
  (d.layers.entries.find? (·.2 = layer)).map (·.1)

def recordChanges (d : HybrisDisplay) (changed : List (Sigma fun _ : Nat => Hwc2Composition))
    (sticky : AList fun _ : UInt32 => Hwc2Composition) : AList fun _ : UInt32 => Hwc2Composition :=
  changed.foldl (fun sticky entry =>
    match d.layerIdOf entry.1 with
    | some layerId => sticky.insert layerId entry.2
    | none => sticky) sticky

def getDisplayCompChange (d : HybrisDisplay) : List (UInt32 × CompositionType) :=
  if !d.needsClientComposition || d.pendingClientLayers.entries.isEmpty then []
  else d.pendingClientLayers.entries.filterMap fun entry =>
    if entry.2 = .client then some (entry.1, .client) else none

def acceptChanges (d : HybrisDisplay) (changed : AList fun _ : Nat => Hwc2Composition) : Nat →
    Hwc2Composition :=
  fun layer => if layer < d.made then (changed.lookup layer).getD (d.types layer)
    else d.committed layer

def list (d : HybrisDisplay) : HybrisDisplay :=
  { d with listed := d.getDisplayCompChange.filterMap (fun entry => d.layers.lookup entry.1) ++ d.listed }

def prepareDisplayLayers (d : HybrisDisplay) (a : Validation) : HybrisDisplay × Bool :=
  let d := { d with types := d.forceClient }
  if !a.valid then ({ d with needFlushFb := true }, false)
  else
    let d := { d with committed := d.acceptChanges a.changed }
    if a.changed.entries.isEmpty then
      if d.stickyClientLayers.entries.isEmpty then
        ({ d with needFlushFb := false, needsClientComposition := false, pendingClientLayers := ∅ }.list, true)
      else ({ d with
          pendingClientLayers := d.stickyClientLayers
          needsClientComposition := true
          needFlushFb := true }.list, true)
    else
      let sticky :=
        if a.readable then d.recordChanges a.changed.entries d.stickyClientLayers else d.stickyClientLayers
      ({ d with
        stickyClientLayers := sticky
        pendingClientLayers := sticky
        needsClientComposition := !sticky.entries.isEmpty
        needFlushFb := true }.list, true)

end HybrisDisplay

inductive Operation where
  | createLayer (made cursor : Bool)
  | destroyLayer (layerId : UInt32)
  | setLayerCompositionType (layerId : UInt32) (type : CompositionType)
  | prepareDisplayLayers (a : Validation)

def step (d : HybrisDisplay) : Operation → Option HybrisDisplay
  | .createLayer made cursor => some (((d.createLayer made cursor).map Prod.fst).getD d)
  | .destroyLayer layerId => some ((d.destroyLayer layerId).getD d)
  | .setLayerCompositionType layerId type => some ((d.setLayerCompositionType layerId type).getD d)
  | .prepareDisplayLayers a => some (d.prepareDisplayLayers a).1

/-- The condition on a call.  A new layer gets an id that is not in use.  In a frame that validates,
a layer that is not changed was stored as CLIENT; a change that can be read makes a layer CLIENT, or
the layer was not reported before; and a change that cannot be read makes CLIENT exactly what was
stored as CLIENT. -/
def Fits (d : HybrisDisplay) : Operation → Prop
  | .createLayer made _ => made = true → d.nextLayerId ∉ d.layers
  | .prepareDisplayLayers a =>
    a.valid = true → ∀ layerId layer, d.layers.lookup layerId = some layer →
      match a.changed.lookup layer with
      | none => d.stickyClientLayers.lookup layerId = some .client
      | some type =>
        if a.readable then type = .client ∨ d.pendingClientLayers.lookup layerId ≠ some .client
        else type = .client ↔ d.stickyClientLayers.lookup layerId = some .client
  | _ => True

section Loops
variable {d : HybrisDisplay} {layerId : UInt32} {layer : Nat}

theorem forceClient_eq (hmem : layerId ∈ d.stickyClientLayers)
    (hlayer : d.layers.lookup layerId = some layer) : d.forceClient layer = .client := by
  have hfold : ∀ (keys : List UInt32) (types : Nat → Hwc2Composition), types layer = .client ∨
      layerId ∈ keys → keys.foldl (fun types layerId =>
        match d.layers.lookup layerId with
        | some layer => update types layer (ohosToHwc2CompositionType .client)
        | none => types) types layer = .client := by
    intro keys
    induction keys with
    | nil =>
      rintro types (h | h)
      · exact h
      · cases h
    | cons key keys ih =>
      intro types h
      refine ih _ ?_
      dsimp only
      rcases h with h | h
      · -- Only CLIENT is written, so a type that is CLIENT stays so.
        left
        split
        · rw [update_apply]
          split_ifs
          · rfl
          · exact h
        · exact h
      · rcases mem_cons.mp h with rfl | h
        · left
          rw [hlayer]
          exact update_self ..
        · exact .inr h
  exact hfold _ _ (.inr hmem)

def Distinct (d : HybrisDisplay) : Prop :=
  ∀ id id' layer, d.layers.lookup id = some layer → d.layers.lookup id' = some layer → id = id'

theorem lookup_of_layerIdOf (h : d.layerIdOf layer = some layerId) :
    d.layers.lookup layerId = some layer := by
  obtain ⟨entry, hfind, rfl⟩ := map_eq_some_iff.mp h
  have hlayer := find?_some hfind
  rw [decide_eq_true_iff] at hlayer
  exact hlayer ▸ AList.mem_lookup_iff.mpr (mem_of_find?_eq_some hfind)

theorem layerIdOf_eq (hdistinct : Distinct d) (h : d.layers.lookup layerId = some layer) :
    d.layerIdOf layer = some layerId := by
  cases hid : d.layerIdOf layer with
  | some id => rw [hdistinct id layerId layer (lookup_of_layerIdOf hid) h]
  | none =>
    have hnone := find?_eq_none.mp (map_eq_none_iff.mp hid) _ (AList.mem_lookup_iff.mp h)
    exact absurd (decide_eq_true rfl) hnone

theorem lookup_recordChanges (hdistinct : Distinct d)
    (hlayer : d.layers.lookup layerId = some layer)
    (changed : List (Sigma fun _ : Nat => Hwc2Composition)) (hnodup : changed.NodupKeys)
    (sticky : AList fun _ : UInt32 => Hwc2Composition) :
    (d.recordChanges changed sticky).lookup layerId =
      (changed.dlookup layer).or (sticky.lookup layerId) := by
  induction changed generalizing sticky with
  | nil => rfl
  | cons entry changed ih =>
    obtain ⟨key, type⟩ := entry
    obtain ⟨hkey, hnodup⟩ := nodupKeys_cons.mp hnodup
    refine (ih hnodup _).trans ?_
    dsimp only
    by_cases h : key = layer
    · subst h
      rw [layerIdOf_eq hdistinct hlayer, dlookup_eq_none.mpr hkey, dlookup_cons_eq]
      exact AList.lookup_insert _
    · rw [dlookup_cons_ne _ _ (Ne.symm h)]
      cases hid : d.layerIdOf key with
      | none => rfl
      | some id =>
        have hne : layerId ≠ id := by
          rintro rfl
          exact h (Option.some.inj ((lookup_of_layerIdOf hid).symm.trans hlayer))
        dsimp only
        rw [AList.lookup_insert_ne hne]

theorem mem_recordChanges (changed : List (Sigma fun _ : Nat => Hwc2Composition))
    (sticky : AList fun _ : UInt32 => Hwc2Composition)
    (hsticky : ∀ id, id ∈ sticky ↔ id ∈ d.layers) (id : UInt32) :
    id ∈ d.recordChanges changed sticky ↔ id ∈ d.layers := by
  induction changed generalizing sticky with
  | nil => exact hsticky id
  | cons entry changed ih =>
    refine ih _ fun id => ?_
    dsimp only
    cases hid : d.layerIdOf entry.1 with
    | none => exact hsticky id
    | some id' =>
      have hlive : id' ∈ d.layers :=
        mem_of_lookup (lookup_of_layerIdOf hid)
      rw [AList.mem_insert, hsticky]
      exact ⟨fun h => h.elim (fun h => h ▸ hlive) fun h => h, .inr⟩

theorem mem_getDisplayCompChange {type : CompositionType} :
    (layerId, type) ∈ d.getDisplayCompChange ↔
      d.needsClientComposition = true ∧ type = .client ∧
      d.pendingClientLayers.lookup layerId = some .client := by
  have hmem : (layerId, type) ∈ d.pendingClientLayers.entries.filterMap (fun entry =>
      if entry.2 = .client then some (entry.1, .client) else none) ↔
        type = .client ∧ d.pendingClientLayers.lookup layerId = some .client := by
    rw [mem_filterMap]
    constructor
    · rintro ⟨⟨id, stored⟩, hentry, hsome⟩
      split_ifs at hsome with hclient
      cases hsome
      cases hclient
      exact ⟨rfl, AList.mem_lookup_iff.mpr hentry⟩
    · rintro ⟨rfl, hlookup⟩
      exact ⟨⟨layerId, .client⟩, AList.mem_lookup_iff.mp hlookup, if_pos rfl⟩
  rw [HybrisDisplay.getDisplayCompChange, ← hmem]
  cases d.needsClientComposition with
  | false => simp
  | true =>
    cases hempty : d.pendingClientLayers.entries with
    | nil => simp
    | cons entry entries => simp

end Loops

structure Sound (d : HybrisDisplay) : Prop where
  keys : ∀ id, id ∈ d.stickyClientLayers ↔ id ∈ d.layers
  pending : ∀ id type, d.pendingClientLayers.lookup id = some type →
    d.stickyClientLayers.lookup id = some type
  needs : ∀ id, id ∈ d.pendingClientLayers → d.needsClientComposition = true
  flush : ∀ id, d.pendingClientLayers.lookup id = some .client → d.needFlushFb = true
  made : ∀ id layer, d.layers.lookup id = some layer → layer < d.made
  distinct : Distinct d
  fresh : ∀ layer, d.made ≤ layer → d.committed layer ≠ .client
  agrees : ∀ id layer, d.layers.lookup id = some layer →
    (d.pendingClientLayers.lookup id = some .client ↔ d.committed layer = .client)
  listed : ∀ layer ∈ d.listed, layer < d.made ∧ ∀ id, d.layers.lookup id = some layer →
    d.pendingClientLayers.lookup id = some .client

section Calls
variable {d d' : HybrisDisplay} {layerId : UInt32} {layer : Nat}

section
variable (hs : Sound d)
include hs

theorem Sound.createLayer (hnew : d.nextLayerId ∉ d.layers) (cursor : Bool)
    {result : HybrisDisplay × UInt32} (h : d.createLayer true cursor = some result) :
    Sound result.1 := by
  cases h
  have hpending : d.pendingClientLayers.lookup d.nextLayerId = none := by
    cases h : d.pendingClientLayers.lookup d.nextLayerId with
    | none => rfl
    | some type => exact absurd ((hs.keys _).mp (mem_of_lookup (hs.pending _ _ h))) hnew
  refine ⟨?_, ?_, hs.needs, hs.flush, ?_, ?_, ?_, ?_, ?_⟩
  · intro id
    simp only [AList.mem_insert, hs.keys]
  · intro id type h
    have hne : id ≠ d.nextLayerId := by
      rintro rfl
      cases hpending.symm.trans h
    exact (AList.lookup_insert_ne hne).trans (hs.pending id type h)
  · intro id layer h
    rcases lookup_insert_eq_some_iff.mp h with ⟨-, rfl⟩ | ⟨-, h⟩
    · exact Nat.lt_succ_self _
    · exact Nat.lt_succ_of_lt (hs.made id layer h)
  · intro id id' layer h h'
    rcases lookup_insert_eq_some_iff.mp h with ⟨rfl, rfl⟩ | ⟨-, h⟩ <;>
      rcases lookup_insert_eq_some_iff.mp h' with ⟨rfl, hlayer⟩ | ⟨-, h'⟩
    · rfl
    · exact absurd (hs.made id' _ h') (lt_irrefl _)
    · subst hlayer
      exact absurd (hs.made id _ h) (lt_irrefl _)
    · exact hs.distinct id id' layer h h'
  · exact fun layer h => hs.fresh layer (Nat.le_of_succ_le h)
  · intro id layer h
    rcases lookup_insert_eq_some_iff.mp h with ⟨rfl, rfl⟩ | ⟨-, h⟩
    · exact iff_of_false (fun h => nomatch hpending.symm.trans h) (hs.fresh _ le_rfl)
    · exact hs.agrees id layer h
  · intro layer hlayer
    obtain ⟨hlt, hids⟩ := hs.listed layer hlayer
    refine ⟨Nat.lt_succ_of_lt hlt, fun id h => ?_⟩
    rcases lookup_insert_eq_some_iff.mp h with ⟨-, rfl⟩ | ⟨-, h⟩
    · exact absurd hlt (lt_irrefl _)
    · exact hids id h

theorem Sound.destroyLayer (h : d.destroyLayer layerId = some d') : Sound d' := by
  rw [HybrisDisplay.destroyLayer] at h
  split at h
  · cases h
  cases h
  refine ⟨?_, ?_, ?_, ?_, ?_, ?_, hs.fresh, ?_, ?_⟩
  · intro id
    simp only [AList.mem_erase, hs.keys]
  · intro id type h
    obtain ⟨hne, h⟩ := lookup_erase_eq_some_iff.mp h
    exact (AList.lookup_erase_ne hne).trans (hs.pending id type h)
  · exact fun id h => hs.needs id (AList.mem_erase.mp h).2
  · exact fun id h => hs.flush id (lookup_erase_eq_some_iff.mp h).2
  · exact fun id layer h => hs.made id layer (lookup_erase_eq_some_iff.mp h).2
  · exact fun id id' layer h h' => hs.distinct id id' layer (lookup_erase_eq_some_iff.mp h).2
      (lookup_erase_eq_some_iff.mp h').2
  · intro id layer h
    obtain ⟨hne, h⟩ := lookup_erase_eq_some_iff.mp h
    rw [← hs.agrees id layer h]
    show (d.pendingClientLayers.erase layerId).lookup id = _ ↔ _
    rw [AList.lookup_erase_ne hne]
  · intro layer hlayer
    obtain ⟨hlt, hids⟩ := hs.listed layer hlayer
    refine ⟨hlt, fun id h => ?_⟩
    obtain ⟨hne, h⟩ := lookup_erase_eq_some_iff.mp h
    exact (AList.lookup_erase_ne hne).trans (hids id h)

theorem Sound.setLayerCompositionType {type : CompositionType}
    (h : d.setLayerCompositionType layerId type = some d') : Sound d' := by
  obtain ⟨layer, -, rfl⟩ := map_eq_some_iff.mp h
  exact { hs with }

theorem Sound.prepared {types committed : Nat → Hwc2Composition}
    {sticky : AList fun _ : UInt32 => Hwc2Composition} {needs flush : Bool}
    (hkeys : ∀ id, id ∈ sticky ↔ id ∈ d.layers)
    (hflush : ∀ id, id ∈ sticky → needs = true ∧ flush = true)
    (hfresh : ∀ layer, d.made ≤ layer → committed layer ≠ .client)
    (hagrees : ∀ id layer, d.layers.lookup id = some layer →
      (sticky.lookup id = some .client ↔ committed layer = .client))
    (hstays : ∀ id, d.pendingClientLayers.lookup id = some .client → sticky.lookup id =
      some .client) :
    Sound { d with
      types, committed
      stickyClientLayers := sticky
      pendingClientLayers := sticky
      needsClientComposition := needs
      needFlushFb := flush }.list := by
  refine ⟨hkeys, fun id type h => h, fun id h => (hflush id h).1,
    fun id h => (hflush id (mem_of_lookup h)).2, hs.made, hs.distinct, hfresh, hagrees, ?_⟩
  intro layer hlayer
  rcases mem_append.mp hlayer with hlayer | hlayer
  · obtain ⟨⟨id, type⟩, hentry, hlookup⟩ := mem_filterMap.mp hlayer
    obtain ⟨-, -, hclient⟩ := mem_getDisplayCompChange.mp hentry
    refine ⟨hs.made id layer hlookup, fun id' h => ?_⟩
    cases hs.distinct id id' layer hlookup h
    exact hclient
  · obtain ⟨hlt, hids⟩ := hs.listed layer hlayer
    exact ⟨hlt, fun id h => hstays id (hids id h)⟩

theorem acceptChanges_eq (changed : AList fun _ : Nat => Hwc2Composition)
    (h : d.layers.lookup layerId = some layer) :
    { d with types := d.forceClient }.acceptChanges changed layer =
      (changed.lookup layer).getD .client := by
  refine (if_pos (hs.made layerId layer h)).trans ?_
  show (changed.lookup layer).getD (d.forceClient layer) = _
  rw [forceClient_eq ((hs.keys layerId).mpr (mem_of_lookup h)) h]

theorem acceptChanges_fresh (changed : AList fun _ : Nat => Hwc2Composition)
    (h : d.made ≤ layer) :
    { d with types := d.forceClient }.acceptChanges changed layer ≠ .client := by
  have heq : { d with types := d.forceClient }.acceptChanges changed layer = d.committed layer :=
    if_neg (not_lt.mpr h)
  rw [heq]
  exact hs.fresh layer h

end

def HybrisDisplay.stickyAfter (d : HybrisDisplay) (a : Validation) : AList fun _ : UInt32 =>
    Hwc2Composition :=
  if a.readable then d.recordChanges a.changed.entries d.stickyClientLayers
    else d.stickyClientLayers

theorem lookup_stickyAfter (hs : Sound d) (a : Validation)
    (h : d.layers.lookup layerId = some layer) :
    (d.stickyAfter a).lookup layerId =
      if a.readable then (a.changed.lookup layer).or (d.stickyClientLayers.lookup layerId) else
        d.stickyClientLayers.lookup layerId := by
  rw [HybrisDisplay.stickyAfter]
  cases a.readable with
  | false => rfl
  | true => exact lookup_recordChanges hs.distinct h a.changed.entries a.changed.nodupKeys d.stickyClientLayers

theorem mem_stickyAfter (hs : Sound d) (a : Validation) (id : UInt32) :
    id ∈ d.stickyAfter a ↔ id ∈ d.layers := by
  rw [HybrisDisplay.stickyAfter]
  cases a.readable with
  | false => exact hs.keys id
  | true => exact mem_recordChanges a.changed.entries d.stickyClientLayers hs.keys id

variable {a : Validation}

theorem Sound.stickyAfter (hs : Sound d) (hvalid : a.valid = true)
    (hfits : Fits d (.prepareDisplayLayers a)) :
    (∀ id layer, d.layers.lookup id = some layer →
        ((d.stickyAfter a).lookup id = some .client ↔
          { d with types := d.forceClient }.acceptChanges a.changed layer = .client)) ∧
    ∀ id, d.pendingClientLayers.lookup id = some .client →
        (d.stickyAfter a).lookup id = some .client := by
  constructor
  · intro id layer h
    have hlayer := hfits hvalid id layer h
    rw [lookup_stickyAfter hs a h, acceptChanges_eq hs a.changed h]
    cases hchanged : a.changed.lookup layer with
    | none =>
      rw [hchanged] at hlayer
      refine iff_of_true ?_ rfl
      rw [none_or, ite_self]
      exact hlayer
    | some type =>
      rw [hchanged] at hlayer
      cases hreadable : a.readable with
      | false =>
        rw [hreadable] at hlayer
        exact hlayer.symm
      | true => exact some_inj
  · intro id hpending
    have hsticky := hs.pending id _ hpending
    obtain ⟨layer, h⟩ := isSome_iff_exists.mp
      (AList.lookup_isSome.mpr ((hs.keys id).mp (mem_of_lookup hsticky)))
    have hlayer := hfits hvalid id layer h
    rw [lookup_stickyAfter hs a h]
    cases hchanged : a.changed.lookup layer with
    | none => rw [none_or, ite_self, hsticky]
    | some type =>
      rw [hchanged] at hlayer
      cases hreadable : a.readable with
      | false => exact hsticky
      | true =>
        rw [hreadable] at hlayer
        exact congrArg some (hlayer.resolve_right (not_not.mpr hpending))

theorem prepareDisplayLayers_valid (d : HybrisDisplay) (hvalid : a.valid = true) : ∃ needs flush, (∀ id, id ∈
    d.stickyAfter a → needs = true ∧ flush = true) ∧ (d.prepareDisplayLayers a).1 = { d with
        types := d.forceClient
        committed := { d with types := d.forceClient }.acceptChanges a.changed
        stickyClientLayers := d.stickyAfter a
        pendingClientLayers := d.stickyAfter a
        needsClientComposition := needs
        needFlushFb := flush }.list := by
  cases hchanged : a.changed.entries with
  | nil =>
    have hsame : d.stickyAfter a = d.stickyClientLayers := by
      rw [HybrisDisplay.stickyAfter, hchanged]
      exact ite_self _
    rw [hsame]
    cases hsticky : d.stickyClientLayers.entries with
    | nil =>
      have hempty : d.stickyClientLayers = ∅ := AList.ext hsticky
      refine ⟨false, false, fun id h => absurd (hempty ▸ h) (AList.notMem_empty id), ?_⟩
      simp [HybrisDisplay.prepareDisplayLayers, hvalid, hchanged, hempty]
    | cons entry entries =>
      refine ⟨true, true, fun _ _ => ⟨rfl, rfl⟩, ?_⟩
      simp [HybrisDisplay.prepareDisplayLayers, hvalid, hchanged, hsticky]
  | cons entry entries =>
    refine ⟨!(d.stickyAfter a).entries.isEmpty, true, fun id h => ⟨?_, rfl⟩, ?_⟩
    · cases hsticky : (d.stickyAfter a).entries with
      | nil =>
        have hempty : d.stickyAfter a = ∅ := AList.ext hsticky
        exact absurd (hempty ▸ h) (AList.notMem_empty id)
      | cons entry entries => rfl
    · simp only [HybrisDisplay.prepareDisplayLayers, hvalid, hchanged]
      rw [HybrisDisplay.stickyAfter, hchanged]
      rfl

theorem Sound.prepareDisplayLayers (hs : Sound d) (hfits : Fits d (.prepareDisplayLayers a)) :
    Sound (d.prepareDisplayLayers a).1 := by
  cases hvalid : a.valid with
  | false =>
    rw [HybrisDisplay.prepareDisplayLayers, hvalid]
    exact { hs with flush := fun _ _ => rfl }
  | true =>
    obtain ⟨hagrees, hstays⟩ := hs.stickyAfter hvalid hfits
    obtain ⟨needs, flush, hflush, heq⟩ := prepareDisplayLayers_valid d hvalid
    rw [heq]
    exact hs.prepared (mem_stickyAfter hs a) hflush
      (fun _ h => acceptChanges_fresh hs a.changed h) hagrees hstays

theorem Sound.step (hs : Sound d) {operation : Operation} (hfits : Fits d operation)
    (hstep : step d operation = some d') : Sound d' := by
  cases operation with
  | createLayer made cursor =>
    cases made with
    | false =>
      cases hstep
      exact hs
    | true =>
      cases hstep
      exact hs.createLayer (hfits rfl) cursor rfl
  | destroyLayer layerId =>
    cases Option.some.inj hstep
    cases h : d.destroyLayer layerId with
    | none => exact hs
    | some d' => exact hs.destroyLayer h
  | setLayerCompositionType layerId type =>
    cases Option.some.inj hstep
    cases h : d.setLayerCompositionType layerId type with
    | none => exact hs
    | some d' => exact hs.setLayerCompositionType h
  | prepareDisplayLayers a =>
    cases hstep
    exact hs.prepareDisplayLayers hfits

end Calls

theorem sound_start : Sound {} := by
  refine ⟨fun id => Iff.rfl, fun id type h => h, ?_, ?_, ?_, ?_, ?_, ?_, ?_⟩
  · exact fun id h => absurd h (AList.notMem_empty id)
  · exact fun id h => nomatch h
  · exact fun id layer h => nomatch h
  · exact fun id id' layer h => nomatch h
  · exact fun layer _ h => nomatch h
  · exact fun id layer h => nomatch h
  · exact fun layer h => absurd h not_mem_nil

/-- **The report is what was committed**, in every run whose calls meet the condition; a layer stays
in it, and both maps have only layers that exist. -/
theorem types_match (operations : List Operation) (d : HybrisDisplay)
    (hrun : run step {} operations = some d) (hfits : Along step Fits {} operations) :
    (∀ id type, (id, type) ∈ d.getDisplayCompChange ↔
         type = .client ∧ ∃ layer, d.layers.lookup id = some layer ∧ d.committed layer = .client) ∧
    (d.getDisplayCompChange ≠ [] → d.needFlushFb = true) ∧
    (∀ layer ∈ d.listed,
       ∀ id, d.layers.lookup id = some layer → (id, .client) ∈ d.getDisplayCompChange) ∧
    (∀ id ∈ d.stickyClientLayers, id ∈ d.layers) ∧
    ∀ id ∈ d.pendingClientLayers, id ∈ d.layers := by
  have hs :=
    run_invariant_along (I := Sound) (fun _ _ _ hs hfits hstep => hs.step hfits hstep) hfits hrun
    sound_start
  have hreport : ∀ id type, (id, type) ∈ d.getDisplayCompChange ↔
      type = .client ∧ d.pendingClientLayers.lookup id = some .client := by
    intro id type
    rw [mem_getDisplayCompChange]
    exact ⟨fun h => h.2, fun h => ⟨hs.needs id (mem_of_lookup h.2), h⟩⟩
  have hlive : ∀ id, id ∈ d.pendingClientLayers → id ∈ d.layers := by
    intro id h
    obtain ⟨type, h⟩ := isSome_iff_exists.mp (AList.lookup_isSome.mpr h)
    exact (hs.keys id).mp (mem_of_lookup (hs.pending id type h))
  refine ⟨?_, ?_, ?_, fun id => (hs.keys id).mp, hlive⟩
  · intro id type
    rw [hreport]
    refine and_congr_right fun _ =>
      ⟨fun h => ?_, fun ⟨layer, hlayer, h⟩ => (hs.agrees id layer hlayer).mpr h⟩
    obtain ⟨layer, hlayer⟩ :=
      isSome_iff_exists.mp (AList.lookup_isSome.mpr (hlive id (mem_of_lookup h)))
    exact ⟨layer, hlayer, (hs.agrees id layer hlayer).mp h⟩
  · intro hne
    obtain ⟨⟨id, type⟩, hentry⟩ := exists_mem_of_ne_nil _ hne
    exact hs.flush id ((hreport id type).mp hentry).2
  · exact fun layer hlayer id h => (hreport id .client).mpr ⟨rfl, (hs.listed layer hlayer).2 id h⟩

def twoFrames : List Operation :=
  [.createLayer true false, .prepareDisplayLayers {}, .setLayerCompositionType 1 .device,
    .prepareDisplayLayers {}]

theorem types_match_two_frames :
    ∃ d, run step {} twoFrames = some d ∧ d.getDisplayCompChange = [(1, .client)] ∧
      ∃ layer, d.layers.lookup 1 = some layer ∧ d.committed layer = .client := by
  refine ⟨_, rfl, rfl, ?_⟩
  have hmatch := types_match twoFrames _ rfl <| along_cons (fun _ => by decide) rfl <|
    along_cons ?_ rfl <| along_cons trivial rfl <| along_cons ?_ rfl trivial
  · exact ((hmatch.1 1 .client).mp (mem_singleton.mpr rfl)).2
  all_goals
    intro _ id layer hlayer
    have hid : id ∈ ([1] : List UInt32) := mem_of_lookup hlayer
    cases mem_singleton.mp hid
    rfl

theorem types_differ :
    ∃ d, run step {}
        [.createLayer true false, .prepareDisplayLayers {},
         .prepareDisplayLayers { changed := AList.singleton 0 .device },
         .prepareDisplayLayers {}] = some d ∧
      d.layers.lookup 1 = some 0 ∧ d.committed 0 = .client ∧ 0 ∈ d.listed ∧
      d.getDisplayCompChange = [] :=
  ⟨_, rfl, rfl, rfl, by decide, rfl⟩

end OniroSoc.Display.Composition

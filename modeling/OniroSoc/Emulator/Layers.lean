import OniroSoc.Support.Ordered
import OniroSoc.Emulator.Ids

/-!
# The layer tables of an emulator display

`mLayersMap` owns the layers of a display; `mLayers`, `mChangeLayers` and the two `mCompLayers` hold
pointers to them.  Every call of the composer HDI holds the mutex of the session.
-/

namespace OniroSoc.Emulator.Layers
open Support List Function

inductive Ret where
  | success | failure | paramErr | nullPtr
deriving DecidableEq

inductive CompositionType where
  | client | device | cursor | video
  | other (type : Nat)
deriving DecidableEq

structure HdiLayer where
  mVisible : Bool := true
  mId : Nat := 0
  mZorder : Nat := 0xFFFFFFFF
  (mCompositionType mDeviceSelect : CompositionType := .client)

def HdiLayer.selectDevice (layer : HdiLayer) : HdiLayer :=
  let type := layer.mCompositionType
  { layer with mDeviceSelect := if type ≠ .video ∧ type ≠ .cursor then .device else type }

/-- Layers in the order in which they are made. -/
abbrev Ptr := Nat

def clientLayer : Ptr := 0

structure Display where
  layer : Ptr → HdiLayer := fun _ => {}
  next : Ptr := 1
  mLayersMap : AList fun _ : Nat => Ptr := ∅
  (mLayers mChangeLayers : List Ptr := [])
  valid : Bool
  gfxLayers : List Ptr := []
  drmLayers : List Ptr := [clientLayer]
  ids : IdTable

/-- The value of a call and what it writes; `read` are the layers it reads through a table. -/
structure Reply where
  ret : Ret
  layerId : Nat := invalidId
  num : Nat := 0
  layers : List Nat := []
  types : List CompositionType := []
  read : List Ptr := []

/-- What is outside of the display in a `Commit`. -/
structure CommitEnv where
  powered : Bool := true
  blit : Ptr → Bool := fun _ => true
  drm : Bool := true

inductive Call where
  | createLayer (layerInfo layerId : Bool)
  | destroyLayer (layerId : Nat)
  | setLayerZorder (layerId zorder : Nat)
  | setLayerCompositionType (layerId : Nat) (type : CompositionType)
  | setLayerVisible (layerId : Nat) (visible : Bool)
  | prepareDisplayLayers
  | getDisplayCompChange (num layers type : Bool)
  | getDisplayReleaseFence (num layers fences : Bool)
  | commit (fence : Bool) (env : CommitEnv)
  | otherDisplays (ids : IdTable)

namespace Display

def zorder (s : Display) (p : Ptr) : Nat := (s.layer p).mZorder

def modify (s : Display) (p : Ptr) (f : HdiLayer → HdiLayer) : Display :=
  { s with layer := update s.layer p (f (s.layer p)) }

def setLayerZorder (s : Display) (layerId zorder : Nat) : Display × Reply :=
  match s.mLayersMap.lookup layerId with
  | none => (s, { ret := .failure })
  | some p =>
    if s.zorder p = zorder then (s, { ret := .success })
    else
      let mLayers := eraseBy s.zorder p s.mLayers
      let s := s.modify p fun layer => { layer with mZorder := zorder }
      ({ s with mLayers := insertBy s.zorder p mLayers }, { ret := .success })

/-- `CreateLayer`, `none` if `GetIdleId` does not return. -/
def createLayer (s : Display) (layerInfo layerId : Bool) : Option (Display × Reply) :=
  if !layerInfo || !layerId then some (s, { ret := .paramErr })
  else
    s.ids.getIdleId.map fun (id, ids) =>
      if id = invalidId then
        -- The new layer is destroyed, and its `mId` is still 0.
        ({ s with next := s.next + 1, ids := ids.erase 0 }, { ret := .failure })
      else
        let p := s.next
        let s := { s with layer := update s.layer p { mId := id }, next := p + 1, ids := ids }
        let s := { s with mLayers := insertBy s.zorder p s.mLayers }
        -- `emplace` does nothing if the id is there; then the new layer is destroyed.
        if id ∈ s.mLayersMap then ({ s with ids := s.ids.erase id }, { ret := .success, layerId := id })
        else ({ s with mLayersMap := s.mLayersMap.insert id p }, { ret := .success, layerId := id })

def destroyLayer (s : Display) (layerId : Nat) : Display × Reply :=
  match s.mLayersMap.lookup layerId with
  | none => (s, { ret := .failure })
  | some p =>
    ({ s with
        mLayers := eraseBy s.zorder p s.mLayers
        mLayersMap := s.mLayersMap.erase layerId
        ids := s.ids.erase (s.layer p).mId }, { ret := .success })

def layerFunction (s : Display) (layerId : Nat) (f : HdiLayer → HdiLayer) : Display × Reply :=
  match s.mLayersMap.lookup layerId with
  | none => (s, { ret := .failure })
  | some p => (s.modify p f, { ret := .success })

/-- One turn of `HdiGfxComposition::SetLayers`. -/
def gfxSetLayer (s : Display) (p : Ptr) : Display :=
  if s.valid then
    let s := s.modify p HdiLayer.selectDevice
    { s with gfxLayers := s.gfxLayers ++ [p] }
  else s.modify p fun layer => { layer with mDeviceSelect := .client }

def composerPrepare (s : Display) (layers : List Ptr) : Display :=
  layers.foldl gfxSetLayer { s with drmLayers := [clientLayer], gfxLayers := [] }

/-- One turn of the last loop of `PrepareDisplayLayers`. -/
def changeLayer (s : Display) (p : Ptr) : Display :=
  if (s.layer p).mDeviceSelect ≠ (s.layer p).mCompositionType then
    let s := s.modify p fun layer => { layer with mCompositionType := layer.mDeviceSelect }
    { s with mChangeLayers := s.mChangeLayers ++ [p] }
  else s

def visibleLayers (s : Display) : List Ptr := s.mLayers.filter fun p => (s.layer p).mVisible

def prepareDisplayLayers (s : Display) : Display :=
  s.visibleLayers.foldl changeLayer (composerPrepare { s with mChangeLayers := [] } s.visibleLayers)

def getDisplayCompChange (s : Display) (num layers type : Bool) : Reply :=
  if !num then { ret := .failure }
  else if !layers && !type then { ret := .success, num := s.mChangeLayers.length }
  else
    { ret := .success
      num := s.mChangeLayers.length
      layers := if layers then s.mChangeLayers.map fun p => (s.layer p).mId else []
      types := if type then s.mChangeLayers.map fun p => (s.layer p).mCompositionType else []
      read := s.mChangeLayers }

def getDisplayReleaseFence (s : Display) (num layers fences : Bool) : Reply :=
  if !num then { ret := .failure }
  else if !layers && !fences then { ret := .success, num := s.mLayers.length }
  else
    { ret := .success
      num := s.mLayers.length
      layers := if layers then s.mLayers.map fun p => (s.layer p).mId else []
      read := s.mLayers }

/-- `HdiGfxComposition::Apply`: the layers it reads, and whether it succeeds. -/
def gfxApply (s : Display) (blit : Ptr → Bool) : List Ptr → List Ptr × Bool
  | [] => ([], true)
  | p :: layers =>
    let (read, ok) := gfxApply s blit layers
    match (s.layer p).mDeviceSelect with
    | .video | .device => if blit p then (p :: read, ok) else ([p], false)
    | _ => (p :: read, ok)

def composerCommit (s : Display) (env : CommitEnv) : List Ptr :=
  let (read, ok) := s.gfxApply env.blit s.gfxLayers
  read ++ if ok && env.drm then s.drmLayers else []

def commit (s : Display) (fence : Bool) (env : CommitEnv) : Reply :=
  if !fence then { ret := .nullPtr }
  else if !env.powered then { ret := .success }
  else { ret := .success, read := s.composerCommit env }

def call (s : Display) : Call → Option (Display × Reply)
  | .createLayer layerInfo layerId => s.createLayer layerInfo layerId
  | .destroyLayer layerId => some (s.destroyLayer layerId)
  | .setLayerZorder layerId zorder => some (s.setLayerZorder layerId zorder)
  | .setLayerCompositionType layerId type =>
    some (s.layerFunction layerId fun layer => { layer with mCompositionType := type })
  | .setLayerVisible layerId visible =>
    some (s.layerFunction layerId fun layer => { layer with mVisible := visible })
  | .prepareDisplayLayers => some (s.prepareDisplayLayers, { ret := .success, read := s.mLayers })
  | .getDisplayCompChange num layers type => some (s, s.getDisplayCompChange num layers type)
  | .getDisplayReleaseFence num layers fences =>
    some (s, s.getDisplayReleaseFence num layers fences)
  | .commit fence env => some (s, s.commit fence env)
  | .otherDisplays ids => some ({ s with ids := ids }, { ret := .success })

/-- The layer may be read. -/
def Owned (s : Display) (p : Ptr) : Prop := p = clientLayer ∨ p ∈ values s.mLayersMap

instance (s : Display) (p : Ptr) : Decidable (s.Owned p) := inferInstanceAs (Decidable (_ ∨ _))

end Display

/-! ### What is asked of the calls -/

structure System where
  display : Display
  destroyed : List Ptr := []
  stale : Bool := false

def System.destroyedBy (sys : System) : Call → List Ptr
  | .prepareDisplayLayers => []
  | .destroyLayer layerId => (sys.display.mLayersMap.lookup layerId).toList ++ sys.destroyed
  | _ => sys.destroyed

def step (sys : System) (call : Call) : Option System :=
  (sys.display.call call).map fun (display, reply) =>
    { display
      destroyed := sys.destroyedBy call
      stale := sys.stale || reply.read.any fun p => ¬ sys.display.Owned p }

structure Tables (s : Display) : Prop where
  same : s.mLayers.Perm (values s.mLayersMap)
  nodup : s.mLayers.Nodup
  sorted : SortedBy s.zorder s.mLayers

structure Good (sys : System) : Prop where
  tables : Tables sys.display
  clean : sys.stale = false

def Reached (s : Display) (blit : Ptr → Bool) (p : Ptr) : Prop :=
  ∃ before after, s.gfxLayers = before ++ p :: after ∧ ∀ q ∈ before,
    (s.layer q).mDeviceSelect = .video ∨ (s.layer q).mDeviceSelect = .device → blit q = true

def Fits (sys : System) : Call → Prop
  | .createLayer layerInfo layerId => layerInfo = true → layerId = true →
      ∀ id ids, sys.display.ids.getIdleId = some (id, ids) → id ≠ invalidId →
      id ∉ sys.display.mLayersMap
  | .getDisplayCompChange num layers type => num = true → layers = true ∨ type = true →
      ∀ p ∈ sys.display.mChangeLayers, p ∉ sys.destroyed
  | .commit fence env => fence = true → env.powered = true →
      ∀ p, Reached sys.display env.blit p → p ∉ sys.destroyed
  | _ => True

structure Inv (sys : System) : Prop extends Good sys where
  made : ∀ p, p ∈ sys.display.mLayers ∨ p ∈ sys.destroyed → clientLayer < p ∧ p < sys.display.next
  gone : ∀ p ∈ sys.destroyed, p ∉ sys.display.mLayers
  change : ∀ p ∈ sys.display.mChangeLayers, p ∈ sys.display.mLayers ∨ p ∈ sys.destroyed
  gfx : ∀ p ∈ sys.display.gfxLayers, p ∈ sys.display.mLayers ∨ p ∈ sys.destroyed
  drm : ∀ p ∈ sys.display.drmLayers, p = clientLayer
  next : clientLayer < sys.display.next

section Reads
variable {sys : System} {p : Ptr} {read : List Ptr}

theorem Inv.owned (h : Inv sys) (hp : p ∈ sys.display.mLayers) : sys.display.Owned p :=
  .inr (h.tables.same.mem_iff.mp hp)

theorem Inv.not_owned (h : Inv sys) (hp : p ∈ sys.destroyed) : ¬ sys.display.Owned p := by
  rintro (rfl | hmem)
  · exact lt_irrefl _ (h.made _ (.inr hp)).1
  · exact h.gone p hp (h.tables.same.mem_iff.mpr hmem)

theorem Inv.owned_iff (h : Inv sys) (hp : p ∈ sys.display.mLayers ∨ p ∈ sys.destroyed) :
    sys.display.Owned p ↔ p ∉ sys.destroyed :=
  ⟨fun howned hgone => h.not_owned hgone howned, fun hnot => h.owned (hp.resolve_right hnot)⟩

theorem any_not_owned {s : Display} :
    (read.any fun p => ¬ s.Owned p) = false ↔ ∀ p ∈ read, s.Owned p := by
  simp

theorem mem_gfxApply {s : Display} {blit : Ptr → Bool} {layers : List Ptr} :
    p ∈ (s.gfxApply blit layers).1 ↔ ∃ before after, layers = before ++ p :: after ∧ ∀ q ∈ before,
      (s.layer q).mDeviceSelect = .video ∨ (s.layer q).mDeviceSelect = .device → blit q = true := by
  induction layers with
  | nil =>
    refine ⟨nofun, ?_⟩
    rintro ⟨before, after, heq, -⟩
    exact absurd heq (by simp)
  | cons q layers ih =>
    -- `q` is read; what is behind it is read unless `q` fails.
    have hread : p ∈ (s.gfxApply blit (q :: layers)).1 ↔ p = q ∨
        ((s.layer q).mDeviceSelect = .video ∨ (s.layer q).mDeviceSelect = .device → blit q = true) ∧
          p ∈ (s.gfxApply blit layers).1 := by
      rw [Display.gfxApply]
      dsimp only
      split
      all_goals (try split_ifs) <;> simp_all
    rw [hread, ih]
    constructor
    · rintro (rfl | ⟨hq, before, after, rfl, hbefore⟩)
      · exact ⟨[], layers, rfl, nofun⟩
      · refine ⟨q :: before, after, rfl, fun r hr => ?_⟩
        rcases mem_cons.mp hr with rfl | hr
        · exact hq
        · exact hbefore r hr
    · rintro ⟨before, after, heq, hbefore⟩
      cases before with
      | nil => exact .inl (List.cons.inj heq).1.symm
      | cons r before =>
        obtain ⟨rfl, rfl⟩ := List.cons.inj heq
        exact .inr ⟨hbefore _ (.head _), before, after, rfl, fun q hq => hbefore q (.tail _ hq)⟩

end Reads

/-! ### Calls that leave `mLayersMap` and `mLayers` alone -/

/-- The layers and their order are the same. -/
structure Frame (s s' : Display) : Prop where
  map : s'.mLayersMap = s.mLayersMap
  layers : s'.mLayers = s.mLayers
  next : s'.next = s.next
  zorder : ∀ p, s'.zorder p = s.zorder p

section Frames
variable {sys : System} {s s₁ s₂ : Display} {p : Ptr} {f : HdiLayer → HdiLayer} {layers : List Ptr}

theorem Frame.refl : Frame s s := ⟨rfl, rfl, rfl, fun _ => rfl⟩

theorem Frame.trans (h₁ : Frame s s₁) (h₂ : Frame s₁ s₂) : Frame s s₂ :=
  ⟨h₂.map.trans h₁.map, h₂.layers.trans h₁.layers, h₂.next.trans h₁.next,
    fun p => (h₂.zorder p).trans (h₁.zorder p)⟩

theorem zorder_modify (q : Ptr) :
    (s.modify p f).zorder q = if q = p then (f (s.layer p)).mZorder else s.zorder q := by
  show (update s.layer p (f (s.layer p)) q).mZorder = _
  rw [update_apply]
  split_ifs <;> rfl

theorem frame_modify (hf : ∀ layer, (f layer).mZorder = layer.mZorder) :
    Frame s (s.modify p f) := by
  refine ⟨rfl, rfl, rfl, fun q => ?_⟩
  rw [zorder_modify]
  split_ifs with hq
  · rw [hf, hq]
    rfl
  · rfl

theorem Frame.tables (h : Frame s s₁) (ht : Tables s) : Tables s₁ where
  same := by
    rw [h.layers, h.map]
    exact ht.same
  nodup := by
    rw [h.layers]
    exact ht.nodup
  sorted := by
    rw [h.layers]
    exact ht.sorted.congr fun p _ => h.zorder p

theorem Inv.frame (h : Inv sys) (hframe : Frame sys.display s) (destroyed : List Ptr)
    (hdestroyed : ∀ p ∈ destroyed, p ∈ sys.destroyed)
    (hchange : ∀ p ∈ s.mChangeLayers, p ∈ s.mLayers ∨ p ∈ destroyed)
    (hgfx : ∀ p ∈ s.gfxLayers, p ∈ s.mLayers ∨ p ∈ destroyed)
    (hdrm : ∀ p ∈ s.drmLayers, p = clientLayer) : Inv { display := s, destroyed } where
  tables := hframe.tables h.tables
  clean := rfl
  made p hp := by
    rw [hframe.layers] at hp
    rw [hframe.next]
    exact h.made p (hp.imp_right (hdestroyed p))
  gone p hp := by
    rw [hframe.layers]
    exact h.gone p (hdestroyed p hp)
  change := hchange
  gfx := hgfx
  drm := hdrm
  next := by
    rw [hframe.next]
    exact h.next

theorem Inv.modify (h : Inv sys) (hf : ∀ layer, (f layer).mZorder = layer.mZorder) (p : Ptr) :
    Inv { display := sys.display.modify p f, destroyed := sys.destroyed } :=
  h.frame (frame_modify hf) sys.destroyed (fun _ hp => hp) h.change h.gfx h.drm

theorem Inv.refused (h : Inv sys) : Inv { display := sys.display, destroyed := sys.destroyed } :=
  h.frame .refl sys.destroyed (fun _ hp => hp) h.change h.gfx h.drm

theorem Inv.layerFunction (h : Inv sys) (hf : ∀ layer, (f layer).mZorder = layer.mZorder)
    (layerId : Nat) :
    Inv { display := (sys.display.layerFunction layerId f).1, destroyed := sys.destroyed } := by
  rw [Display.layerFunction]
  split
  · exact h.refused
  · exact h.modify hf _

/-- The layers are added to one list, and nothing but their fields changes besides. -/
structure Adds (list other : Display → List Ptr) (layers : List Ptr) (s s' : Display) : Prop where
  frame : Frame s s'
  other : other s' = other s
  drm : s'.drmLayers = s.drmLayers
  added : ∀ q ∈ list s', q ∈ list s ∨ q ∈ layers

theorem Adds.foldl {list other : Display → List Ptr} {f : Display → Ptr → Display}
    (hf : ∀ s p, Adds list other [p] s (f s p)) (layers : List Ptr) (s : Display) :
    Adds list other layers s (layers.foldl f s) := by
  induction layers generalizing s with
  | nil => exact ⟨.refl, rfl, rfl, fun q hq => .inl hq⟩
  | cons p layers ih =>
    have hone := hf s p
    have hrest := ih (f s p)
    refine ⟨hone.frame.trans hrest.frame, hrest.other.trans hone.other, hrest.drm.trans hone.drm,
      fun q hq => ?_⟩
    rcases hrest.added q hq with hq | hq
    · exact (hone.added q hq).imp_right fun hq => mem_cons.mpr (.inl (mem_singleton.mp hq))
    · exact .inr (.tail _ hq)

theorem gfxSetLayer_adds (s : Display) (p : Ptr) :
    Adds Display.gfxLayers Display.mChangeLayers [p] s (s.gfxSetLayer p) := by
  rw [Display.gfxSetLayer]
  split_ifs
  · refine ⟨?_, rfl, rfl, fun q hq => mem_append.mp hq⟩
    exact { frame_modify (f := HdiLayer.selectDevice) (s := s) (p := p) fun _ => rfl with }
  · exact ⟨frame_modify fun _ => rfl, rfl, rfl, fun q hq => .inl hq⟩

theorem changeLayer_adds (s : Display) (p : Ptr) :
    Adds Display.mChangeLayers Display.gfxLayers [p] s (s.changeLayer p) := by
  rw [Display.changeLayer]
  split
  · refine ⟨?_, rfl, rfl, fun q hq => mem_append.mp hq⟩
    let f : HdiLayer → HdiLayer :=
      fun layer => { layer with mCompositionType := layer.mDeviceSelect }
    exact { frame_modify (f := f) (s := s) (p := p) fun _ => rfl with }
  · exact ⟨.refl, rfl, rfl, fun q hq => .inl hq⟩

theorem Inv.prepareDisplayLayers (h : Inv sys) :
    Inv { display := sys.display.prepareDisplayLayers, destroyed := [] } := by
  let s₀ : Display :=
    { sys.display with mChangeLayers := [], drmLayers := [clientLayer], gfxLayers := [] }
  obtain ⟨hframe, hchange, hdrm, hgfx⟩ := Adds.foldl gfxSetLayer_adds sys.display.visibleLayers s₀
  obtain ⟨hframe', hgfx', hdrm', hchange'⟩ := Adds.foldl changeLayer_adds sys.display.visibleLayers
    (sys.display.visibleLayers.foldl Display.gfxSetLayer s₀)
  have hstart : Frame sys.display s₀ := { Frame.refl with }
  have hall : Frame sys.display sys.display.prepareDisplayLayers :=
    hstart.trans (hframe.trans hframe')
  have hvisible : ∀ q ∈ sys.display.visibleLayers, q ∈ sys.display.prepareDisplayLayers.mLayers :=
    by
    intro q hq
    rw [hall.layers]
    exact mem_of_mem_filter hq
  refine h.frame hall [] nofun (fun q hq => ?_) (fun q hq => ?_) (fun q hq => ?_)
  · rcases hchange' q hq with hq | hq
    · rw [hchange] at hq
      exact absurd hq nofun
    · exact .inl (hvisible q hq)
  · rw [show sys.display.prepareDisplayLayers.gfxLayers = _ from hgfx'] at hq
    exact .inl (hvisible q ((hgfx q hq).resolve_left nofun))
  · rw [show sys.display.prepareDisplayLayers.drmLayers = _ from hdrm'.trans hdrm] at hq
    exact mem_singleton.mp hq

end Frames

/-! ### Calls that change them -/

section Changes
variable {sys : System} {layerId id : Nat} {ids : IdTable} {p : Ptr}

theorem Inv.setLayerZorder (h : Inv sys) (layerId zorder : Nat) :
    Inv
      { display := (sys.display.setLayerZorder layerId zorder).1, destroyed := sys.destroyed } := by
  rw [Display.setLayerZorder]
  split
  · exact h.refused
  · rename_i p hlookup
    split_ifs
    · exact h.refused
    have hmem : p ∈ sys.display.mLayers := h.tables.same.mem_iff.mpr (mem_values hlookup)
    set s := sys.display.modify p fun layer => { layer with mZorder := zorder } with hs
    have hperm : (insertBy s.zorder p (eraseBy sys.display.zorder p sys.display.mLayers)).Perm
        sys.display.mLayers := by
      rw [h.tables.sorted.eraseBy_eq]
      exact insertBy_perm.trans (perm_cons_erase hmem).symm
    have hother : ∀ q ∈ eraseBy sys.display.zorder p sys.display.mLayers, s.zorder q = sys.display.zorder q := by
      intro q hq
      rw [h.tables.sorted.eraseBy_eq] at hq
      have hne : q ≠ p := by
        rintro rfl
        exact h.tables.nodup.not_mem_erase hq
      rw [hs, zorder_modify, if_neg hne]
    have hsorted : SortedBy s.zorder (insertBy s.zorder p (eraseBy sys.display.zorder p sys.display.mLayers)) :=
      (h.tables.sorted.eraseBy.congr hother).insertBy
    exact {
      tables := ⟨hperm.trans h.tables.same, hperm.nodup_iff.mpr h.tables.nodup, hsorted⟩
      clean := rfl
      made := fun q hq => h.made q (hq.imp_left hperm.mem_iff.mp)
      gone := fun q hq hmem => h.gone q hq (hperm.mem_iff.mp hmem)
      change := fun q hq => (h.change q hq).imp_left hperm.mem_iff.mpr
      gfx := fun q hq => (h.gfx q hq).imp_left hperm.mem_iff.mpr
      drm := h.drm
      next := h.next }

theorem Inv.destroyLayer (h : Inv sys) (layerId : Nat) :
    Inv { display := (sys.display.destroyLayer layerId).1
          destroyed := (sys.display.mLayersMap.lookup layerId).toList ++ sys.destroyed } := by
  rw [Display.destroyLayer]
  split
  · rename_i hlookup
    rw [hlookup]
    exact h.refused
  · rename_i p hlookup
    rw [hlookup]
    have hmem : p ∈ sys.display.mLayers := h.tables.same.mem_iff.mpr (mem_values hlookup)
    have herase := h.tables.sorted.eraseBy_eq (x := p)
    have hsame : (sys.display.mLayers.erase p).Perm (values (sys.display.mLayersMap.erase layerId)) := by
      have hboth := (h.tables.same.trans (values_erase hlookup)).erase p
      rwa [erase_cons_head] at hboth
    have hstay : ∀ q, q ∈ sys.display.mLayers ∨ q ∈ sys.destroyed →
        q ∈ eraseBy sys.display.zorder p sys.display.mLayers ∨ q ∈ p :: sys.destroyed := by
      rintro q (hq | hq)
      · rw [herase]
        by_cases hne : q = p
        · exact .inr (hne ▸ .head _)
        · exact .inl ((mem_erase_of_ne hne).mpr hq)
      · exact .inr (.tail _ hq)
    have hback : ∀ q ∈ eraseBy sys.display.zorder p sys.display.mLayers, q ∈ sys.display.mLayers :=
      by
      intro q hq
      rw [herase] at hq
      exact mem_of_mem_erase hq
    exact {
      tables := ⟨herase ▸ hsame, herase ▸ h.tables.nodup.erase p, h.tables.sorted.eraseBy⟩
      clean := rfl
      made := by
        rintro q (hq | hq)
        · exact h.made q (.inl (hback q hq))
        · rcases mem_cons.mp hq with rfl | hq
          · exact h.made q (.inl hmem)
          · exact h.made q (.inr hq)
      gone := by
        intro q hq hin
        rcases mem_cons.mp hq with rfl | hq
        · rw [herase] at hin
          exact h.tables.nodup.not_mem_erase hin
        · exact h.gone q hq (hback q hin)
      change := fun q hq => hstay q (h.change q hq)
      gfx := fun q hq => hstay q (h.gfx q hq)
      drm := h.drm
      next := h.next }

def withLayer (s : Display) (id : Nat) (ids : IdTable) : Display :=
  let s' := { s with layer := update s.layer s.next { mId := id }, next := s.next + 1, ids := ids }
  { s' with mLayers := insertBy s'.zorder s.next s.mLayers }

theorem createLayer_cases {s s' : Display} {layerInfo layerId : Bool} {reply : Reply}
    (h : s.createLayer layerInfo layerId = some (s', reply)) :
    reply.read = [] ∧
    (s' = s ∧ (layerInfo = false ∨ layerId = false) ∨
     (layerInfo = true ∧ layerId = true) ∧
     ∃ id ids, s.ids.getIdleId = some (id, ids) ∧
      (id = invalidId ∧ s' = { s with next := s.next + 1, ids := ids.erase 0 } ∨
       id ≠ invalidId ∧ id ∈ s.mLayersMap ∧ s' = { withLayer s id ids with ids := ids.erase id } ∨
       id ≠ invalidId ∧ id ∉ s.mLayersMap ∧
       s' = { withLayer s id ids with mLayersMap := s.mLayersMap.insert id s.next })) := by
  rw [Display.createLayer] at h
  split_ifs at h with hnull
  · cases h
    refine ⟨rfl, .inl ⟨rfl, ?_⟩⟩
    simpa using hnull
  · obtain ⟨⟨id, ids⟩, hid, heq⟩ := Option.map_eq_some_iff.mp h
    have hflags : layerInfo = true ∧ layerId = true := by simpa using hnull
    dsimp only at heq
    split_ifs at heq with hinvalid hmem
    · cases heq
      exact ⟨rfl, .inr ⟨hflags, id, ids, hid, .inl ⟨hinvalid, rfl⟩⟩⟩
    · cases heq
      exact ⟨rfl, .inr ⟨hflags, id, ids, hid, .inr (.inl ⟨hinvalid, hmem, rfl⟩)⟩⟩
    · cases heq
      exact ⟨rfl, .inr ⟨hflags, id, ids, hid, .inr (.inr ⟨hinvalid, hmem, rfl⟩)⟩⟩

theorem Inv.next_notMem (h : Inv sys) : sys.display.next ∉ sys.display.mLayers := fun hmem =>
  lt_irrefl _ (h.made _ (.inl hmem)).2

theorem Inv.withLayer_sorted (h : Inv sys) (id : Nat) (ids : IdTable) :
    SortedBy (withLayer sys.display id ids).zorder (withLayer sys.display id ids).mLayers := by
  refine (h.tables.sorted.congr fun q hq => ?_).insertBy
  have hne : q ≠ sys.display.next := by
    rintro rfl
    exact h.next_notMem hq
  exact congrArg HdiLayer.mZorder (update_of_ne hne _ _)

theorem Inv.createLayer (h : Inv sys) (hid : id ∉ sys.display.mLayersMap) :
    Inv { display := { withLayer sys.display id ids with
            mLayersMap := sys.display.mLayersMap.insert id sys.display.next }
          destroyed := sys.destroyed } := by
  have hperm : (withLayer sys.display id ids).mLayers.Perm
      (sys.display.next :: sys.display.mLayers) :=
    insertBy_perm
  have hstay : ∀ q, q ∈ sys.display.mLayers ∨ q ∈ sys.destroyed →
      q ∈ (withLayer sys.display id ids).mLayers ∨ q ∈ sys.destroyed :=
    fun q hq => hq.imp_left fun hmem => hperm.mem_iff.mpr (.tail _ hmem)
  exact {
    tables := {
      same := by
        rw [values_insert hid]
        exact hperm.trans (h.tables.same.cons _)
      nodup := hperm.nodup_iff.mpr (nodup_cons.mpr ⟨h.next_notMem, h.tables.nodup⟩)
      sorted := h.withLayer_sorted id ids }
    clean := rfl
    made := by
      intro q hq
      have hbelow : clientLayer < q ∧ q ≤ sys.display.next := by
        rcases hq with hq | hq
        · rcases mem_cons.mp (hperm.mem_iff.mp hq) with rfl | hq
          · exact ⟨h.next, le_rfl⟩
          · exact (h.made q (.inl hq)).imp_right le_of_lt
        · exact (h.made q (.inr hq)).imp_right le_of_lt
      exact hbelow.imp_right Nat.lt_succ_of_le
    gone := by
      intro q hq hin
      rcases mem_cons.mp (hperm.mem_iff.mp hin) with rfl | hin
      · exact lt_irrefl _ (h.made _ (.inr hq)).2
      · exact h.gone q hq hin
    change := fun q hq => hstay q (h.change q hq)
    gfx := fun q hq => hstay q (h.gfx q hq)
    drm := h.drm
    next := Nat.lt_succ_of_lt h.next }

theorem Inv.not_tables (h : Inv sys) (id : Nat) (ids : IdTable) {s : Display}
    (hlayers : s.mLayers = (withLayer sys.display id ids).mLayers)
    (hmap : s.mLayersMap = sys.display.mLayersMap) : ¬ Tables s := by
  intro ht
  have hmem : sys.display.next ∈ s.mLayers := by
    rw [hlayers]
    exact insertBy_perm.mem_iff.mpr (.head _)
  have hold := ht.same.mem_iff.mp hmem
  rw [hmap] at hold
  exact h.next_notMem (h.tables.same.mem_iff.mpr hold)

end Changes

section Runs
variable {sys sys' : System} {call : Call}

theorem step_eq (h : step sys call = some sys') : ∃ display reply,
    sys.display.call call = some (display, reply) ∧ sys' = ⟨display, sys.destroyedBy call,
      sys.stale || reply.read.any fun p => ¬ sys.display.Owned p⟩ := by
  obtain ⟨⟨display, reply⟩, hcall, rfl⟩ := Option.map_eq_some_iff.mp h
  exact ⟨display, reply, hcall, rfl⟩

theorem forall_read_getDisplayCompChange {s : Display} {num layers type : Bool} {P : Ptr → Prop} :
    (∀ p ∈ (s.getDisplayCompChange num layers type).read, P p) ↔
      (num = true → layers = true ∨ type = true → ∀ p ∈ s.mChangeLayers, P p) := by
  rw [Display.getDisplayCompChange]
  cases num <;> cases layers <;> cases type <;> simp

section
variable (h : Inv sys)
include h

theorem Inv.forall_read_commit {fence : Bool} {env : CommitEnv} :
    (∀ p ∈ (sys.display.commit fence env).read, sys.display.Owned p) ↔
      (fence = true → env.powered = true →
        ∀ p, Reached sys.display env.blit p → sys.display.Owned p) := by
  have hdrm : ∀ p ∈ (if (sys.display.gfxApply env.blit sys.display.gfxLayers).2 && env.drm
      then sys.display.drmLayers else []), sys.display.Owned p := by
    intro p hp
    split_ifs at hp
    · exact .inl (h.drm p hp)
    · cases hp
  have hcomposer : (∀ p ∈ sys.display.composerCommit env, sys.display.Owned p) ↔
      ∀ p, Reached sys.display env.blit p → sys.display.Owned p := by
    constructor
    · intro hall p hp
      exact hall p (mem_append_left _ (mem_gfxApply.mpr hp))
    · intro hall p hp
      rcases mem_append.mp hp with hp | hp
      · exact hall p (mem_gfxApply.mp hp)
      · exact hdrm p hp
  rw [Display.commit]
  cases fence <;> cases hpowered : env.powered <;> simp [hcomposer]

theorem Inv.reached {p : Ptr} {blit : Ptr → Bool} (hp : Reached sys.display blit p) :
    p ∈ sys.display.mLayers ∨ p ∈ sys.destroyed := by
  obtain ⟨before, after, heq, -⟩ := hp
  refine h.gfx p ?_
  rw [heq]
  exact mem_append_right _ (.head _)

theorem Inv.owned_read_iff {display : Display} {reply : Reply}
    (hcall : sys.display.call call = some (display, reply))
    (hcreate : ∀ info id, call ≠ .createLayer info id) :
    (∀ p ∈ reply.read, sys.display.Owned p) ↔ Fits sys call := by
  have hnone : ∀ x : Display × Reply, some x = some (display, reply) → x.2.read = [] →
      ((∀ p ∈ reply.read, sys.display.Owned p) ↔ True) := by
    rintro x heq hread
    cases heq
    rw [hread]
    exact ⟨fun _ => trivial, fun _ => nofun⟩
  cases call with
  | createLayer info id => exact absurd rfl (hcreate info id)
  | destroyLayer layerId =>
    refine hnone (sys.display.destroyLayer layerId) hcall ?_
    rw [Display.destroyLayer]
    split <;> rfl
  | setLayerZorder layerId zorder =>
    refine hnone (sys.display.setLayerZorder layerId zorder) hcall ?_
    rw [Display.setLayerZorder]
    split
    · rfl
    · split_ifs <;> rfl
  | setLayerCompositionType layerId type | setLayerVisible layerId visible =>
    refine hnone (sys.display.layerFunction layerId _) hcall ?_
    rw [Display.layerFunction]
    split <;> rfl
  | prepareDisplayLayers =>
    cases hcall
    exact ⟨fun _ => trivial, fun _ p hp => h.owned hp⟩
  | getDisplayCompChange num layers type =>
    cases hcall
    rw [forall_read_getDisplayCompChange]
    refine imp_congr_right fun _ => imp_congr_right fun _ => forall₂_congr fun p hp => ?_
    exact h.owned_iff (h.change p hp)
  | getDisplayReleaseFence num layers fences =>
    cases hcall
    refine ⟨fun _ => trivial, fun _ p hp => h.owned ?_⟩
    revert hp
    rw [Display.getDisplayReleaseFence]
    cases num <;> cases layers <;> cases fences <;> simp
  | commit fence env =>
    cases hcall
    rw [h.forall_read_commit]
    refine imp_congr_right fun _ => imp_congr_right fun _ => forall₂_congr fun p hp => ?_
    exact h.owned_iff (h.reached hp)
  | otherDisplays ids => exact hnone _ hcall rfl

theorem Inv.kept {display : Display} {reply : Reply}
    (hcall : sys.display.call call = some (display, reply)) (hfits : Fits sys call) :
    Inv { display, destroyed := sys.destroyedBy call } := by
  have hdisplay : ∀ x : Display × Reply, some x = some (display, reply) → x.1 = display :=
    fun x heq => congrArg Prod.fst (Option.some.inj heq)
  cases call with
  | createLayer info layerId =>
    obtain ⟨-, ⟨rfl, -⟩ | ⟨⟨hinfo, hid⟩, id, ids, hidle, hcases⟩⟩ := createLayer_cases hcall
    · exact h.refused
    · rcases hcases with ⟨-, rfl⟩ | ⟨hvalid, hmem, -⟩ | ⟨-, hmem, rfl⟩
      · exact {
          h.refused with
          made := fun p hp => (h.made p hp).imp_right Nat.lt_succ_of_lt
          next := Nat.lt_succ_of_lt h.next
          tables := { h.tables with } }
      · exact absurd hmem (hfits hinfo hid id ids hidle hvalid)
      · exact h.createLayer hmem
  | destroyLayer layerId =>
    rw [← hdisplay (sys.display.destroyLayer layerId) hcall]
    exact h.destroyLayer layerId
  | setLayerZorder layerId zorder =>
    rw [← hdisplay (sys.display.setLayerZorder layerId zorder) hcall]
    exact h.setLayerZorder layerId zorder
  | setLayerCompositionType layerId type | setLayerVisible layerId visible =>
    rw [← hdisplay (sys.display.layerFunction layerId _) hcall]
    refine h.layerFunction ?_ layerId
    exact fun _ => rfl
  | prepareDisplayLayers =>
    cases hcall
    exact h.prepareDisplayLayers
  | getDisplayCompChange | getDisplayReleaseFence | commit =>
    cases hcall
    exact h.refused
  | otherDisplays ids =>
    cases hcall
    have hframe : Frame sys.display { sys.display with ids := ids } := ⟨rfl, rfl, rfl, fun _ => rfl⟩
    exact h.frame hframe sys.destroyed (fun _ hp => hp) h.change h.gfx h.drm

theorem step_inv (hfits : Fits sys call) (hstep : step sys call = some sys') :
    Inv sys' := by
  obtain ⟨display, reply, hcall, rfl⟩ := step_eq hstep
  have hread : ∀ p ∈ reply.read, sys.display.Owned p := by
    by_cases hcreate : ∃ info id, call = .createLayer info id
    · obtain ⟨info, id, rfl⟩ := hcreate
      rw [(createLayer_cases hcall).1]
      exact nofun
    · exact (h.owned_read_iff hcall fun info id heq => hcreate ⟨info, id, heq⟩).mpr hfits
  rw [h.clean, Bool.false_or, any_not_owned.mpr hread]
  exact h.kept hcall hfits

theorem not_good_step (hfits : ¬ Fits sys call) (hstep : step sys call = some sys') :
    ¬ Good sys' := by
  obtain ⟨display, reply, hcall, rfl⟩ := step_eq hstep
  intro hgood
  by_cases hcreate : ∃ info id, call = .createLayer info id
  · obtain ⟨info, id, rfl⟩ := hcreate
    simp only [Fits, Classical.not_imp, not_forall, not_not] at hfits
    obtain ⟨hinfo, hlayerId, id, ids, hidle, hvalid, hmem⟩ := hfits
    obtain ⟨-, ⟨-, hnull⟩ | ⟨-, id', ids', hidle', hcases⟩⟩ := createLayer_cases hcall
    · rw [hinfo, hlayerId] at hnull
      exact hnull.elim nofun nofun
    · cases hidle.symm.trans hidle'
      rcases hcases with ⟨heq, -⟩ | ⟨-, -, rfl⟩ | ⟨-, hnot, -⟩
      · exact hvalid heq
      · refine h.not_tables id ids ?_ ?_ hgood.tables <;> rfl
      · exact hnot hmem
  · have hread := hgood.clean
    rw [h.clean, Bool.false_or] at hread
    exact hfits ((h.owned_read_iff hcall fun info id heq => hcreate ⟨info, id, heq⟩).mp
      (any_not_owned.mp hread))

end

theorem fits_createLayer (h : ∀ id ∈ sys.display.mLayersMap, id ∈ sys.display.ids.mIdSets)
    (info layerId : Bool) : Fits sys (.createLayer info layerId) := by
  rintro - - id ids hidle hvalid hmem
  obtain ⟨-, hfree⟩ := (IdTable.getIdleId_cases hidle).2.resolve_left hvalid
  exact hfree (h id hmem)

def initial (valid : Bool) (ids : IdTable) : System := { display := { valid, ids } }

/-- **The layer tables stay right**, and no call reads a layer that was destroyed, in exactly those
runs in which all calls fit. -/
theorem layers_good_iff {valid : Bool} {ids : IdTable} {calls : List Call}
    (hrun : run step (initial valid ids) calls = some sys) :
    Always step Good (initial valid ids) calls ↔ Along step Fits (initial valid ids) calls := by
  refine always_iff_along (J := Inv) (fun _ h => h.toGood) (fun _ _ _ => step_inv)
    (fun _ _ _ => not_good_step) hrun ?_
  exact {
    tables := ⟨.refl _, nodup_nil, Pairwise.nil⟩
    clean := rfl
    made := by rintro p (hp | hp) <;> cases hp
    gone := nofun
    change := nofun
    gfx := nofun
    drm := fun p hp => mem_singleton.mp hp
    next := Nat.zero_lt_one }

def frames : List Call :=
  [.createLayer true true, .createLayer true true, .setLayerZorder 0 7, .setLayerZorder 1 3,
    .prepareDisplayLayers, .getDisplayCompChange true true true, .commit true {}, .destroyLayer 0,
    .prepareDisplayLayers, .getDisplayCompChange true true true,
    .getDisplayReleaseFence true true true, .commit true {}]

theorem layers_good_frames : Always step Good (initial true {}) frames := by
  refine (layers_good_iff rfl).mpr ?_
  have hfirst : Fits (initial true {}) (.createLayer true true) := fits_createLayer (by decide) _ _
  refine along_cons hfirst rfl (along_cons (fits_createLayer (by decide) _ _) rfl ?_)
  repeat first
    | exact trivial
    | refine along_cons trivial rfl ?_
    | refine along_cons (fun _ _ _ _ => not_mem_nil) rfl ?_

theorem destroyed_read : ∃ sys sys₁ sys₂, run step (initial true {})
        [.createLayer true true, .prepareDisplayLayers, .destroyLayer 0] = some sys ∧
      sys.stale = false ∧ sys.display.mLayers = [] ∧ sys.display.mChangeLayers = [1] ∧
      sys.display.gfxLayers = [1] ∧
      step sys (.getDisplayCompChange true true true) = some sys₁ ∧ sys₁.stale = true ∧
      step sys (.commit true {}) = some sys₂ ∧ sys₂.stale = true :=
  ⟨_, _, _, rfl, rfl, rfl, rfl, rfl, rfl, rfl, rfl, rfl⟩

end Runs

end OniroSoc.Emulator.Layers

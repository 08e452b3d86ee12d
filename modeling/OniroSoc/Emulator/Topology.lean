import OniroSoc.Emulator.Ids

/-!
# How the emulator assigns DRM resources to displays

`DiscoveryDisplay` picks for each connected connector a CRTC that has no display yet, and makes a
display of the two, which takes an id, the idle planes for its CRTC and the CRTC itself.  The code
does not choose the order of the maps, so they are lists.
-/

namespace OniroSoc.Emulator.Topology
open Support List Option

structure Crtc where
  (mId mPipe : Nat)
  mDisplayId : Nat := invalidId
deriving DecidableEq

structure Encoder where
  (mEncoderId mCrtcId mPossibleCrtcs : Nat)
deriving DecidableEq

structure Connector where
  (mId mEncoderId : Nat)
  mPossibleEncoders : List Nat
deriving DecidableEq

inductive PlaneType where
  | overlay | primary | cursor
deriving DecidableEq

structure Plane where
  (mId mPossibleCrtcs : Nat)
  mType : PlaneType
  mPipe : Nat := 0
deriving DecidableEq

structure Display where
  mId : Nat := invalidId
  connector : Connector
  (crtcId pipe : Nat)
  planes : List Plane := []
  initialised : Bool := false
deriving DecidableEq

def onPipe (possibleCrtcs pipe : Nat) : Bool := (1 <<< pipe) &&& possibleCrtcs ≠ 0

structure Device where
  crtcs : List Crtc
  encoders : List Encoder
  planes : List Plane
  mDisplays : List Display := []
  ids : IdTable

structure InitEnv where
  (gfx mode : Bool := true)

def Crtc.canBind (crtc : Crtc) : Bool := crtc.mDisplayId = invalidId

def Plane.isIdle (plane : Plane) : Bool := plane.mPipe = 0

def Plane.bindToPipe (plane : Plane) (pipe : Nat) : Plane := { plane with mPipe := pipe }

def Encoder.pickIdleCrtcId (encoder : Encoder) (crtcs : List Crtc) : Option Nat := do
  let crtc ← (crtcs.find? fun crtc => crtc.mId = encoder.mCrtcId).or crtcs.head?
  let picked :=
    if crtc.canBind then some crtc
    else crtcs.foldl (fun picked posCrtc =>
      if posCrtc.canBind && onPipe encoder.mPossibleCrtcs posCrtc.mPipe then some posCrtc else picked) none
  picked.map Crtc.mId

def tryPickEncoder (encoders : List Encoder) (crtcs : List Crtc) (encoderId : Nat) :
    Option Nat := do
  let encoder ← encoders.find? fun encoder => encoder.mEncoderId = encoderId
  encoder.pickIdleCrtcId crtcs

def Connector.encoderIds (connector : Connector) : List Nat :=
  connector.mEncoderId :: connector.mPossibleEncoders

def Connector.pickIdleCrtcId (connector : Connector) (encoders : List Encoder) (crtcs : List Crtc) :
    Option Nat :=
  connector.encoderIds.findSome? (tryPickEncoder encoders crtcs)

namespace Device

def takes (pipe : Nat) (type : PlaneType) (plane : Plane) : Bool :=
  plane.isIdle && onPipe plane.mPossibleCrtcs pipe && plane.mType = type

def getDrmPlane (planes : List Plane) (pipe : Nat) (type : PlaneType) : List Plane × List Plane :=
  (planes.map fun plane => if takes pipe type plane then plane.bindToPipe pipe else plane,
    (planes.filter (takes pipe type)).map fun plane => plane.bindToPipe pipe)

def bindToDisplay (crtcs : List Crtc) (crtcId id : Nat) : List Crtc :=
  crtcs.map fun crtc => if crtc.mId = crtcId then { crtc with mDisplayId := id } else crtc

def initDisplay (s : Device) (env : InitEnv) (connector : Connector) (crtc : Crtc) :
    Option (Device × Display) := do
  let (id, ids) ← s.ids.getIdleId
  let s := { s with ids }
  let display : Display := { connector, crtcId := crtc.mId, pipe := crtc.mPipe }
  if id = invalidId then return (s, display)
  let display := { display with mId := id }
  if !env.gfx then return (s, display)
  let (planes, primPlanes) := getDrmPlane s.planes crtc.mPipe .primary
  let (planes, overlayPlanes) := getDrmPlane planes crtc.mPipe .overlay
  let s := { s with planes }
  if primPlanes = [] then return (s, display)
  let display := { display with planes := primPlanes ++ overlayPlanes }
  if !crtc.canBind then return (s, display)
  let s := { s with crtcs := bindToDisplay s.crtcs crtc.mId id }
  return (s, { display with initialised := env.mode })

def emplace (s : Device) (display : Display) : Device :=
  if s.mDisplays.any fun other => other.mId = display.mId then
    { s with
      crtcs := s.crtcs.map fun crtc =>
        if crtc.mId = display.crtcId ∧ crtc.mDisplayId = display.mId then
          { crtc with mDisplayId := invalidId } else crtc
      ids := s.ids.erase display.mId }
  else { s with mDisplays := s.mDisplays ++ [display] }

def picked (s : Device) (connector : Connector) : Option Crtc := do
  let crtcId ← connector.pickIdleCrtcId s.encoders s.crtcs
  s.crtcs.find? fun crtc => crtc.mId = crtcId

def discover (env : Connector → InitEnv) (s : Device) (connector : Connector) : Option Device :=
  match s.picked connector with
  | none => some s
  | some crtc =>
    (s.initDisplay (env connector) connector crtc).map fun (s, display) => s.emplace display

end Device

structure Resources where
  crtcs : List Crtc
  encoders : List Encoder
  connectors : List Connector
  planes : List Plane
  crtcIds : (crtcs.map Crtc.mId).Nodup
  unbound : ∀ crtc ∈ crtcs, crtc.mDisplayId = invalidId
  planeIds : (planes.map Plane.mId).Nodup
  idle : ∀ plane ∈ planes, plane.mPipe = 0

def Resources.device (res : Resources) (ids : IdTable) : Device :=
  { crtcs := res.crtcs, encoders := res.encoders, planes := res.planes, ids }

def discoveryDisplay (env : Connector → InitEnv) (res : Resources) (ids : IdTable) : Option
    (List Display) :=
  (run (Device.discover env) (res.device ids) res.connectors).map Device.mDisplays

def Allows (encoders : List Encoder) (connector : Connector) (pipe : Nat) : Prop :=
  ∃ encoderId ∈ connector.encoderIds, ∃ encoder,
    (encoders.find? fun encoder => encoder.mEncoderId = encoderId)
    = some encoder ∧ onPipe encoder.mPossibleCrtcs pipe = true

structure Apart (a b : Display) : Prop where
  ids : a.mId ≠ b.mId
  crtcs : a.crtcId ≠ b.crtcId
  planes : ∀ p ∈ a.planes, ∀ q ∈ b.planes, p.mId ≠ q.mId

structure Proper (encoders : List Encoder) (display : Display) : Prop where
  initialised : display.initialised = true
  valid : display.mId ≠ invalidId
  allowed : Allows encoders display.connector display.pipe
  usable : ∀ plane ∈ display.planes, onPipe plane.mPossibleCrtcs display.pipe = true

structure Good (encoders : List Encoder) (displays : List Display) : Prop where
  proper : ∀ display ∈ displays, Proper encoders display
  apart : displays.Pairwise Apart

structure FitsCrtc (env : InitEnv) (s : Device) (connector : Connector) (crtc : Crtc) : Prop where
  id : ∃ id < invalidId, id ∉ s.ids.mIdSets
  gfx : env.gfx = true
  primary : ∃ plane ∈ s.planes, Device.takes crtc.mPipe .primary plane = true
  mode : env.mode = true
  allowed : Allows s.encoders connector crtc.mPipe
  pipeZero : ∀ display ∈ s.mDisplays, display.pipe = 0 → ∀ plane ∈ display.planes,
    onPipe plane.mPossibleCrtcs crtc.mPipe = false

def Fits (env : Connector → InitEnv) (s : Device) (connector : Connector) : Prop :=
  ∀ crtc, s.picked connector = some crtc → FitsCrtc (env connector) s connector crtc

section Picks
variable {crtcs : List Crtc} {encoders : List Encoder} {crtc : Crtc} {connector : Connector}
  {id : Nat}

theorem foldl_canBind {p : Crtc → Bool} {start : Option Crtc}
    (h : crtcs.foldl
        (fun picked posCrtc => if posCrtc.canBind && p posCrtc then some posCrtc else picked)
        start = some crtc) : start = some crtc ∨ crtc ∈ crtcs ∧ crtc.canBind = true := by
  induction crtcs generalizing start with
  | nil => exact .inl h
  | cons posCrtc crtcs ih =>
    rw [foldl_cons] at h
    rcases ih h with hstart | ⟨hmem, hbind⟩
    · split_ifs at hstart with hpos
      · cases hstart
        exact .inr ⟨.head _, (Bool.and_eq_true_iff.mp hpos).1⟩
      · exact .inl hstart
    · exact .inr ⟨.tail _ hmem, hbind⟩

theorem Encoder.pickIdleCrtcId_spec {encoder : Encoder}
    (h : encoder.pickIdleCrtcId crtcs = some id) :
    ∃ crtc ∈ crtcs, crtc.canBind = true ∧ crtc.mId = id := by
  obtain ⟨first, hfirst, h⟩ := bind_eq_some_iff.mp h
  obtain ⟨crtc, hcrtc, rfl⟩ := map_eq_some_iff.mp h
  split_ifs at hcrtc with hbind
  · cases hcrtc
    refine ⟨_, ?_, hbind, rfl⟩
    rcases or_eq_some_iff.mp hfirst with hfind | ⟨-, hhead⟩
    · exact mem_of_find?_eq_some hfind
    · exact mem_of_head? hhead
  · obtain ⟨hmem, hcan⟩ := (foldl_canBind hcrtc).resolve_left nofun
    exact ⟨crtc, hmem, hcan, rfl⟩

theorem Connector.pickIdleCrtcId_spec (h : connector.pickIdleCrtcId encoders crtcs = some id) :
    ∃ crtc ∈ crtcs, crtc.canBind = true ∧ crtc.mId = id := by
  obtain ⟨encoderId, -, htry⟩ := exists_of_findSome?_eq_some h
  obtain ⟨encoder, -, hpick⟩ := bind_eq_some_iff.mp htry
  exact encoder.pickIdleCrtcId_spec hpick

theorem Device.picked_spec {s : Device} (hids : (s.crtcs.map Crtc.mId).Nodup)
    (h : s.picked connector = some crtc) : crtc ∈ s.crtcs ∧ crtc.canBind = true := by
  obtain ⟨id, hpick, hfind⟩ := bind_eq_some_iff.mp h
  obtain ⟨found, hmem, hbind, rfl⟩ := connector.pickIdleCrtcId_spec hpick
  have hcrtc := mem_of_find?_eq_some hfind
  have hfound := find?_some hfind
  have hid : crtc.mId = found.mId := of_decide_eq_true hfound
  exact ⟨hcrtc, inj_on_of_nodup_map hids hcrtc hmem hid ▸ hbind⟩

end Picks

section Planes
variable {planes : List Plane} {plane : Plane} {pipe : Nat}

def takesAny (pipe : Nat) (plane : Plane) : Bool :=
  Device.takes pipe .primary plane || Device.takes pipe .overlay plane

theorem takesAny_iff : takesAny pipe plane = true ↔
    plane.mPipe = 0 ∧ onPipe plane.mPossibleCrtcs pipe = true ∧ plane.mType ≠ .cursor := by
  cases htype : plane.mType <;> simp [takesAny, Device.takes, Plane.isIdle, htype]

def boundPlanes (planes : List Plane) (pipe : Nat) : List Plane :=
  (Device.getDrmPlane (Device.getDrmPlane planes pipe .primary).1 pipe .overlay).1

def displayPlanes (planes : List Plane) (pipe : Nat) : List Plane :=
  (Device.getDrmPlane planes pipe .primary).2 ++
    (Device.getDrmPlane (Device.getDrmPlane planes pipe .primary).1 pipe .overlay).2

theorem takes_overlay_bind (pipe : Nat) (plane : Plane) :
    Device.takes pipe .overlay
      (if Device.takes pipe .primary plane then plane.bindToPipe pipe else plane) =
      Device.takes pipe .overlay plane := by
  split_ifs with hprimary
  · have htype : plane.mType = .primary := of_decide_eq_true (Bool.and_eq_true_iff.mp hprimary).2
    simp [Device.takes, Plane.bindToPipe, htype]
  · rfl

theorem boundPlanes_eq (planes : List Plane) (pipe : Nat) : boundPlanes planes pipe =
      planes.map fun plane => if takesAny pipe plane then plane.bindToPipe pipe else plane := by
  rw [boundPlanes, Device.getDrmPlane, Device.getDrmPlane, List.map_map]
  refine map_congr_left fun plane _ => ?_
  rw [Function.comp_apply, takes_overlay_bind, takesAny]
  cases Device.takes pipe .primary plane <;> cases Device.takes pipe .overlay plane <;> rfl

theorem mem_displayPlanes : plane ∈ displayPlanes planes pipe ↔
    ∃ q ∈ planes, takesAny pipe q = true ∧ plane = q.bindToPipe pipe := by
  rw [displayPlanes, mem_append]
  constructor
  · rintro (hmem | hmem)
    · obtain ⟨q, hq, rfl⟩ := List.mem_map.mp hmem
      obtain ⟨hq, htakes⟩ := mem_filter.mp hq
      exact ⟨q, hq, Bool.or_eq_true_iff.mpr (.inl htakes), rfl⟩
    · obtain ⟨q', hq', rfl⟩ := List.mem_map.mp hmem
      obtain ⟨hq', htakes⟩ := mem_filter.mp hq'
      obtain ⟨q, hq, rfl⟩ := List.mem_map.mp hq'
      rw [takes_overlay_bind] at htakes
      refine ⟨q, hq, Bool.or_eq_true_iff.mpr (.inr htakes), ?_⟩
      split_ifs <;> rfl
  · rintro ⟨q, hq, htakes, rfl⟩
    rcases Bool.or_eq_true_iff.mp htakes with htakes | htakes
    · exact .inl (List.mem_map.mpr ⟨q, mem_filter.mpr ⟨hq, htakes⟩, rfl⟩)
    · refine .inr (List.mem_map.mpr ⟨_, mem_filter.mpr ⟨List.mem_map.mpr ⟨q, hq, rfl⟩, ?_⟩, ?_⟩)
      · rw [takes_overlay_bind]
        exact htakes
      · split_ifs <;> rfl

theorem boundPlanes_ids (planes : List Plane) (pipe : Nat) :
    (boundPlanes planes pipe).map Plane.mId = planes.map Plane.mId := by
  rw [boundPlanes_eq, List.map_map]
  refine map_congr_left fun plane _ => ?_
  rw [Function.comp_apply]
  split_ifs <;> rfl

theorem bindToDisplay_ids (crtcs : List Crtc) (crtcId id : Nat) :
    (Device.bindToDisplay crtcs crtcId id).map Crtc.mId = crtcs.map Crtc.mId := by
  rw [Device.bindToDisplay, List.map_map]
  refine map_congr_left fun crtc _ => ?_
  rw [Function.comp_apply]
  split_ifs <;> rfl

end Planes

def Device.withDisplay (s : Device) (crtc : Crtc) (id : Nat) (ids : IdTable) : Device :=
  { s with
    ids
    planes := boundPlanes s.planes crtc.mPipe
    crtcs := Device.bindToDisplay s.crtcs crtc.mId id }

def newDisplay (s : Device) (connector : Connector) (crtc : Crtc) (id : Nat) : Display :=
  { mId := id, connector, crtcId := crtc.mId, pipe := crtc.mPipe
    planes := displayPlanes s.planes crtc.mPipe, initialised := true }

section Turns
variable {env : Connector → InitEnv} {s s' : Device} {connector : Connector} {crtc : Crtc}
  {display : Display} {encoders : List Encoder} {displays : List Display}

theorem initDisplay_spec {init : InitEnv}
    (h : s.initDisplay init connector crtc = some (s', display)) :
    ∃ id ids, s.ids.getIdleId = some (id, ids) ∧ display.mId = id ∧ s'.mDisplays = s.mDisplays ∧
      s'.encoders = s.encoders ∧
      (display.initialised = true →
        id ≠ invalidId ∧ init.gfx = true ∧ init.mode = true ∧
        (Device.getDrmPlane s.planes crtc.mPipe .primary).2 ≠ [] ∧ s' = s.withDisplay crtc id ids ∧
        display = newDisplay s connector crtc id) := by
  obtain ⟨⟨id, ids⟩, hid, h⟩ := bind_eq_some_iff.mp h
  refine ⟨id, ids, hid, ?_⟩
  dsimp only at h
  split_ifs at h with hinvalid hgfx hprimary hbind
  · cases h
    exact ⟨hinvalid.symm, rfl, rfl, nofun⟩
  · cases h
    exact ⟨rfl, rfl, rfl, nofun⟩
  · cases h
    exact ⟨rfl, rfl, rfl, nofun⟩
  · cases h
    exact ⟨rfl, rfl, rfl, nofun⟩
  · cases h
    refine ⟨rfl, rfl, rfl, fun hinit => ?_⟩
    have hmode : init.mode = true := hinit
    refine ⟨hinvalid, by simpa using hgfx, hmode, hprimary, rfl, ?_⟩
    rw [newDisplay, ← hmode]
    rfl

theorem initDisplay_of_fits (h : FitsCrtc (env connector) s connector crtc)
    (hbind : crtc.canBind = true) :
    ∃ id ids, s.ids.getIdleId = some (id, ids) ∧ id ≠ invalidId ∧
      s.initDisplay (env connector) connector crtc =
        some (s.withDisplay crtc id ids, newDisplay s connector crtc id) := by
  obtain ⟨free, hlt, hfree⟩ := h.id
  obtain ⟨id, ids, hid, hvalid⟩ := IdTable.getIdleId_of_free hlt hfree
  refine ⟨id, ids, hid, hvalid, ?_⟩
  have hprimary : (Device.getDrmPlane s.planes crtc.mPipe .primary).2 ≠ [] := by
    obtain ⟨plane, hmem, htakes⟩ := h.primary
    refine ne_nil_of_mem (List.mem_map.mpr ⟨plane, mem_filter.mpr ⟨hmem, htakes⟩, rfl⟩)
  rw [Device.initDisplay, hid, bind_eq_bind, bind_some]
  dsimp only
  rw [if_neg hvalid, h.gfx, if_neg (by simp), if_neg hprimary, hbind, if_neg (by simp), h.mode]
  rfl

theorem emplace_cases (s : Device) (display : Display) :
    (s.emplace display).encoders = s.encoders ∧
    ((s.emplace display).mDisplays = s.mDisplays ∨
     (s.emplace display).mDisplays = s.mDisplays ++ [display]) := by
  rw [Device.emplace]
  split_ifs
  · exact ⟨rfl, .inl rfl⟩
  · exact ⟨rfl, .inr rfl⟩

theorem emplace_eq (h : ∀ other ∈ s.mDisplays, other.mId ≠ display.mId) :
    s.emplace display = { s with mDisplays := s.mDisplays ++ [display] } := by
  rw [Device.emplace, if_neg]
  rw [List.any_eq_true]
  rintro ⟨other, hmem, heq⟩
  exact h other hmem (of_decide_eq_true heq)

theorem discover_displays (h : Device.discover env s connector = some s') :
    s'.encoders = s.encoders ∧
    (s'.mDisplays = s.mDisplays ∨ ∃ display, s'.mDisplays = s.mDisplays ++ [display]) := by
  rw [Device.discover] at h
  split at h
  · cases h
    exact ⟨rfl, .inl rfl⟩
  · obtain ⟨⟨s₁, display⟩, hinit, rfl⟩ := map_eq_some_iff.mp h
    obtain ⟨-, -, -, -, hdisplays, hencoders, -⟩ := initDisplay_spec hinit
    obtain ⟨hsame, hcases⟩ := emplace_cases s₁ display
    rw [hdisplays] at hcases
    exact ⟨hsame.trans hencoders, hcases.imp_right fun heq => ⟨display, heq⟩⟩

theorem Good.of_append (h : Good encoders (displays ++ [display])) : Good encoders displays :=
  ⟨fun other hmem => h.proper other (mem_append_left _ hmem), (pairwise_append.mp h.apart).1⟩

structure Inv (s : Device) : Prop where
  good : Good s.encoders s.mDisplays
  crtcIds : (s.crtcs.map Crtc.mId).Nodup
  planeIds : (s.planes.map Plane.mId).Nodup
  taken : ∀ display ∈ s.mDisplays, display.mId ∈ s.ids.mIdSets
  bound : ∀ display ∈ s.mDisplays, ∃ crtc ∈ s.crtcs,
    crtc.mId = display.crtcId ∧ crtc.mDisplayId = display.mId
  held : ∀ display ∈ s.mDisplays, ∀ plane ∈ display.planes, ∃ q ∈ s.planes, q.mId = plane.mId ∧
    q.mPossibleCrtcs = plane.mPossibleCrtcs ∧ q.mPipe = display.pipe ∧ q.mType ≠ .cursor

variable {id : Nat} {ids : IdTable}

theorem Inv.fresh (h : Inv s) (hid : s.ids.getIdleId = some (id, ids))
    (other : Display) (hmem : other ∈ s.mDisplays) : other.mId ≠ id := by
  rcases (IdTable.getIdleId_cases hid).2 with rfl | ⟨-, hfree⟩
  · exact (h.good.proper other hmem).valid
  · rintro rfl
    exact hfree (h.taken other hmem)

theorem discover_picked (h : Inv s) (hpick : s.picked connector = some crtc)
    (hstep : Device.discover env s connector = some s') :
    ∃ s₁ display, s.initDisplay (env connector) connector crtc = some (s₁, display) ∧
      s' = { s₁ with mDisplays := s.mDisplays ++ [display] } := by
  rw [Device.discover, hpick] at hstep
  obtain ⟨⟨s₁, display⟩, hinit, rfl⟩ := map_eq_some_iff.mp hstep
  obtain ⟨id, ids, hid, rfl, hdisplays, -, -⟩ := initDisplay_spec hinit
  refine ⟨s₁, display, hinit, ?_⟩
  have hfresh : ∀ other ∈ s₁.mDisplays, other.mId ≠ display.mId := by
    rw [hdisplays]
    exact h.fresh hid
  dsimp only
  rw [emplace_eq hfresh, hdisplays]

theorem Inv.not_taken (h : Inv s) (hfits : FitsCrtc (env connector) s connector crtc)
    (hmem : display ∈ s.mDisplays) {plane q : Plane} (hplane : plane ∈ display.planes)
    (hq : q ∈ s.planes) (hid : q.mId = plane.mId) : takesAny crtc.mPipe q = false := by
  obtain ⟨held, hheld, hsame, hmask, hpipe, -⟩ := h.held display hmem plane hplane
  obtain rfl : held = q := inj_on_of_nodup_map h.planeIds hheld hq (hsame.trans hid.symm)
  rw [Bool.eq_false_iff]
  intro htakes
  obtain ⟨hidle, hon, -⟩ := takesAny_iff.mp htakes
  have hoff := hfits.pipeZero display hmem (hpipe.symm.trans hidle) plane hplane
  rw [hmask, hoff] at hon
  cases hon

theorem Inv.apart (h : Inv s) (hfits : FitsCrtc (env connector) s connector crtc)
    (hcrtc : crtc ∈ s.crtcs) (hbind : crtc.canBind = true)
    (hid : s.ids.getIdleId = some (id, ids)) (hmem : display ∈ s.mDisplays) :
    Apart display (newDisplay s connector crtc id) where
  ids := h.fresh hid display hmem
  crtcs heq := by
    obtain ⟨other, hother, hsame, hdisplay⟩ := h.bound display hmem
    obtain rfl : other = crtc := inj_on_of_nodup_map h.crtcIds hother hcrtc (hsame.trans heq)
    have hfree : other.mDisplayId = invalidId := of_decide_eq_true hbind
    exact (h.good.proper display hmem).valid (hdisplay.symm.trans hfree)
  planes p hp q hq heq := by
    obtain ⟨q', hq', htakes, rfl⟩ := mem_displayPlanes.mp hq
    have hnot := h.not_taken hfits hmem hp hq' heq.symm
    rw [hnot] at htakes
    cases htakes

theorem newDisplay_proper (hfits : FitsCrtc (env connector) s connector crtc)
    (hvalid : id ≠ invalidId) : Proper s.encoders (newDisplay s connector crtc id) where
  initialised := rfl
  valid := hvalid
  allowed := hfits.allowed
  usable plane hplane := by
    obtain ⟨q, -, htakes, rfl⟩ := mem_displayPlanes.mp hplane
    exact (takesAny_iff.mp htakes).2.1

theorem Inv.withDisplay (h : Inv s) (hfits : FitsCrtc (env connector) s connector crtc) (hcrtc : crtc ∈ s.crtcs)
    (hbind : crtc.canBind = true) (hid : s.ids.getIdleId = some (id, ids))
    (hvalid : id ≠ invalidId) :
    Inv { s.withDisplay crtc id ids with mDisplays := s.mDisplays ++ [newDisplay s connector crtc id] } where
  good := by
    refine ⟨fun other hmem => ?_, pairwise_append.mpr ⟨h.good.apart, pairwise_singleton _ _, ?_⟩⟩
    · rcases mem_append.mp hmem with hmem | hmem
      · exact h.good.proper other hmem
      · rw [mem_singleton.mp hmem]
        exact newDisplay_proper hfits hvalid
    · intro other hmem new hnew
      rw [mem_singleton.mp hnew]
      exact h.apart hfits hcrtc hbind hid hmem
  crtcIds := (bindToDisplay_ids s.crtcs crtc.mId id).symm ▸ h.crtcIds
  planeIds := (boundPlanes_ids s.planes crtc.mPipe).symm ▸ h.planeIds
  taken other hmem := by
    show other.mId ∈ ids.mIdSets
    rw [(IdTable.getIdleId_cases hid).1]
    rcases mem_append.mp hmem with hmem | hmem
    · exact Finset.mem_insert_of_mem (h.taken other hmem)
    · rw [mem_singleton.mp hmem]
      exact Finset.mem_insert_self _ _
  bound other hmem := by
    rcases mem_append.mp hmem with hmem | hmem
    · obtain ⟨old, hold, hsame, hdisplay⟩ := h.bound other hmem
      have hapart : Apart other (newDisplay s connector crtc id) :=
        h.apart hfits hcrtc hbind hid hmem
      have hne : old.mId ≠ crtc.mId := by
        rw [hsame]
        exact hapart.crtcs
      exact ⟨old, List.mem_map.mpr ⟨old, hold, if_neg hne⟩, hsame, hdisplay⟩
    · rw [mem_singleton.mp hmem]
      exact ⟨{ crtc with mDisplayId := id }, List.mem_map.mpr ⟨crtc, hcrtc, if_pos rfl⟩, rfl, rfl⟩
  held other hmem plane hplane := by
    show ∃ q ∈ boundPlanes s.planes crtc.mPipe, _
    rw [boundPlanes_eq]
    rcases mem_append.mp hmem with hmem | hmem
    · obtain ⟨q, hq, hsame, hmask, hpipe, htype⟩ := h.held other hmem plane hplane
      have hnot := h.not_taken hfits hmem hplane hq hsame
      exact ⟨q, List.mem_map.mpr ⟨q, hq, if_neg (by rw [hnot]; decide)⟩, hsame, hmask, hpipe, htype⟩
    · rw [mem_singleton.mp hmem] at hplane ⊢
      obtain ⟨q, hq, htakes, rfl⟩ := mem_displayPlanes.mp hplane
      exact ⟨q.bindToPipe crtc.mPipe, List.mem_map.mpr ⟨q, hq, if_pos htakes⟩, rfl, rfl, rfl,
        (takesAny_iff.mp htakes).2.2⟩

theorem discover_of_fits (h : Inv s) (hfits : Fits env s connector) :
    ∃ s', Device.discover env s connector = some s' ∧ Inv s' := by
  cases hpick : s.picked connector with
  | none =>
    refine ⟨s, ?_, h⟩
    rw [Device.discover, hpick]
  | some crtc =>
    have hcrtc := hfits crtc hpick
    obtain ⟨hmem, hbind⟩ := Device.picked_spec h.crtcIds hpick
    obtain ⟨id, ids, hid, hvalid, hinit⟩ := initDisplay_of_fits hcrtc hbind
    refine ⟨_, ?_, h.withDisplay hcrtc hmem hbind hid hvalid⟩
    rw [Device.discover, hpick]
    dsimp only
    rw [hinit, map_some]
    exact congrArg some (emplace_eq (h.fresh hid))

theorem not_good_of_not_fits (h : Inv s) (hfits : ¬ Fits env s connector)
    (hstep : Device.discover env s connector = some s') : ¬ Good s'.encoders s'.mDisplays := by
  intro hgood
  refine hfits fun crtc hpick => ?_
  obtain ⟨s₁, display, hinit, rfl⟩ := discover_picked h hpick hstep
  obtain ⟨id, ids, hid, rfl, -, hencoders, hsuccess⟩ := initDisplay_spec hinit
  have hproper : Proper s₁.encoders display := hgood.proper display (mem_append_right _ (.head _))
  obtain ⟨hvalid, hgfx, hmode, hprimary, -, hdisplay⟩ := hsuccess hproper.initialised
  have hapart : ∀ other ∈ s.mDisplays, Apart other display := fun other hmem =>
    (pairwise_append.mp hgood.apart).2.2 other hmem display (.head _)
  refine ⟨?_, hgfx, ?_, hmode, ?_, fun other hmem hzero plane hplane => ?_⟩
  · obtain ⟨hlt, hfree⟩ := (IdTable.getIdleId_cases hid).2.resolve_left hvalid
    exact ⟨display.mId, hlt, hfree⟩
  · obtain ⟨plane, hplane⟩ := exists_mem_of_ne_nil _ hprimary
    obtain ⟨q, hq, -⟩ := List.mem_map.mp hplane
    obtain ⟨hmem, htakes⟩ := mem_filter.mp hq
    exact ⟨q, hmem, htakes⟩
  · rw [← hencoders]
    have hallowed := hproper.allowed
    rw [hdisplay] at hallowed
    exact hallowed
  · -- A plane of a display on pipe 0 is idle, and would be among those of the new display.
    obtain ⟨q, hq, hsame, hmask, hpipe, htype⟩ := h.held other hmem plane hplane
    rw [Bool.eq_false_iff]
    intro hon
    have htakes : takesAny crtc.mPipe q = true :=
      takesAny_iff.mpr ⟨hpipe.trans hzero, by rw [hmask]; exact hon, htype⟩
    have hnew : q.bindToPipe crtc.mPipe ∈ display.planes := by
      rw [hdisplay]
      exact mem_displayPlanes.mpr ⟨q, hq, htakes, rfl⟩
    exact (hapart other hmem).planes plane hplane _ hnew hsame.symm

end Turns

/-- **The resources are assigned without overlap**, and `DiscoveryDisplay` returns, exactly if every
turn of its loop fits. -/
theorem assigned_iff (env : Connector → InitEnv) (res : Resources) (ids : IdTable) :
    (∃ displays, discoveryDisplay env res ids = some displays ∧ Good res.encoders displays) ↔
      Along (Device.discover env) (Fits env) (res.device ids) res.connectors := by
  have hinit : Inv (res.device ids) :=
    ⟨⟨nofun, Pairwise.nil⟩, res.crtcIds, res.planeIds, nofun, nofun, nofun⟩
  have hencoders : ∀ {s'}, run (Device.discover env) (res.device ids) res.connectors = some s' →
      s'.encoders = res.encoders := fun {s'} hrun =>
    run_invariant (I := fun s => s.encoders = res.encoders)
      (fun s c s₁ hs hstep => (discover_displays hstep).1.trans hs) hrun rfl
  have hiff : ∀ {s'}, run (Device.discover env) (res.device ids) res.connectors = some s' →
      (Always (Device.discover env) (fun s => Good s.encoders s.mDisplays)
      (res.device ids) res.connectors ↔
        Along (Device.discover env) (Fits env) (res.device ids) res.connectors) := fun {s'} hrun => by
    refine always_iff_along (J := Inv) (fun s h => h.good) (fun s c s₁ h hfits hstep => ?_)
      (fun s c s₁ h hfits hstep => not_good_of_not_fits h hfits hstep) hrun hinit
    obtain ⟨s₂, hstep', h'⟩ := discover_of_fits h hfits
    cases hstep.symm.trans hstep'
    exact h'
  constructor
  · rintro ⟨displays, hresult, hgood⟩
    obtain ⟨s', hrun, rfl⟩ := map_eq_some_iff.mp hresult
    rw [← hencoders hrun] at hgood
    refine (hiff hrun).mp (always_of_run (fun s c s₁ hstep hs₁ => ?_) hrun hgood).2
    -- Displays are never taken back.
    obtain ⟨hsame, heq | ⟨display, heq⟩⟩ := discover_displays hstep
    · rwa [hsame, heq] at hs₁
    · rw [hsame, heq] at hs₁
      exact hs₁.of_append
  · intro hfits
    obtain ⟨s', hrun, -⟩ := run_of_along (fun s c h hf => discover_of_fits h hf) hfits hinit
    have hgood := ((hiff hrun).mpr hfits).last hrun
    rw [hencoders hrun] at hgood
    exact ⟨s'.mDisplays, by rw [discoveryDisplay, hrun]; rfl, hgood⟩

def twoHeads : Resources where
  crtcs := [⟨40, 0, invalidId⟩, ⟨41, 1, invalidId⟩]
  encoders := [⟨60, 40, 0b01⟩, ⟨61, 41, 0b10⟩]
  connectors := [⟨70, 60, [60]⟩, ⟨71, 61, [61]⟩]
  planes := [⟨30, 0b11, .primary, 0⟩, ⟨31, 0b10, .primary, 0⟩]
  crtcIds := by decide
  unbound := by decide
  planeIds := by decide
  idle := by decide

def unattached : Resources where
  crtcs := [⟨40, 0, invalidId⟩, ⟨41, 1, invalidId⟩]
  encoders := [⟨60, 0, 0b10⟩]
  connectors := [⟨70, 60, [60]⟩]
  planes := [⟨30, 0b01, .primary, 0⟩, ⟨31, 0b10, .primary, 0⟩]
  crtcIds := by decide
  unbound := by decide
  planeIds := by decide
  idle := by decide

theorem assigned_twice :
    (∃ a b,
       discoveryDisplay (fun _ => {}) twoHeads {} = some [a, b] ∧ a.planes.map Plane.mId = [30] ∧
       b.planes.map Plane.mId = [30, 31]) ∧
    (∃ a, discoveryDisplay (fun _ => {}) unattached {} = some [a] ∧ a.pipe = 0 ∧
       ¬ Allows unattached.encoders a.connector 0) ∧
    (∃ a, discoveryDisplay (fun _ => { mode := false }) unattached {} = some [a] ∧
       a.initialised = false) := by
  refine ⟨⟨_, _, rfl, rfl, rfl⟩, ⟨_, rfl, rfl, ?_⟩, ⟨_, rfl, rfl⟩⟩
  rintro ⟨encoderId, hmem, encoder, hfind, hon⟩
  have hencoder : encoder = ⟨60, 0, 0b10⟩ := mem_singleton.mp (mem_of_find?_eq_some hfind)
  rw [hencoder] at hon
  cases hon

end OniroSoc.Emulator.Topology

import OniroSoc.Support.Runs
import OniroSoc.Compositor.Server

/-!
# What the toplevels are told

The size the container's windows are configured to, whether they are activated, and whether they are
on an output.  Between the locked part of a call and what it posts, the call is in `calls`;
`wayland` is what is left of an `ApplyActivation` or `get_toplevel`, cut where it reads what the IPC
threads write.
-/

namespace OniroSoc.Compositor
open Support Option

abbrev Size := Int × Int

structure ToplevelRec extends Toplevel where
  (activated entered : Bool := false)
deriving DecidableEq

inductive DisplayEvent where
  | configure (toplevel : Nat) (size : Size) (activated : Bool)
  | onOutput (surface output : Nat) (shown : Bool)
deriving DecidableEq

namespace Display

inductive Call where
  | attachWindow (size : Size) (resized : Bool)
  | erased (window : Nat)
  | detachWindow (window : Nat)
  | setWindowActive (active : Bool)
deriving DecidableEq

inductive Work where
  | attachWindow (size : Size) (resized : Bool)
  | detachWindow (window : Nat)
  | setWindowActive (active : Bool)
deriving DecidableEq

inductive Instr where
  | readActive (edge : Bool)
  | readAttached (edge : Bool) (active : Text) (size : Size)
  | activate (edge : Bool) (active : Text) (size : Size)
  | readSize (id : Nat)
  | configureNew (id : Nat) (size : Size)
deriving DecidableEq

inductive Request where
  | createSurface (client : Nat)
  | getSubsurface (child parent : Nat)
  | getToplevel (surface : Option Nat)
  | destroyToplevel (id : Nat)
  | setAppId (id : Nat) (appId : Text)
  | commit (surface : Nat)
  | destroySurface (surface : Nat)
  | bindOutput (client : Nat)
  | releaseOutput (id : Nat)
deriving DecidableEq

inductive Action where
  | request (r : Request)
  | runPosted
  | proceed
  | attachWindow (package : Text) (size : Size)
  | detachWindow (window : Nat)
  | clearActive (i : Nat)
  | setWindowActive (window : Nat) (active : Bool)
  | post (i : Nat)
  | setOutputSurface (ok : Bool)
  | clearOutputSurface (overlay ok : Bool)
deriving DecidableEq

end Display

open OniroSoc.Compositor.Display
open Server (packageOfAppId isHomePackage)

structure Display where
  surfaces : List Surface := []
  nextObject : Nat := 1
  toplevels : List ToplevelRec := []
  nextToplevelId : Nat := 1
  windows : List Window := []
  nextWindowId : Nat := 1
  activeWindow : Nat := 0
  activePackage : Text := []
  outputSize : Size
  legacy : Bool := false
  outputResources : List Resource := []
  calls : List Call := []
  posted : List Work := []
  wayland : Option Instr := none
  sent : List DisplayEvent := []
deriving DecidableEq

namespace Display

def star : Text := ['*']

def toplevel (s : Display) (id : Nat) : Option ToplevelRec := s.toplevels.find? fun t => t.id = id

def surface (s : Display) (id : Nat) : Option Surface := s.surfaces.find? fun x => x.id = id

def modifyToplevel (s : Display) (id : Nat) (f : ToplevelRec → ToplevelRec) : Display :=
  { s with toplevels := s.toplevels.map fun t => if t.id = id then f t else t }

def Targets (id : Nat) (t : ToplevelRec) : Prop := id = 0 ∨ t.id = id

instance (id : Nat) (t : ToplevelRec) : Decidable (Targets id t) :=
  inferInstanceAs (Decidable (_ ∨ _))

def configureToplevel (s : Display) (id : Nat) (size : Size) (activated : Bool) : Display :=
  { s with
    toplevels := s.toplevels.map fun t => if Targets id t then { t with activated } else t
    sent := ((s.toplevels.filter fun t => Targets id t).map fun t =>
      .configure t.id size activated).reverse ++ s.sent }

def outputsOf (s : Display) (surface : Nat) : List Resource :=
  s.outputResources.filter fun o => some o.client = (s.surface surface).map Surface.client

def sendSurfaceOnOutput (s : Display) (id : Nat) (shown : Bool) : Display :=
  match s.toplevel id with
  | none => s
  | some t =>
    match t.surface with
    | none => s
    | some surface =>
      if t.entered = shown then s
      else
        { s.modifyToplevel id fun t => { t with entered := shown } with
          sent := ((s.outputsOf surface).map fun o =>
            .onOutput surface o.id shown).reverse ++ s.sent }

def want (active : Text) (t : Toplevel) : Bool :=
  if packageOfAppId t.appId ≠ [] then !t.home && (active = star || packageOfAppId t.appId = active)
  else true

def pulses (edge : Bool) (active : Text) (t : ToplevelRec) : Bool :=
  t.appId ≠ [] && want active t.toToplevel && edge && t.activated && packageOfAppId t.appId ≠ []

def changes (edge : Bool) (active : Text) (t : ToplevelRec) : Bool :=
  t.appId ≠ [] && !pulses edge active t && want active t.toToplevel != t.activated

def turnOn (size : Size) (s : Display) (id : Nat) : Display :=
  (s.sendSurfaceOnOutput id true).configureToplevel id size true

def turnOff (size : Size) (s : Display) (id : Nat) : Display :=
  (s.configureToplevel id size false).sendSurfaceOnOutput id false

def pulse (size : Size) (s : Display) (id : Nat) : Display :=
  ((s.sendSurfaceOnOutput id true).configureToplevel id size false).configureToplevel id size true

def idsOf (s : Display) (p : ToplevelRec → Bool) : List Nat :=
  (s.toplevels.filter p).map fun t => t.id

def noteChanges (s : Display) (edge : Bool) (active : Text) : Display :=
  { s with
    toplevels := s.toplevels.map fun t =>
      if changes edge active t then { t with activated := want active t.toToplevel } else t }

def activate (s : Display) (edge : Bool) (active : Text) (size : Size) : Display :=
  let on := s.idsOf fun t => changes edge active t && want active t.toToplevel
  let off := s.idsOf fun t => changes edge active t && !want active t.toToplevel
  let again := s.idsOf (pulses edge active)
  again.foldl (pulse size)
    (off.foldl (turnOff size) (on.foldl (turnOn size) (s.noteChanges edge active)))

def exec (s : Display) : Instr → Display
  | .readActive edge => { s with wayland := some (.readAttached edge s.activePackage s.outputSize) }
  | .readAttached edge active size =>
    { s with wayland := some (.activate edge (if s.legacy then star else active) size) }
  | .activate edge active size => { s.activate edge active size with wayland := none }
  | .readSize id => { s with wayland := some (.configureNew id s.outputSize) }
  | .configureNew id size =>
    { s with sent := .configure id size false :: s.sent, wayland := none }

def configureAll (s : Display) (size : Size) : Display :=
  s.toplevels.foldl (fun s t => s.configureToplevel t.id size t.activated) s

def work (s : Display) : Work → Display
  | .attachWindow size resized => if resized then s.configureAll size else s
  | .detachWindow _ => { s with wayland := some (.readActive false) }
  | .setWindowActive active => { s with wayland := some (.readActive active) }

def getToplevel (s : Display) (surface : Option Nat) : Display :=
  let id := s.nextToplevelId
  { s with
    nextToplevelId := id + 1
    toplevels := s.toplevels ++ [{ id, surface }]
    surfaces :=
      s.surfaces.map fun x => if some x.id = surface then { x with toplevelId := id } else x
    wayland := some (.readSize id) }

def nameToplevel (s : Display) (id : Nat) (appId : Text) : Display :=
  s.modifyToplevel id fun t => { t with appId, home := isHomePackage (packageOfAppId appId) }

def setToplevelAppId (s : Display) (id : Nat) (appId : Text) : Display :=
  match s.toplevel id with
  | none => s
  | some t =>
    if t.appId = appId then s
    else { s.nameToplevel id appId with wayland := some (.readActive false) }

def noteToplevelSurface (s : Display) (id surface : Nat) : Display :=
  s.modifyToplevel id fun t => { t with surface := some surface }

def dropSurface (s : Display) (surface : Nat) : Display :=
  { s with
    surfaces := s.surfaces.filter fun x => x.id ≠ surface
    toplevels := s.toplevels.map fun t =>
      if t.surface = some surface then { t with surface := none, entered := false } else t }

def request (s : Display) : Request → Display
  | .createSurface client =>
    { s with surfaces := s.surfaces ++ [{ id := s.nextObject, client }], nextObject := s.nextObject + 1 }
  | .getSubsurface child parent =>
    match s.surface parent with
    | none => s
    | some p =>
      { s with surfaces := s.surfaces.map fun x =>
          if x.id = child then { x with toplevelId := p.toplevelId } else x }
  | .getToplevel surface => s.getToplevel (surface.filter fun x => (s.surface x).isSome)
  | .destroyToplevel id => { s with toplevels := s.toplevels.filter fun t => t.id ≠ id }
  | .setAppId id appId => s.setToplevelAppId id appId
  | .commit surface =>
    match s.surface surface with
    | none => s
    | some x => s.noteToplevelSurface x.toplevelId surface
  | .destroySurface surface => s.dropSurface surface
  | .bindOutput client =>
    { s with
      outputResources := s.outputResources ++ [{ id := s.nextObject, client }]
      nextObject := s.nextObject + 1 }
  | .releaseOutput id => { s with outputResources := s.outputResources.filter fun o => o.id ≠ id }

def attachWindow (s : Display) (package : Text) (size : Size) : Display :=
  if 0 < size.1 ∧ 0 < size.2 then
    { s with
      windows := s.windows ++ [{ id := s.nextWindowId, package }]
      nextWindowId := s.nextWindowId + 1
      outputSize := size
      calls := s.calls ++ [.attachWindow size (s.outputSize ≠ size)] }
  else s

def detachWindow (s : Display) (window : Nat) : Display :=
  if s.windows.any fun w => w.id = window then
    { s with
      windows := s.windows.filter fun w => w.id ≠ window
      calls := s.calls ++ [.erased window] }
  else s

def clearActive (s : Display) (window : Nat) : Display :=
  if s.activeWindow = window then { s with activeWindow := 0, activePackage := [] } else s

def setWindowActive (s : Display) (window : Nat) (active : Bool) : Display :=
  match s.windows.find? fun w => w.id = window with
  | none => s
  | some w =>
    let s := if active then
        { s with activeWindow := window, activePackage := if w.package = [] then star else w.package }
      else s.clearActive window
    { s with calls := s.calls ++ [.setWindowActive active] }

def Call.work : Call → Option Work
  | .attachWindow size resized => some (.attachWindow size resized)
  | .erased _ => none
  | .detachWindow window => some (.detachWindow window)
  | .setWindowActive active => some (.setWindowActive active)

/-- What the session lets through to the server. -/
def validPackageName (package : Text) : Bool :=
  package ≠ [] && package.length ≤ 255 && package.all fun c => c.isAlphanum || c = '.' || c = '_'

def step (s : Display) : Action → Option Display
  | .request r => if s.wayland = none then some (s.request r) else none
  | .runPosted =>
    match s.wayland, s.posted with
    | none, w :: ws => some ({ s with posted := ws }.work w)
    | _, _ => none
  | .proceed => s.wayland.map s.exec
  | .attachWindow package size =>
    if package = [] ∨ validPackageName package then some (s.attachWindow package size) else none
  | .detachWindow window => some (s.detachWindow window)
  | .clearActive i =>
    match s.calls[i]? with
    | some (.erased window) =>
      some { s.clearActive window with calls := s.calls.set i (.detachWindow window) }
    | _ => none
  | .setWindowActive window active => some (s.setWindowActive window active)
  | .post i =>
    match s.calls[i]?.bind Call.work with
    | some w => some { s with calls := s.calls.eraseIdx i, posted := s.posted ++ [w] }
    | none => none
  | .setOutputSurface ok => some { s with legacy := s.legacy || ok }
  | .clearOutputSurface overlay ok =>
    some { s with legacy := if overlay then s.legacy || ok else false }

def started (size : Size) (legacy : Bool) : Display := { outputSize := size, legacy }

structure Settled (s : Display) : Prop where
  calls : s.calls = []
  posted : s.posted = []
  wayland : s.wayland = none

def Newborn (s : Display) (id : Nat) : Prop :=
  s.wayland = some (.readSize id) ∨ ∃ size, s.wayland = some (.configureNew id size)

def lastConfigure (sent : List DisplayEvent) (id : Nat) : Option (Size × Bool) :=
  sent.findSome? fun
    | .configure i size activated => if i = id then some (size, activated) else none
    | .onOutput .. => none

inductive Requested (s : Display) : Request → Display → Prop
  | nothing (r : Request) : Requested s r s
  | createSurface (client : Nat) :
      Requested s (.createSurface client)
        { s with
          surfaces := s.surfaces ++ [{ id := s.nextObject, client }]
          nextObject := s.nextObject + 1 }
  | getSubsurface {child parent : Nat} {p : Surface} (hp : s.surface parent = some p) :
      Requested s (.getSubsurface child parent)
        { s with surfaces := s.surfaces.map fun x =>
            if x.id = child then { x with toplevelId := p.toplevelId } else x }
  | getToplevel {surface surface' : Option Nat} (hx : ∀ x, surface' = some x → (s.surface x).isSome)
    (hs : ∀ x, surface' = some x → surface = some x) : Requested s (.getToplevel surface)
      (s.getToplevel surface')
  | destroyToplevel (id : Nat) :
      Requested s (.destroyToplevel id)
      { s with toplevels := s.toplevels.filter fun t => t.id ≠ id }
  | setAppId {id : Nat} {appId : Text} {t : ToplevelRec} (ht : s.toplevel id = some t)
      (hne : t.appId ≠ appId) :
      Requested s (.setAppId id appId)
        { s.nameToplevel id appId with wayland := some (.readActive false) }
  | commit {surface : Nat} {x : Surface} (hx : s.surface surface = some x) :
      Requested s (.commit surface) (s.noteToplevelSurface x.toplevelId surface)
  | destroySurface (surface : Nat) : Requested s (.destroySurface surface) (s.dropSurface surface)
  | bindOutput (client : Nat) :
      Requested s (.bindOutput client)
        { s with
          outputResources := s.outputResources ++ [{ id := s.nextObject, client }]
          nextObject := s.nextObject + 1 }
  | releaseOutput (id : Nat) :
      Requested s (.releaseOutput id)
        { s with outputResources := s.outputResources.filter fun o => o.id ≠ id }

theorem request_requested (s : Display) (r : Request) : Requested s r (s.request r) := by
  cases r with
  | createSurface client => exact .createSurface client
  | getSubsurface child parent =>
    simp only [request]
    split
    case h_1 => exact .nothing _
    case h_2 p hp => exact .getSubsurface hp
  | getToplevel surface =>
    refine .getToplevel (fun x hx => ?_) (fun x hx => ?_)
    · exact (filter_eq_some_iff.mp hx).2
    · exact (filter_eq_some_iff.mp hx).1
  | destroyToplevel id => exact .destroyToplevel id
  | setAppId id appId =>
    simp only [request, setToplevelAppId]
    split
    case h_1 => exact .nothing _
    case h_2 t ht =>
      split_ifs with he
      · exact .nothing _
      · exact .setAppId ht he
  | commit surface =>
    simp only [request]
    split
    case h_1 => exact .nothing _
    case h_2 x hx => exact .commit hx
  | destroySurface surface => exact .destroySurface surface
  | bindOutput client => exact .bindOutput client
  | releaseOutput id => exact .releaseOutput id

inductive Steps (s : Display) : Action → Display → Prop
  | request {r : Request} {s' : Display} (hw : s.wayland = none) (hr : Requested s r s') :
      Steps s (.request r) s'
  | runPosted {w : Work} {ws : List Work} (hw : s.wayland = none) (hp : s.posted = w :: ws) :
      Steps s .runPosted ({ s with posted := ws }.work w)
  | proceed {i : Instr} (hw : s.wayland = some i) : Steps s .proceed (s.exec i)
  | attachWindow {package : Text} (size : Size) (hp : package = [] ∨ validPackageName package) :
      Steps s (.attachWindow package size) (s.attachWindow package size)
  | detachWindow (window : Nat) : Steps s (.detachWindow window) (s.detachWindow window)
  | clearActive {i window : Nat} (hi : s.calls[i]? = some (.erased window)) :
      Steps s (.clearActive i)
        { s.clearActive window with calls := s.calls.set i (.detachWindow window) }
  | setWindowActive (window : Nat) (active : Bool) :
      Steps s (.setWindowActive window active) (s.setWindowActive window active)
  | post {i : Nat} {c : Call} {w : Work} (hi : s.calls[i]? = some c) (hc : c.work = some w) :
      Steps s (.post i) { s with calls := s.calls.eraseIdx i, posted := s.posted ++ [w] }
  | setOutputSurface (ok : Bool) : Steps s
    (.setOutputSurface ok) { s with legacy := s.legacy || ok }
  | clearOutputSurface (overlay ok : Bool) :
      Steps s (.clearOutputSurface overlay ok)
        { s with legacy := if overlay then s.legacy || ok else false }

theorem step_steps {s s' : Display} {a : Action} (h : s.step a = some s') : Steps s a s' := by
  cases a with
  | request r =>
    obtain ⟨hw, rfl⟩ : s.wayland = none ∧ s.request r = s' := by simpa [step] using h
    exact .request hw (request_requested s r)
  | runPosted =>
    simp only [step] at h
    split at h
    case h_1 w ws hw hp => cases h; exact .runPosted hw hp
    case h_2 => cases h
  | proceed =>
    obtain ⟨i, hw, rfl⟩ := map_eq_some_iff.mp h
    exact .proceed hw
  | attachWindow package size =>
    obtain ⟨hp, ⟨⟩⟩ := ite_none_right_eq_some.mp h
    exact .attachWindow size hp
  | detachWindow window => cases h; exact .detachWindow window
  | clearActive i =>
    simp only [step] at h
    split at h
    case h_1 hi => cases h; exact .clearActive hi
    case h_2 => cases h
  | setWindowActive window active => cases h; exact .setWindowActive window active
  | post i =>
    simp only [step] at h
    split at h
    case h_1 w hw =>
      cases h
      obtain ⟨c, hi, hc⟩ := bind_eq_some_iff.mp hw
      exact .post hi hc
    case h_2 => cases h
  | setOutputSurface ok => cases h; exact .setOutputSurface ok
  | clearOutputSurface overlay ok => cases h; exact .clearOutputSurface overlay ok

end Display

end OniroSoc.Compositor

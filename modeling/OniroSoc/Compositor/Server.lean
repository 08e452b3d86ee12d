import Mathlib.Tactic

/-!
# The compositor's server

The state of `Server` in `wl_server.cpp` and the functions on it, each one critical section.
Wayland objects are numbers that are never used twice; the legacy output is number 0.
`Output.queue` lists the buffers flushed into its queue since the queue was last reset, detached or
replaced.
-/

namespace OniroSoc.Compositor

abbrev Text := List Char

structure Toplevel where
  id : Nat
  appId : Text := []
  surface : Option Nat := none
  home : Bool := false
deriving DecidableEq

structure Window where
  id : Nat
  package : Text
  toplevelId : Nat := 0
deriving DecidableEq

structure Output where
  attached : Bool := false
  queue : List Nat := []

structure Surface where
  (id client : Nat)
  toplevelId : Nat := 0
deriving DecidableEq

structure Resource where
  (id client : Nat)
deriving DecidableEq

inductive TouchKind where
  | down
  | up
  | motion
  | frame
  | cancel
deriving DecidableEq

structure TouchOp where
  kind : TouchKind
  (id x y : Int := 0)
deriving DecidableEq

inductive Task where
  | detach (window : Nat)
  | touch (window : Nat) (action id x y : Int)
  | key (window : Nat) (code : Int) (down : Bool)
deriving DecidableEq

def Task.isInput : Task → Bool
  | .detach _ => false
  | _ => true

structure Entry where
  (buffer window : Nat)
deriving DecidableEq

structure InFlight where
  entries : List Entry
  nodup : (entries.map Entry.buffer).Nodup

structure Server where
  surfaces : List Surface
  toplevels : List Toplevel
  nextToplevelId : Nat
  windows : List Window
  nextWindowId : Nat
  outputs : Nat → Output
  inFlight : InFlight
  (releasedPending watchedBuffers : List Nat)
  (inputSurface keyboardFocus : Option Nat)
  touchPending : List TouchOp
  (touchResources keyboardResources : List Resource)
  posted : List Task

namespace InFlight

def empty : InFlight := ⟨[], List.nodup_nil⟩

theorem nodup_filter (m : InFlight) (p : Entry → Bool) :
    ((m.entries.filter p).map Entry.buffer).Nodup :=
  m.nodup.sublist (List.filter_sublist.map _)

def keep (m : InFlight) (p : Entry → Bool) : InFlight := ⟨m.entries.filter p, m.nodup_filter p⟩

def erase (m : InFlight) (b : Nat) : InFlight := m.keep fun e => e.buffer ≠ b

def insert (m : InFlight) (b w : Nat) : InFlight where
  entries := ⟨b, w⟩ :: (m.erase b).entries
  nodup := by
    refine List.nodup_cons.mpr ⟨?_, (m.erase b).nodup⟩
    simp [erase, keep]

def contains (m : InFlight) (b : Nat) : Bool := m.entries.any fun e => e.buffer = b

end InFlight

namespace Server

def trackInFlight (s : Server) (b w : Nat) : Server :=
  { s with inFlight := s.inFlight.insert b w }

def untrackInFlight (s : Server) (b : Nat) : Server :=
  { s with inFlight := s.inFlight.erase b }

def releaseInFlightOf (s : Server) (w : Nat) : List Nat × Server :=
  ((s.inFlight.entries.filter fun e => e.window = w).map Entry.buffer,
    { s with inFlight := s.inFlight.keep fun e => e.window ≠ w })

def onBufferReleased (s : Server) (b : Nat) : Server :=
  if s.inFlight.contains b then
    { s with releasedPending := s.releasedPending ++ [b], inFlight := s.inFlight.erase b }
  else s

def drainReleases (s : Server) : List Nat × Server :=
  (s.releasedPending, { s with releasedPending := [] })

def watchBufferDestroy (s : Server) (b : Nat) : Server :=
  { s with watchedBuffers := if b ∈ s.watchedBuffers then s.watchedBuffers else b :: s.watchedBuffers }

def forgetBuffer (s : Server) (b : Nat) : Server :=
  { s with
    watchedBuffers := s.watchedBuffers.filter (· ≠ b)
    inFlight := s.inFlight.erase b
    releasedPending := s.releasedPending.filter (· ≠ b) }

def setOutput (s : Server) (w : Nat) (o : Output) : Server :=
  { s with outputs := Function.update s.outputs w o }

def resetQueue (s : Server) (w : Nat) : Server :=
  if (s.outputs w).attached then s.setOutput w ⟨true, []⟩ else s

def detachOutput (s : Server) (w : Nat) : Server := s.setOutput w ⟨false, []⟩

def attachOutput (s : Server) (w : Nat) : Server := s.setOutput w ⟨true, []⟩

def flush (s : Server) (b w : Nat) : Server :=
  s.setOutput w { s.outputs w with queue := (s.outputs w).queue ++ [b] }

def kAppIdPrefix : Text := "waydroid.".toList

def packageOfAppId (appId : Text) : Text :=
  if kAppIdPrefix.isPrefixOf appId then appId.drop kAppIdPrefix.length else []

def isHomePackage (package : Text) : Bool :=
  package = "org.lineageos.setupwizard".toList || package = "com.android.launcher3".toList

def toplevel (s : Server) (id : Nat) : Option Toplevel := s.toplevels.find? fun t => t.id = id

def window (s : Server) (id : Nat) : Option Window := s.windows.find? fun w => w.id = id

def modifyToplevel (s : Server) (id : Nat) (f : Toplevel → Toplevel) : Server :=
  { s with toplevels := s.toplevels.map fun t => if t.id = id then f t else t }

def addToplevel (s : Server) (surface : Option Nat) : Server :=
  let id := s.nextToplevelId
  { s with
    nextToplevelId := id + 1
    toplevels := s.toplevels ++ [{ id, surface }]
    surfaces :=
      s.surfaces.map fun x => if some x.id = surface then { x with toplevelId := id } else x }

def removeToplevel (s : Server) (id : Nat) : Server :=
  { s with toplevels := s.toplevels.filter fun t => t.id ≠ id }

def setToplevelAppId (s : Server) (id : Nat) (appId : Text) : Server :=
  s.modifyToplevel id fun t => { t with appId, home := isHomePackage (packageOfAppId appId) }

def noteToplevelSurface (s : Server) (id surface : Nat) : Server :=
  s.modifyToplevel id fun t => { t with surface := some surface }

def attachWindow (s : Server) (package : Text) : Server :=
  { s.attachOutput s.nextWindowId with
    nextWindowId := s.nextWindowId + 1
    windows := s.windows ++ [{ id := s.nextWindowId, package }] }

def post (s : Server) (t : Task) : Server := { s with posted := s.posted ++ [t] }

def detachWindow (s : Server) (id : Nat) : Option Server :=
  if (s.window id).isSome then
    some ({ s with windows := s.windows.filter fun w => w.id ≠ id }.post (.detach id))
  else none

/-- The outputs a frame of this package can go to.  `windows_` is walked in no particular order: any
window of the package comes before any window of no package, and both before the legacy output. -/
def outputsOf (s : Server) (package : Text) : List (Option Nat) :=
  let own := s.windows.filter fun w => package ≠ [] ∧ w.package = package
  let any := s.windows.filter fun w => w.package = []
  if own ≠ [] then own.map fun w => some w.id
  else if any ≠ [] then any.map fun w => some w.id
  else if (s.outputs 0).attached then [some 0]
  else [none]

def outputFor (s : Server) (toplevelId : Nat) : List (Option Nat) :=
  match s.toplevel toplevelId with
  | some t => if t.home then [none] else s.outputsOf (packageOfAppId t.appId)
  | none => s.outputsOf []

def showOn (s : Server) (output : Option Nat) (toplevelId : Nat) : Server :=
  { s with windows := s.windows.map fun w => if some w.id = output then { w with toplevelId } else w }

inductive InputKind where
  | touch (op : TouchOp)
  | leave
  | enter
  | modifiers
  | key (code : Int) (down : Bool)
deriving DecidableEq

/-- An event sent on a client's touch or keyboard, and the surface it is for.  Of the touch events
only `down` names the surface on the wire; the others go out for the input surface all the same. -/
structure InputEvent where
  resource : Resource
  surface : Nat
  kind : InputKind
deriving DecidableEq

def noteInputSurface (s : Server) (surface : Nat) : Server :=
  { s with inputSurface := some surface }

def dropInputSurface (s : Server) (surface : Nat) : Server :=
  { s with
    inputSurface := if s.inputSurface = some surface then none else s.inputSurface
    keyboardFocus := if s.keyboardFocus = some surface then none else s.keyboardFocus
    toplevels := s.toplevels.map fun t =>
      if t.surface = some surface then { t with surface := none } else t }

def clientOf (s : Server) (surface : Nat) : Option Nat :=
  (s.surfaces.find? fun x => x.id = surface).map Surface.client

def ofClient (rs : List Resource) (client : Option Nat) : List Resource :=
  rs.filter fun r => some r.client = client

def injectTouchOps (s : Server) (ops : List TouchOp) : Server :=
  { s with touchPending := s.touchPending ++ ops }

/-- The ops of an OHOS pointer action: cancel, down, move and up are 1 to 4. -/
def touchOps (action id x y : Int) : List TouchOp :=
  let run (kind : TouchKind) : List TouchOp := [{ kind, id, x, y }, { kind := .frame }]
  if action = 2 then run .down
  else if action = 3 then run .motion
  else if action = 4 then run .up
  else if action = 1 then run .cancel
  else []

def injectTouchFromAction (s : Server) (action id x y : Int) : Server :=
  s.injectTouchOps (touchOps action id x y)

def drainTouchOps (s : Server) : Server × List InputEvent :=
  ({ s with touchPending := [] },
    match s.inputSurface with
    | none => []
    | some surface => s.touchPending.flatMap fun op =>
      (ofClient s.touchResources (s.clientOf surface)).map fun r => ⟨r, surface, .touch op⟩)

def windowTouch (s : Server) (window : Nat) (action id x y : Int) : Server × List InputEvent :=
  match s.window window with
  | none => (s, [])
  | some w =>
    let s := match (s.toplevel w.toplevelId).bind Toplevel.surface with
      | some surface => { s with inputSurface := some surface }
      | none => s
    (s.injectTouchFromAction action id x y).drainTouchOps

def sendKeyboardFocus (s : Server) (surface : Nat) : Server × List InputEvent :=
  if s.keyboardFocus = some surface then (s, [])
  else
    ({ s with keyboardFocus := some surface },
      (ofClient s.keyboardResources (s.clientOf surface)).flatMap fun r =>
        (match s.keyboardFocus with | some old => [⟨r, old, .leave⟩] | none => []) ++
          [⟨r, surface, .enter⟩, ⟨r, surface, .modifiers⟩])

def keySurface (s : Server) (w : Window) : Option Nat :=
  match (s.toplevel w.toplevelId).bind Toplevel.surface with
  | some surface => some surface
  | none => s.inputSurface

def windowKey (s : Server) (window : Nat) (code : Int) (down : Bool) : Server × List InputEvent :=
  match s.window window with
  | none => (s, [])
  | some w =>
    match s.keySurface w with
    | none => (s, [])
    | some surface =>
      if s.keyboardResources = [] then (s, [])
      else
        let (s₁, focus) := s.sendKeyboardFocus surface
        (s₁, focus ++ (ofClient s.keyboardResources (s.clientOf surface)).map fun r =>
          ⟨r, surface, .key code down⟩)

end Server

end OniroSoc.Compositor

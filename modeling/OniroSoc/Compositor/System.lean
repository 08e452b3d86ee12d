import OniroSoc.Support.Runs
import OniroSoc.Compositor.Server

/-!
# The compositor's threads

An operation that takes the in-flight lock more than once is a list of instructions, one for each
critical section or call on an output.  Counted on the side: the commits, releases and open flushes
of each buffer.  A client commits a buffer again only after it was released.
-/

namespace OniroSoc.Compositor

inductive Instr where
  | trackInFlight (b w : Nat)
  | flush (b w : Nat) (orElse : List Instr)
  | untrackInFlight (b : Nat)
  | resetQueue (w : Nat)
  | releaseInFlightOf (w : Nat)
  | sendReleases (bs : List Nat)
  | forgetBuffer (b : Nat)
  | resetWindows
  | detachOutput (w : Nat)

inductive Outcome where
  | ok
  | failed
  | order (windows : List Nat)

def flushAgain (b w : Nat) : Instr :=
  .flush b w [.untrackInFlight b, .sendReleases [b]]

def retryFrame (b w : Nat) : List Instr :=
  [.untrackInFlight b, .resetQueue w, .releaseInFlightOf w, .trackInFlight b w, flushAgain b w]

def commitFrame (b w : Nat) : List Instr := [.trackInFlight b w, .flush b w (retryFrame b w)]

def forget (b : Nat) : List Instr := [.forgetBuffer b, .resetQueue 0, .resetWindows]

def detachAndRelease (w : Nat) : List Instr := [.detachOutput w, .releaseInFlightOf w]

structure System where
  server : Server
  wayland : List Instr
  ipc : List (List Instr)
  (commits releases callbacks : Nat → Nat)
  destroyed : List Nat
  sent : List Server.InputEvent

namespace System

def release (s : System) (bs : List Nat) : System :=
  { s with releases := fun b => s.releases b + bs.count b }

def exec (s : System) (i : Instr) (o : Outcome) (rest : List Instr) : Option
    (System × List Instr) :=
  match i, o with
  | .trackInFlight b w, .ok => some ({ s with server := s.server.trackInFlight b w }, rest)
  | .flush b w _, .ok =>
    if (s.server.outputs w).attached then some ({ s with
        server := s.server.flush b w
        callbacks := Function.update s.callbacks b (s.callbacks b + 1) }, rest)
    else none
  | .flush _ _ orElse, .failed => some (s, orElse ++ rest)
  | .untrackInFlight b, .ok => some ({ s with server := s.server.untrackInFlight b }, rest)
  | .resetQueue w, .ok => some ({ s with server := s.server.resetQueue w }, rest)
  | .releaseInFlightOf w, .ok =>
    some ({ s with server := (s.server.releaseInFlightOf w).2 },
      .sendReleases (s.server.releaseInFlightOf w).1 :: rest)
  | .sendReleases bs, .ok => some (s.release bs, rest)
  | .forgetBuffer b, .ok => some ({ s with server := s.server.forgetBuffer b }, rest)
  | .resetWindows, .order ws =>
    if ws.Perm (s.server.windows.map Window.id) then some (s, ws.map .resetQueue ++ rest) else none
  | .detachOutput w, .ok => some ({ s with server := s.server.detachOutput w }, rest)
  | _, _ => none

inductive Request where
  | createSurface (x : Surface)
  | destroySurface (id : Nat)
  | getSubsurface (child parent : Nat)
  | getToplevel (surface : Option Nat)
  | destroyToplevel (id : Nat)
  | setAppId (id : Nat) (appId : Text)
  | bindTouch (r : Resource)
  | releaseTouch (id : Nat)
  | bindKeyboard (r : Resource)
  | releaseKeyboard (id : Nat)

def request (s : Server) : Request → Server
  | .createSurface x => { s with surfaces := x :: s.surfaces }
  | .destroySurface id =>
    { s.dropInputSurface id with surfaces := s.surfaces.filter fun x => x.id ≠ id }
  | .getSubsurface child parent =>
    { s with surfaces := s.surfaces.map fun x =>
      if x.id = child then
        match s.surfaces.find? (fun p => p.id = parent) with
        | some p => { x with toplevelId := p.toplevelId }
        | none => x
      else x }
  | .getToplevel surface => s.addToplevel surface
  | .destroyToplevel id => s.removeToplevel id
  | .setAppId id appId => s.setToplevelAppId id appId
  | .bindTouch r => { s with touchResources := s.touchResources ++ [r] }
  | .releaseTouch id => { s with touchResources := s.touchResources.filter fun r => r.id ≠ id }
  | .bindKeyboard r => { s with keyboardResources := s.keyboardResources ++ [r] }
  | .releaseKeyboard id =>
    { s with keyboardResources := s.keyboardResources.filter fun r => r.id ≠ id }

inductive Action where
  | wayland (o : Outcome)
  | ipc (k : Nat) (o : Outcome)
  | commit (surface b : Nat) (output : Option Nat) (imported : Bool)
  | commitShm (b : Nat)
  | drainReleases
  | destroyBuffer (b : Nat)
  | runPosted
  | drainTouchOps
  | request (r : Request)
  | injectTouchOps (ops : List TouchOp)
  | windowInput (t : Task)
  | bufferReleased (b : Nat)
  | attachWindow (package : Text)
  | detachWindow (id : Nat)
  | attachLegacy
  | clearOutputSurface

def noteFrame (s : Server) (x : Surface) (output : Option Nat) : Server :=
  ((s.noteInputSurface x.id).noteToplevelSurface x.toplevelId x.id).showOn output x.toplevelId

def commit (s : System) (x : Surface) (b : Nat) (output : Option Nat) (imported : Bool) : System :=
  let s := { s with
    server := noteFrame s.server x output
    commits := Function.update s.commits b (s.commits b + 1) }
  match output with
  | none => s.release [b]
  | some w =>
    let s := { s with server := s.server.watchBufferDestroy b }
    if imported then { s with wayland := commitFrame b w } else s.release [b]

def runTask (s : System) : Task → System
  | .detach w => { s with wayland := detachAndRelease w }
  | .touch window action id x y =>
    let (server, events) := s.server.windowTouch window action id x y
    { s with server, sent := s.sent ++ events }
  | .key window code down =>
    let (server, events) := s.server.windowKey window code down
    { s with server, sent := s.sent ++ events }

def mayCommit (s : System) (b : Nat) : Prop := b ∉ s.destroyed ∧ s.commits b ≤ s.releases b

instance (s : System) (b : Nat) : Decidable (s.mayCommit b) := inferInstanceAs (Decidable (_ ∧ _))

def step (s : System) : Action → Option System
  | .wayland o =>
    match s.wayland with
    | [] => none
    | i :: rest => (s.exec i o rest).map fun (s', todo) => { s' with wayland := todo }
  | .ipc k o =>
    match s.ipc[k]? with
    | some (i :: rest) =>
      (s.exec i o rest).map fun (s', todo) => { s' with ipc := s'.ipc.set k todo }
    | _ => none
  | .commit surface b output imported =>
    match s.wayland, s.server.surfaces.find? (fun x => x.id = surface) with
    | [], some x =>
      if s.mayCommit b ∧ output ∈ s.server.outputFor x.toplevelId then some (s.commit x b output imported)
      else none
    | _, _ => none
  | .commitShm b =>
    if s.wayland.isEmpty ∧ s.mayCommit b then
      some ({ s with commits := Function.update s.commits b (s.commits b + 1) }.release [b])
    else none
  | .drainReleases =>
    if s.wayland.isEmpty then some { s with
        server := s.server.drainReleases.2, wayland := [.sendReleases s.server.drainReleases.1] }
    else none
  | .destroyBuffer b =>
    if s.wayland.isEmpty ∧ b ∉ s.destroyed then some { s with
        destroyed := b :: s.destroyed
        wayland := if b ∈ s.server.watchedBuffers then forget b else [] }
    else none
  | .runPosted =>
    match s.wayland, s.server.posted with
    | [], t :: ts => some ({ s with server := { s.server with posted := ts } }.runTask t)
    | _, _ => none
  | .drainTouchOps =>
    if s.wayland.isEmpty then
      some { s with server := s.server.drainTouchOps.1, sent := s.sent ++ s.server.drainTouchOps.2 }
    else none
  | .request r =>
    if s.wayland.isEmpty then some { s with server := request s.server r } else none
  | .injectTouchOps ops => some { s with server := s.server.injectTouchOps ops }
  | .windowInput t => if t.isInput then some { s with server := s.server.post t } else none
  | .bufferReleased b =>
    if 0 < s.callbacks b then some { s with
        server := s.server.onBufferReleased b
        callbacks := Function.update s.callbacks b (s.callbacks b - 1) }
    else none
  | .attachWindow package => some { s with server := s.server.attachWindow package }
  | .detachWindow id => (s.server.detachWindow id).map fun server => { s with server }
  | .attachLegacy => some { s with server := s.server.attachOutput 0 }
  | .clearOutputSurface => some { s with ipc := s.ipc ++ [detachAndRelease 0] }

end System

end OniroSoc.Compositor

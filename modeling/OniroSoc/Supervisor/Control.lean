import OniroSoc.Supervisor.Script

/-!
# Waydroid supervisor — the app's changes

`Control.apply` reads the control file, corrects it by what the supervisor last reported, puts the
change over it under a new `seq`, and writes it through a temporary file.  The app may be killed in
between.  The supervisor reads the file whenever it calls `apply_control`, without any locking.
-/

namespace OniroSoc.Supervisor

structure Change where
  run : Option Run := none
  (enabled autostart : Option Bool := none)
  idleStop : Option Nat := none
deriving DecidableEq, Repr

structure Store where
  appliedSeq : Nat := 0
  (enabled autostart : Option Bool := none)
  idle : Option Nat := none
  sentSeq : Nat := 0
deriving DecidableEq, Repr

namespace Store

def onStatus (st : Store) (r : Report) : Store :=
  if 0 < st.sentSeq ∧ r.seq < st.sentSeq then st
  else { st with appliedSeq := r.seq, enabled := some r.enabled, autostart := some r.autostart,
                 idle := some r.idle }

def current (st : Store) (file : Option (List Char)) : Settings :=
  let s := Control.read file
  { s with seq := max s.seq st.appliedSeq, enabled := st.enabled.or s.enabled,
           autostart := st.autostart.or s.autostart, idleStop := st.idle.or s.idleStop }

def asked (st : Store) (c : Change) (seq : Nat) : Store :=
  { st with sentSeq := seq, enabled := c.enabled.or st.enabled, autostart := c.autostart.or st.autostart,
            idle := c.idleStop.or st.idle }

end Store

def Change.onto (c : Change) (s : Settings) : Settings :=
  { seq := s.seq + 1, run := c.run.getD s.run, enabled := c.enabled.or s.enabled,
    autostart := c.autostart.or s.autostart, idleStop := c.idleStop.or s.idleStop }

inductive Stage where
  | composed
  | written
  | unlinked
  | renamed
deriving DecidableEq, Repr

structure Pending where
  change : Change
  settings : Settings
  stage : Stage := .composed
deriving DecidableEq, Repr

structure App where
  store : Store := {}
  pending : Option Pending := none
deriving DecidableEq, Repr

structure Written where
  id : Nat
  change : Change
  settings : Settings
deriving DecidableEq, Repr

structure History where
  count : Nat := 0
  (last file held : Option Written := none)
  fresh : Bool := false
  seen : Bool := false
  applied : List Nat := []
  skipped : List Nat := []
  (monitored restarted : List Written := [])
  switchedOff : Option Written := none
  disabled : List (Option Written) := []
deriving DecidableEq, Repr

namespace History

def reads (h : History) (same : Bool) : History :=
  let h := { h with held := h.file, fresh := true }
  if same then
    { h with seen := true,
             skipped := h.skipped ++ (h.file.toList.map (·.id)).filter (· ∉ h.applied) }
  else h

def switches (h : History) (off : Bool) : History :=
  { h with switchedOff := if off then h.held else h.switchedOff }

def applies (h : History) (monitor ended : Bool) : History :=
  { h with applied := h.applied ++ h.held.toList.map (·.id), seen := h.seen || h.fresh,
           monitored := if monitor then h.monitored ++ h.held.toList else h.monitored,
           restarted := if monitor && ended then h.restarted ++ h.held.toList else h.restarted }

def disables (h : History) (ended : Bool) : History :=
  { h with disabled := if ended then h.disabled ++ [h.switchedOff] else h.disabled }

def observe (h : History) (sh : Shell) (w : World) (next : Option Shell) : History :=
  let ended := next.any fun sh' => sh'.point == .readControl .outer
  match sh.point with
  | .readControl _ => h.reads ((readControl w.control).seq == w.appliedSeq)
  | .assign .enabled _ => h.switches (w.enabled && sh.ctl.enabled == some false)
  | .assign .seq site => h.applies (site == .monitor) ended
  | .monitorEnabled => h.disables ended
  | _ => h

def completes (h : History) (c : Change) (s : Settings) : History :=
  let f : Written := ⟨h.count, c, s⟩
  { h with count := h.count + 1, last := some f, file := some f, fresh := false, seen := false }

end History

structure System where
  script : State
  app : App := {}
  hist : History := {}
deriving DecidableEq, Repr

inductive AppAction where
  | apply (c : Change)
  | write
  | unlink
  | rename
  | fail
  | finish
  | deliver (i : Nat)
  | kill
  | clear
deriving DecidableEq, Repr

inductive Event where
  | app (a : AppAction)
  | script (a : Action)
deriving DecidableEq, Repr

def State.setControl (s : State) (text : Option (List Char)) : State :=
  { s with world := { s.world with control := text } }

namespace System

def appStep (s : System) : AppAction → Option System
  | .apply c =>
    if s.app.pending.isSome then none
    else
      let settings := c.onto (s.app.store.current s.script.world.control)
      some { s with app := { s.app with pending := some ⟨c, settings, .composed⟩ } }
  | .write =>
    s.app.pending.bind fun p =>
      if p.stage = .composed then
        some { s with app := { s.app with pending := some { p with stage := .written } } }
      else none
  | .unlink =>
    s.app.pending.bind fun p =>
      if p.stage = .written then
        some { script := s.script.setControl none,
               app := { s.app with pending := some { p with stage := .unlinked } },
               hist := { s.hist with file := none } }
      else none
  | .rename =>
    s.app.pending.bind fun p =>
      if p.stage = .unlinked then
        some { script := s.script.setControl (some p.settings.text),
               app := { s.app with pending := some { p with stage := .renamed } },
               hist := s.hist.completes p.change p.settings }
      else none
  | .fail =>
    s.app.pending.bind fun p =>
      if p.stage = .renamed then none
      else some { s with app := { s.app with pending := some { p with stage := .renamed } } }
  | .finish =>
    s.app.pending.bind fun p =>
      if p.stage = .renamed then some { s with app := ⟨s.app.store.asked p.change p.settings.seq, none⟩ }
      else none
  | .deliver i =>
    s.script.world.reports[i]?.map fun r =>
      { s with app := { s.app with store := s.app.store.onStatus r } }
  | .kill => some { s with app := {} }
  | .clear =>
    some { script := { s.script with world := { s.script.world with control := none, appImages := none } },
           hist := { s.hist with file := none } }

def scriptStep (s : System) (a : Action) : Option System :=
  (Supervisor.step s.script a).map fun script =>
    match a with
    | .exec _ =>
      { s with script, hist := (s.script.shell.map fun sh =>
          s.hist.observe sh s.script.world script.shell).getD s.hist }
    | .reboot => { s with script, app := {} }
    | _ => { s with script }

def step (s : System) : Event → Option System
  | .app a => s.appStep a
  | .script (.outside o) => if o.settings then none else s.scriptStep (.outside o)
  | .script a => s.scriptStep a

end System

structure Params where
  control : Option (List Char)
  (enabled autostart : Bool)
  idleStop : Option Nat
  appliedSeq : Nat

def World.params (w : World) : Params :=
  ⟨w.control, w.enabled, w.autostart, w.idleStop, w.appliedSeq⟩

structure Change.Holds (c : Change) (p : Params) : Prop where
  enabled : ∀ b, c.enabled = some b → p.enabled = b
  autostart : ∀ b, c.autostart = some b → p.autostart = b
  idleStop : ∀ n, c.idleStop = some n → p.idleStop = some n

structure AppliedOnce (s : System) : Prop where
  /-- Once `apply_control` has run after it, the last completed change holds. -/
  values : s.hist.seen = true → ∀ f ∈ s.hist.last, f.change.Holds s.script.world.params
  /-- A Restart ends a generation at most once, and nothing else ends one as a Restart does. -/
  once : (s.hist.restarted.map (·.id)).Nodup
  asked : ∀ f ∈ s.hist.restarted, f.change.run = some .restart
  /-- A Restart that is applied while a generation runs does end it. -/
  ends : ∀ f ∈ s.hist.monitored, f.change.run = some .restart → f ∈ s.hist.restarted
  /-- A generation that ends because Waydroid is off was switched off by a change that asked for
  it. -/
  disabled : ∀ o ∈ s.hist.disabled, ∃ f, o = some f ∧ f.change.enabled = some false
  skipped : s.hist.skipped = []

end OniroSoc.Supervisor

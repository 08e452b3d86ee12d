import OniroSoc.Support.Runs
import OniroSoc.Supervisor.ControlFile

/-!
# Waydroid supervisor — the script

Each command of `waydroid-supervisor.sh` is a step, so the supervisor may be killed between any two
of them and be started again.  A `STATUS` carries what the app uses of it to write the next change.
-/

namespace OniroSoc.Supervisor

open Support

/-- What a process runs. -/
inductive Prog where
  | compositor
  | audio
  | waydroidd (child : Option Nat)
  /-- With the `waydroidd` that cloned it, as long as that lives, and whether it has asked to end
  with it. -/
  | container (parent : Option Nat) (armed : Bool)
  | other
deriving DecidableEq, Repr

inductive Kind where
  | compositor
  | audio
  | waydroidd
  | container
  | other
deriving DecidableEq, Repr

def Prog.kind : Prog → Kind
  | .compositor => .compositor
  | .audio => .audio
  | .waydroidd _ => .waydroidd
  | .container _ _ => .container
  | .other => .other

structure Proc where
  pid : Nat
  prog : Prog
deriving DecidableEq, Repr

/-- The directories images are looked for in: `$WD/images` and `$APP_IMAGES`. -/
inductive Dir where
  | data
  | app
deriving DecidableEq, Repr

/-- `seq=`, `en=`, `as=` and `idle=` of a `STATUS`. -/
structure Report where
  seq : Nat
  (enabled autostart : Bool)
  idle : Nat
deriving DecidableEq, Repr

/-- Files, parameters, processes, and the reports made so far. -/
structure World where
  control : Option (List Char) := none
  containerPid : Option Nat := none
  (socket pulse : Bool := false)
  (dataImages appImages : Option Nat := none)
  (enabled autostart : Bool := false)
  idleStop : Option Nat := none
  controlSeq : Option Nat := none
  (frames visible grab : Bool := false)
  procs : List Proc := []
  reports : List Report := []
deriving DecidableEq, Repr

namespace World

def alive (w : World) (pid : Nat) : Bool := w.procs.any (·.pid == pid)

def Has (w : World) (k : Kind) : Prop := ∃ p ∈ w.procs, p.prog.kind = k

/-- What becomes of a process when others are killed. -/
def survives (w : World) (dead : Proc → Bool) (p : Proc) : Option Proc :=
  if dead p then none
  else
    match p.prog with
    | .container (some parent) armed =>
      if w.procs.any fun q => q.pid == parent && dead q then
        if armed then none else some { p with prog := .container none false }
      else some p
    | _ => some p

def kill (w : World) (dead : Proc → Bool) : World :=
  { w with procs := w.procs.filterMap (w.survives dead) }

def images (w : World) : Dir → Option Nat
  | .data => w.dataImages
  | .app => w.appImages

def idleLimit (w : World) : Nat := w.idleStop.getD 1800

def appliedSeq (w : World) : Nat := w.controlSeq.getD 0

/-- `pick_images`: the first directory with a pair that is not known to be bad. -/
def pickImages (w : World) (bad : List (Option Nat)) : Option Dir :=
  [Dir.data, .app].find? fun d => (w.images d).isSome && !bad.contains (w.images d)

end World

/-- What happens without the script. -/
inductive Outside where
  | exit (pid : Nat)
  | spawn (pid : Nat)
  | clone (pid container : Nat)
  | arm (container : Nat)
  | publish (pid : Nat)
  | listen (pid : Nat)
  | firstFrame (pid : Nat)
  | setVisible (pid : Nat) (b : Bool)
  | setGrab (pid : Nat) (b : Bool)
  | openPulse (pid : Nat)
  | setImages (d : Dir) (sig : Option Nat)
  | setParams (enabled autostart : Bool) (idleStop : Option Nat)
  | setControl (text : Option (List Char))
deriving DecidableEq, Repr

def Outside.settings : Outside → Bool
  | .setParams .. | .setControl _ => true
  | _ => false

def Proc.cloned (pid container : Nat) (p : Proc) : Proc :=
  if p = ⟨pid, .waydroidd none⟩ then ⟨pid, .waydroidd (some container)⟩ else p

/-- `prctl(PR_SET_PDEATHSIG)` in the container. -/
def Proc.arm (container : Nat) (p : Proc) : Proc :=
  match p.prog with
  | .container (some parent) _ =>
    if p.pid = container then ⟨p.pid, .container (some parent) true⟩ else p
  | _ => p

namespace World

def act (w : World) : Outside → Option World
  | .exit pid => if w.alive pid then some (w.kill (·.pid == pid)) else none
  | .spawn pid => if w.alive pid then none else some { w with procs := w.procs ++ [⟨pid, .other⟩] }
  | .clone pid container =>
    if ⟨pid, .waydroidd none⟩ ∈ w.procs ∧ ¬ w.alive container then
      some { w with procs := w.procs.map (Proc.cloned pid container) ++
                      [⟨container, .container (some pid) false⟩] }
    else none
  | .arm container => some { w with procs := w.procs.map (Proc.arm container) }
  | .publish pid =>
    (w.procs.findSome? fun p => if p.pid = pid then
        match p.prog with
        | .waydroidd child => child
        | _ => none
      else none).map fun container => { w with containerPid := some container }
  | .listen pid => if ⟨pid, .compositor⟩ ∈ w.procs then some { w with socket := true } else none
  | .firstFrame pid => if ⟨pid, .compositor⟩ ∈ w.procs then some { w with frames := true } else none
  | .setVisible pid b => if ⟨pid, .compositor⟩ ∈ w.procs then some { w with visible := b } else none
  | .setGrab pid b => if ⟨pid, .compositor⟩ ∈ w.procs then some { w with grab := b } else none
  | .openPulse pid => if ⟨pid, .audio⟩ ∈ w.procs then some { w with pulse := true } else none
  | .setImages .data sig => some { w with dataImages := sig }
  | .setImages .app sig => some { w with appImages := sig }
  | .setParams enabled autostart idleStop => some { w with enabled, autostart, idleStop }
  | .setControl text => some { w with control := text }

/-- Processes and runtime parameters are gone, files and `persist` parameters stay. -/
def reboot (w : World) : World :=
  { w with controlSeq := none, frames := false, visible := false, grab := false, procs := [],
           reports := [] }

end World

/-- Where `apply_control` is called. -/
inductive Site where
  | start
  | retry
  | outer
  | monitor
deriving DecidableEq, Repr

/-- The parameters `apply_control` sets, in their order. -/
inductive Assign where
  | enabled
  | autostart
  | idle
  | seq
deriving DecidableEq, Repr

/-- The commands of `teardown`, in their order. -/
inductive Sweep where
  | readPid
  | killContainer
  | killWaydroidd
  | killCompositor
  | killAudio
  | clearFrames
  | clearVisible
  | clearGrab
  | removeSocket
  | removePid
deriving DecidableEq, Repr

/-- What follows `teardown`. -/
inductive Leave where
  | rebuild
  | standDown
deriving DecidableEq, Repr

/-- The command that comes next. -/
inductive Point where
  | readControl (site : Site)
  | assign (a : Assign) (site : Site)
  -- the gate
  | gateLoop
  | gateEnabled
  | gateRun
  | gatePolicy
  -- the outer loop
  | outerEnabled
  | outerRun
  | pickImages
  | waited
  | verify
  | sweep (c : Sweep) (leave : Leave)
  | prepareGraft
  -- `start_generation`
  | startCompositor
  | awaitSocket (i : Nat)
  | startAudio
  | awaitPulse (j : Nat)
  | startWaydroidd
  -- waiting for the container, and the monitor loop
  | awaitPid (j : Nat)
  | readPid
  | monitorAlive
  | monitorRun
  | monitorEnabled
  | monitorImages
  | monitorFrame
  | monitorIdle
  | askStop
  | asked
deriving DecidableEq, Repr

/-- The variables of a run. -/
structure Shell where
  point : Point := .readControl .start
  demand : Bool
  ctl : Settings := {}
  (curEnabled curAutostart : Bool := false)
  idleLimit : Nat := 1800
  (n waited : Nat := 0)
  bad : List (Option Nat) := []
  dir : Option Dir := none
  (compositor audio : Nat := 0)
  container : Option Nat := none
  (booting idle : Nat := 0)
  framed : Bool := false
  beat : Nat := 0
deriving DecidableEq, Repr

/-- The exit status of `waydroidd verify`: 0, 4 or another. -/
inductive Verdict where
  | ok
  | vanished
  | rejected
deriving DecidableEq, Repr

/-- What a command finds outside. -/
structure Answer where
  pid : Nat := 0
  verdict : Verdict := .ok
  graft : Bool := true
  frozen : Bool := false
deriving DecidableEq, Repr

namespace Shell

def goto (sh : Shell) (p : Point) : Shell := { sh with point := p }

def again (sh : Shell) : Shell := sh.goto (.readControl .outer)

def standDown (sh : Shell) : Shell := sh.goto (.sweep .readPid .standDown)

def refresh (sh : Shell) (w : World) : Shell :=
  { sh with curEnabled := w.enabled, curAutostart := w.autostart, idleLimit := w.idleLimit }

def report (sh : Shell) : Report := ⟨sh.ctl.seq, sh.curEnabled, sh.curAutostart, sh.idleLimit⟩

def returned (sh : Shell) (w : World) (applied : Bool) : Site → Shell
  | .start => (sh.refresh w).goto .gateLoop
  | .retry => { sh with n := sh.n + 1 }.goto .gateLoop
  | .outer => (sh.refresh w).goto .outerEnabled
  | .monitor => if applied && sh.ctl.run == .restart then sh.again else sh.goto .monitorRun

end Shell

def World.status (w : World) (sh : Shell) : World := { w with reports := w.reports ++ [sh.report] }

def World.statusIf (w : World) (sh : Shell) (b : Bool) : World := if b then w.status sh else w

def World.launch (w : World) (pid : Nat) (prog : Prog) : Option World :=
  if w.alive pid then none else some { w with procs := w.procs ++ [⟨pid, prog⟩] }

def World.assign (w : World) (ctl : Settings) : Assign → World
  | .enabled => { w with enabled := ctl.enabled.getD w.enabled }
  | .autostart => { w with autostart := ctl.autostart.getD w.autostart }
  | .idle => { w with idleStop := ctl.idleStop.or w.idleStop }
  | .seq => { w with controlSeq := some ctl.seq }

def World.sweep (w : World) (container : Option Nat) : Sweep → World
  | .readPid => w
  | .killContainer =>
    match container with
    | some pid => w.kill (·.pid == pid)
    | none => w
  | .killWaydroidd => w.kill (·.prog.kind == .waydroidd)
  | .killCompositor => w.kill (·.prog.kind == .compositor)
  | .killAudio => w.kill (·.prog.kind == .audio)
  | .clearFrames => { w with frames := false }
  | .clearVisible => { w with visible := false }
  | .clearGrab => { w with grab := false }
  | .removeSocket => { w with socket := false }
  | .removePid => { w with containerPid := none }

def Sweep.next (leave : Leave) : Sweep → Point
  | .readPid => .sweep .killContainer leave
  | .killContainer => .sweep .killWaydroidd leave
  | .killWaydroidd => .sweep .killCompositor leave
  | .killCompositor => .sweep .killAudio leave
  | .killAudio => .sweep .clearFrames leave
  | .clearFrames => .sweep .clearVisible leave
  | .clearVisible => .sweep .clearGrab leave
  | .clearGrab => .sweep .removeSocket leave
  | .removeSocket => .sweep .removePid leave
  | .removePid =>
    match leave with
    | .rebuild => .prepareGraft
    | .standDown => .askStop

def Assign.next (site : Site) : Assign → Point
  | .enabled => .assign .autostart site
  | .autostart => .assign .idle site
  | .idle | .seq => .assign .seq site

namespace Shell

def pick (sh : Shell) (w : World) : World × Shell :=
  match w.pickImages sh.bad with
  | some d => (w.status sh, { sh with dir := some d, waited := 0 }.goto .verify)
  | none => (w.status sh, { sh with dir := none, waited := sh.waited + 3 }.goto .waited)

def verified (sh : Shell) (w : World) : Verdict → World × Shell
  | .ok => (w.status sh, { sh with bad := [] }.goto (.sweep .readPid .rebuild))
  | .vanished => (w, sh.again)
  | .rejected => (w.status sh, { sh with bad := (sh.dir.bind w.images) :: sh.bad }.again)

def frame (sh : Shell) (w : World) (frozen : Bool) : World × Shell :=
  if sh.framed then (w, sh.goto .monitorIdle)
  else if w.frames then (w.status sh, { sh with framed := true }.goto .monitorIdle)
  else if frozen then (w, sh.goto .monitorIdle)
  else if 90 ≤ sh.booting + 2 then (w.status sh, { sh with booting := sh.booting + 2 }.again)
  else (w.status sh, { sh with booting := sh.booting + 2 }.goto .monitorIdle)

def idles (sh : Shell) (w : World) : Shell :=
  if w.visible then { sh with idle := 0 }.goto .monitorAlive
  else if !w.autostart && 0 < sh.idleLimit && sh.idleLimit ≤ sh.idle + 2 then
    { sh with idle := sh.idle + 2 }.standDown
  else { sh with idle := sh.idle + 2 }.goto .monitorAlive

def beats (sh : Shell) (w : World) : World × Shell :=
  let sh := { sh with beat := sh.beat + 1 }
  if sh.beat % 5 = 0 then
    let sh := sh.refresh w
    (w.statusIf sh sh.framed, sh.goto .monitorImages)
  else (w, sh.goto .monitorImages)

/-- The command at `sh.point`; no `Shell` is left once the script has ended. -/
def exec (sh : Shell) (w : World) (env : Answer) : Option (World × Option Shell) :=
  match sh.point with
  | .readControl site =>
    let sh := { sh with ctl := readControl w.control }
    if sh.ctl.seq = w.appliedSeq then some (w, sh.returned w false site)
    else some (w, sh.goto (.assign .enabled site))
  | .assign .seq site =>
    let w := w.assign sh.ctl .seq
    some (w, (sh.refresh w).returned w true site)
  | .assign a site => some (w.assign sh.ctl a, sh.goto (a.next site))
  | .gateLoop =>
    some (w, sh.goto (if !sh.demand && !w.enabled && sh.n < 5 then .readControl .retry
      else .gateEnabled))
  | .gateEnabled =>
    if w.enabled then some (w, sh.goto .gateRun)
    else some (w.statusIf sh sh.demand, sh.goto .askStop)
  | .gateRun =>
    if sh.ctl.run = .off then some (w.statusIf sh sh.demand, sh.goto .askStop)
    else some (w, sh.goto .gatePolicy)
  | .gatePolicy =>
    some (w, sh.goto (if !sh.demand && !w.autostart then .askStop else .readControl .outer))
  | .outerEnabled => some (w, if w.enabled then sh.goto .outerRun else sh.standDown)
  | .outerRun =>
    if sh.ctl.run = .off then some (w.status sh, sh.standDown) else some (w, sh.goto .pickImages)
  | .pickImages => some (Prod.map id some (sh.pick w))
  | .waited => some (w, if !w.autostart && 60 ≤ sh.waited then sh.goto .askStop else sh.again)
  | .verify => some (Prod.map id some (sh.verified w env.verdict))
  | .sweep .readPid leave =>
    some (w, { sh with container := w.containerPid }.goto (Sweep.readPid.next leave))
  | .sweep c leave => some (w.sweep sh.container c, sh.goto (c.next leave))
  | .prepareGraft => some (w, if env.graft then sh.goto .startCompositor else sh.again)
  | .startCompositor =>
    (w.launch env.pid .compositor).map fun w =>
      (w, { sh with compositor := env.pid }.goto (.awaitSocket 0))
  | .awaitSocket i =>
    if w.socket then some (w, sh.goto .startAudio)
    else if 150 ≤ i ∨ !w.alive sh.compositor then some (w, sh.again)
    else some (w, sh.goto (.awaitSocket (i + 1)))
  | .startAudio =>
    (w.launch env.pid .audio).map fun w => (w, { sh with audio := env.pid }.goto (.awaitPulse 0))
  | .awaitPulse j =>
    some (w, sh.goto (if j < 50 && !w.pulse && w.alive sh.audio then .awaitPulse (j + 1)
                      else .startWaydroidd))
  | .startWaydroidd => (w.launch env.pid (.waydroidd none)).map fun w => (w, sh.goto (.awaitPid 0))
  | .awaitPid j =>
    some (w, sh.goto (if w.containerPid.isNone && j < 150 then .awaitPid (j + 1) else .readPid))
  | .readPid =>
    match w.containerPid with
    | none => some (w, sh.again)
    | some pid =>
      some (w, { sh with container := some pid, booting := 0, idle := 0, framed := false,
                         beat := 0 }.goto .monitorAlive)
  | .monitorAlive =>
    some (w, sh.goto (.readControl (if sh.container.any w.alive then .monitor else .outer)))
  | .monitorRun =>
    if sh.ctl.run = .off then some (w.status sh, sh.standDown)
      else some (w, sh.goto .monitorEnabled)
  | .monitorEnabled =>
    if w.enabled then some (Prod.map id some (sh.beats w)) else some (w, sh.again)
  | .monitorImages =>
    some (w, if (sh.dir.bind w.images).isSome then sh.goto .monitorFrame else sh.standDown)
  | .monitorFrame => some (Prod.map id some (sh.frame w env.frozen))
  | .monitorIdle => some (w, sh.idles w)
  | .askStop => some (w, sh.goto .asked)
  | .asked => some (w, none)

end Shell

def Point.launches : Point → Option Prog
  | .startCompositor => some .compositor
  | .startAudio => some .audio
  | .startWaydroidd => some (.waydroidd none)
  | _ => none

/-- All that a command can do to the world. -/
inductive Shell.Effect (sh : Shell) (w : World) (env : Answer) : World → Prop where
  | silent : Effect sh w env w
  | status (sh' : Shell) : Effect sh w env (w.status sh')
  | assign {a : Assign} {site : Site} (hp : sh.point = .assign a site) : Effect sh w env
    (w.assign sh.ctl a)
  | sweep {c : Sweep} {leave : Leave} (hp : sh.point = .sweep c leave) :
      Effect sh w env (w.sweep sh.container c)
  | launch {prog : Prog} {w' : World} (hp : sh.point.launches = some prog)
      (h : w.launch env.pid prog = some w') : Effect sh w env w'

namespace Shell

variable {sh : Shell} {w w' : World} {env : Answer} {next : Option Shell}

theorem Effect.statusIf (sh' : Shell) (b : Bool) : Effect sh w env (w.statusIf sh' b) := by
  cases b with
  | false => exact .silent
  | true => exact .status sh'

theorem Effect.pick : Effect sh w env (sh.pick w).1 := by
  unfold Shell.pick
  split
  · exact .status sh
  · exact .status sh

theorem Effect.verified (v : Verdict) : Effect sh w env (sh.verified w v).1 := by
  cases v with
  | ok => exact .status sh
  | vanished => exact .silent
  | rejected => exact .status sh

theorem Effect.beats : Effect sh w env (sh.beats w).1 := by
  unfold Shell.beats
  dsimp only
  split
  · exact .statusIf _ _
  · exact .silent

theorem Effect.frame (frozen : Bool) : Effect sh w env (sh.frame w frozen).1 := by
  unfold Shell.frame
  repeat' split
  all_goals first | exact .silent | exact .status sh

theorem Effect.of_launch {prog : Prog} {f : World → World × Option Shell}
    (hp : sh.point.launches = some prog) (hf : ∀ w, (f w).1 = w)
    (h : (w.launch env.pid prog).map f = some (w', next)) : Effect sh w env w' := by
  obtain ⟨w₁, hlaunch, hw₁⟩ := Option.map_eq_some_iff.mp h
  obtain rfl : w₁ = w' := (hf w₁).symm.trans (congrArg Prod.fst hw₁)
  exact .launch hp hlaunch

theorem exec_effect (h : sh.exec w env = some (w', next)) : sh.Effect w env w' := by
  have hsilent : ∀ {next'}, some (w, next') = some (w', next) → sh.Effect w env w' := by
    intro next' h
    cases h
    exact .silent
  unfold exec at h
  cases hp : sh.point with rw [hp] at h
  | gateLoop | gatePolicy | outerEnabled | waited | prepareGraft | monitorAlive | monitorImages |
    monitorIdle | askStop => exact hsilent h
  | awaitPulse j | awaitPid j => exact hsilent h
  | asked => exact hsilent h
  | readControl site =>
    dsimp only at h
    split at h <;> exact hsilent h
  | assign a site => cases a <;> cases h <;> exact .assign hp
  | gateEnabled =>
    dsimp only at h
    split at h
    · exact hsilent h
    · cases h
      exact .statusIf _ _
  | gateRun =>
    dsimp only at h
    split at h
    · cases h
      exact .statusIf _ _
    · exact hsilent h
  | outerRun | monitorRun =>
    dsimp only at h
    split at h
    · cases h
      exact .status _
    · exact hsilent h
  | pickImages =>
    cases h
    exact .pick
  | verify =>
    cases h
    exact .verified _
  | sweep c leave =>
    cases c with
    | readPid => exact hsilent h
    | _ =>
      cases h
      exact .sweep hp
  | startCompositor | startAudio | startWaydroidd =>
    exact .of_launch (by rw [hp]; rfl) (fun _ => rfl) h
  | awaitSocket i =>
    dsimp only at h
    split at h
    · exact hsilent h
    · split at h <;> exact hsilent h
  | readPid =>
    dsimp only at h
    split at h <;> exact hsilent h
  | monitorEnabled =>
    dsimp only at h
    split at h
    · cases h
      exact .beats
    · exact hsilent h
  | monitorFrame =>
    cases h
    exact .frame _

end Shell

structure State where
  world : World := {}
  shell : Option Shell := none
  /-- History, which the script does not keep: a generation has been started, by this supervisor or
  an earlier one, and no teardown has come to its end since. -/
  started : Bool := false
deriving DecidableEq, Repr

inductive Action where
  | start (demand : Bool)
  | kill
  | exec (env : Answer)
  | outside (o : Outside)
  | reboot
deriving DecidableEq, Repr

def Point.started (started : Bool) : Point → Bool
  | .startCompositor => true
  | .sweep .removePid _ => false
  | _ => started

def step (s : State) : Action → Option State
  | .start demand => if s.shell.isSome then none else some { s with shell := some { demand } }
  | .kill => if s.shell.isSome then some { s with shell := none } else none
  | .exec env =>
    s.shell.bind fun sh => (sh.exec s.world env).map fun (world, shell) =>
      ⟨world, shell, sh.point.started s.started⟩
  | .outside o => (s.world.act o).map fun world => { s with world }
  | .reboot => some ⟨s.world.reboot, none, false⟩

def exec : Action := .exec {}

def host (autostart : Bool) : State :=
  { world := { dataImages := some 1, enabled := true, autostart } }

def builds (pid : Nat) : List Action :=
  [.exec { pid }, .outside (.listen pid), exec, .exec { pid := pid + 1 },
    .outside (.openPulse (pid + 1)), exec, .exec { pid := pid + 2 }]

def boots (pid : Nat) : List Action :=
  [.outside (.clone (pid + 2) (pid + 3)), .outside (.arm (pid + 3)), .outside (.publish (pid + 2)),
    exec, exec]

def comesUp (demand : Bool) : List Action :=
  List.flatten [[.start demand], List.replicate 21 exec, builds 10]

def shows : List Action :=
  List.flatten [boots 10, [.outside (.setVisible 10 true), .outside (.setGrab 10 true)]]

end OniroSoc.Supervisor

import OniroSoc.Compositor.Stages

/-!
# Session — task events

The wayland thread tells the shell what becomes of the toplevels: `OnToplevelEvent` turns each
`EmitToplevel` into the events it publishes.
-/

namespace OniroSoc.Session
open Support List
open OniroSoc.Compositor (Text Toplevel Server)
open OniroSoc.Compositor.Server (kAppIdPrefix isHomePackage)

inductive ToplevelEvent where
  | created
  | updated
  | onTop
  | inactive
  | destroyed
deriving DecidableEq

inductive TaskEvent where
  | home
  | onTop (package : Text)
  | inactive (package : Text)
  | gone (package : Text)
  | allGone
deriving DecidableEq

def taskPackage (appId : Text) : Text :=
  if kAppIdPrefix.isPrefixOf appId then appId.drop kAppIdPrefix.length else ['*']

def IsTask (t : Toplevel) : Prop := isHomePackage (taskPackage t.appId) = false

instance : DecidablePred IsTask := fun _ => inferInstanceAs (Decidable (_ = _))

def onToplevelEvent (server : Server) (ev : ToplevelEvent) (t : Toplevel) : List TaskEvent :=
  if isHomePackage (taskPackage t.appId) then
    if ev = .onTop then [.home] else []
  else
    match ev with
    | .onTop => [.onTop (taskPackage t.appId)]
    | .inactive => [.inactive (taskPackage t.appId)]
    | .destroyed => .gone (taskPackage t.appId) :: if server.toplevels = [] then [.allGone] else []
    | _ => []

structure Tasks where
  server : Server
  onTopId : Nat := 0
  published : List TaskEvent := []

inductive Task where
  | addToplevel (surface : Option Nat)
  | setToplevelAppId (id : Nat) (appId : Option Text)
  | noteToplevelFrame (id : Nat)
  | noteToplevelInactive (id : Nat)
  | rearm
  | removeToplevel (id : Nat)

namespace Tasks

def emitToplevel (s : Tasks) (ev : ToplevelEvent) (t : Toplevel) : Tasks :=
  { s with published := s.published ++ onToplevelEvent s.server ev t }

def addToplevel (s : Tasks) (surface : Option Nat) : Tasks :=
  { s with server := s.server.addToplevel surface }.emitToplevel .created
    { id := s.server.nextToplevelId }

def setToplevelAppId (s : Tasks) (id : Nat) (appId : Option Text) : Tasks :=
  match s.server.toplevel id, appId with
  | some t, some appId =>
    if t.appId = appId then s
    else { s with server := s.server.setToplevelAppId id appId }.emitToplevel .updated
      { t with appId }
  | _, _ => s

def noteToplevelFrame (s : Tasks) (id : Nat) : Tasks :=
  match s.server.toplevel id with
  | some t => if s.onTopId = id then s else { s with onTopId := id }.emitToplevel .onTop t
  | none => s

def noteToplevelInactive (s : Tasks) (id : Nat) : Tasks :=
  match s.server.toplevel id with
  | some t => if s.onTopId ≠ id then s else { s with onTopId := 0 }.emitToplevel .inactive t
  | none => s

def removeToplevel (s : Tasks) (id : Nat) : Tasks :=
  match s.server.toplevel id with
  | some t =>
    { s with
      server := s.server.removeToplevel id
      onTopId := if s.onTopId = id then 0 else s.onTopId }.emitToplevel .destroyed t
  | none => s

def step (s : Tasks) : Task → Tasks
  | .addToplevel surface => s.addToplevel surface
  | .setToplevelAppId id appId => s.setToplevelAppId id appId
  | .noteToplevelFrame id => s.noteToplevelFrame id
  | .noteToplevelInactive id => s.noteToplevelInactive id
  | .rearm => { s with onTopId := 0 }
  | .removeToplevel id => s.removeToplevel id

end Tasks

def TaskEvent.isEnd : TaskEvent → Bool
  | .gone _ => true
  | .allGone => true
  | _ => false

def NoTask (server : Server) : Prop := ∀ t ∈ server.toplevels, ¬ IsTask t

instance (server : Server) : Decidable (NoTask server) := inferInstanceAs (Decidable (∀ _ ∈ _, _))

def dueOf (s : Tasks) : Task → List TaskEvent
  | .removeToplevel id =>
    match s.server.toplevel id with
    | some t =>
      (if IsTask t then [.gone (taskPackage t.appId)] else []) ++
        if NoTask (s.server.removeToplevel id) then [.allGone] else []
    | none => []
  | _ => []

/-- A destruction leaves a task toplevel, or is the destruction of one that was alone in the
table. -/
def Heard (s : Tasks) : Task → Prop
  | .removeToplevel id =>
    ∀ t ∈ s.server.toplevel id,
      (∃ u ∈ s.server.toplevels, u.id ≠ id ∧ IsTask u) ∨
      (IsTask t ∧ ∀ u ∈ s.server.toplevels, u.id = id)
  | _ => True

instance : DecidableRel Heard
  | _, .removeToplevel _ => inferInstanceAs (Decidable (∀ _ ∈ _, _))
  | _, .addToplevel _ | _, .setToplevelAppId .. | _, .noteToplevelFrame _ | _,
    .noteToplevelInactive _
  | _, .rearm => inferInstanceAs (Decidable True)

variable {s : Tasks} {server : Server} {t : Toplevel} {id : Nat}

theorem mem_removeToplevel {u : Toplevel} :
    u ∈ (server.removeToplevel id).toplevels ↔ u ∈ server.toplevels ∧ u.id ≠ id := by
  simp [Server.removeToplevel]

theorem noTask_removeToplevel :
    NoTask (server.removeToplevel id) ↔ ¬ ∃ u ∈ server.toplevels, u.id ≠ id ∧ IsTask u := by
  simp only [NoTask, mem_removeToplevel, not_exists, not_and, and_imp]

theorem removeToplevel_eq_nil :
    (server.removeToplevel id).toplevels = [] ↔ ∀ u ∈ server.toplevels, u.id = id := by
  simp [Server.removeToplevel]

theorem onToplevelEvent_destroyed_task (ht : IsTask t) : onToplevelEvent server .destroyed t =
    .gone (taskPackage t.appId) :: if server.toplevels = [] then [.allGone] else [] := by
  rw [onToplevelEvent, ht]
  rfl

theorem onToplevelEvent_destroyed_home (ht : ¬ IsTask t) :
    onToplevelEvent server .destroyed t = [] := by
  rw [onToplevelEvent, Bool.eq_true_of_not_eq_false ht]
  rfl

theorem onToplevelEvent_isEnd {ev : ToplevelEvent} {e : TaskEvent}
    (he : e ∈ onToplevelEvent server ev t) (hend : e.isEnd = true) : ev = .destroyed := by
  unfold onToplevelEvent at he
  cases ev <;> split at he <;> simp_all [TaskEvent.isEnd]

theorem destroyed_eq_due_iff (ht : s.server.toplevel id = some t) :
    onToplevelEvent (s.server.removeToplevel id) .destroyed t = dueOf s (.removeToplevel id) ↔
      Heard s (.removeToplevel id) := by
  have hheard : Heard s (.removeToplevel id) ↔
      (∃ u ∈ s.server.toplevels, u.id ≠ id ∧ IsTask u) ∨
      (IsTask t ∧ ∀ u ∈ s.server.toplevels, u.id = id) := by
    simp [Heard, ht]
  have hdue : dueOf s (.removeToplevel id) =
    (if IsTask t then [.gone (taskPackage t.appId)] else []) ++
      if NoTask (s.server.removeToplevel id) then [.allGone] else [] := by
    simp only [dueOf, ht]
  rw [hheard, hdue]
  by_cases htask : IsTask t
  · rw [onToplevelEvent_destroyed_task htask, if_pos htask]
    by_cases hleft : ∃ u ∈ s.server.toplevels, u.id ≠ id ∧ IsTask u
    · -- a task toplevel is left, so the table is not empty
      have hne : ¬ (s.server.removeToplevel id).toplevels = [] := by
        obtain ⟨u, hu, hid, -⟩ := hleft
        exact fun hnil => hid (removeToplevel_eq_nil.mp hnil u hu)
      simp [hleft, hne, noTask_removeToplevel]
    · simp only [noTask_removeToplevel, hleft, not_false_eq_true, if_true, false_or, htask,
        true_and, singleton_append, List.cons.injEq, ← removeToplevel_eq_nil]
      by_cases hnil : (s.server.removeToplevel id).toplevels = [] <;> simp [hnil]
  · rw [onToplevelEvent_destroyed_home htask, if_neg htask]
    by_cases hleft : ∃ u ∈ s.server.toplevels, u.id ≠ id ∧ IsTask u <;>
      simp [hleft, htask, noTask_removeToplevel]

theorem emitToplevel_ends {ev : ToplevelEvent} (hev : ev ≠ .destroyed) :
    (s.emitToplevel ev t).published.filter TaskEvent.isEnd =
      s.published.filter TaskEvent.isEnd := by
  have hnone : (onToplevelEvent s.server ev t).filter TaskEvent.isEnd = [] :=
    filter_eq_nil_iff.mpr fun e he hend => hev (onToplevelEvent_isEnd he hend)
  rw [Tasks.emitToplevel, filter_append, hnone, append_nil]

def endsOf (s : Tasks) : Task → List TaskEvent
  | .removeToplevel id =>
    match s.server.toplevel id with
    | some t => onToplevelEvent (s.server.removeToplevel id) .destroyed t
    | none => []
  | _ => []

theorem onToplevelEvent_ends : (onToplevelEvent server .destroyed t).filter TaskEvent.isEnd =
    onToplevelEvent server .destroyed t := by
  by_cases ht : IsTask t
  · rw [onToplevelEvent_destroyed_task ht]
    split <;> rfl
  · rw [onToplevelEvent_destroyed_home ht]
    rfl

theorem step_ends (s : Tasks) (a : Task) :
    (s.step a).published.filter TaskEvent.isEnd =
      s.published.filter TaskEvent.isEnd ++ endsOf s a := by
  cases a with
  | addToplevel surface =>
    refine Eq.trans ?_ (append_nil _).symm
    exact emitToplevel_ends nofun
  | setToplevelAppId id appId =>
    refine Eq.trans ?_ (append_nil _).symm
    simp only [Tasks.step, Tasks.setToplevelAppId]
    split
    · split
      · rfl
      · exact emitToplevel_ends nofun
    · rfl
  | noteToplevelFrame id =>
    refine Eq.trans ?_ (append_nil _).symm
    simp only [Tasks.step, Tasks.noteToplevelFrame]
    split
    · split
      · rfl
      · exact emitToplevel_ends nofun
    · rfl
  | noteToplevelInactive id =>
    refine Eq.trans ?_ (append_nil _).symm
    simp only [Tasks.step, Tasks.noteToplevelInactive]
    split
    · split
      · rfl
      · exact emitToplevel_ends nofun
    · rfl
  | rearm => exact (append_nil _).symm
  | removeToplevel id =>
    simp only [Tasks.step, Tasks.removeToplevel, endsOf]
    split
    · rw [Tasks.emitToplevel, filter_append, onToplevelEvent_ends]
    · exact (append_nil _).symm

theorem endsOf_eq_dueOf_iff (s : Tasks) (a : Task) : endsOf s a = dueOf s a ↔ Heard s a := by
  cases a with
  | removeToplevel id =>
    cases ht : s.server.toplevel id with
    | some t =>
      rw [← destroyed_eq_due_iff ht]
      simp only [endsOf, ht]
    | none => simp [endsOf, dueOf, Heard, ht]
  | _ => exact ⟨fun _ => trivial, fun _ => rfl⟩

structure Watched where
  live : Tasks
  due : List TaskEvent := []

namespace Watched

def step (w : Watched) (a : Task) : Option Watched := some ⟨w.live.step a, w.due ++ dueOf w.live a⟩

/-- One `gone` for each task toplevel destroyed, and `allgone` at each destruction that left none:
these were published, and no others. -/
def Told (w : Watched) : Prop := w.live.published.filter TaskEvent.isEnd = w.due

theorem told_step {w w' : Watched} {a : Task} (h : w.Told) (hs : w.step a = some w') :
    w'.Told ↔ Heard w.live a := by
  cases hs
  rw [Told, step_ends, ← endsOf_eq_dueOf_iff, show w.live.published.filter TaskEvent.isEnd =
    w.due from h, append_cancel_left_eq]

/-- **The shell is told of the last task, unless HOME is there**: exactly if every destruction
either leaves a task toplevel or is that of a task toplevel alone in the table. -/
theorem told_iff (server : Server) (as : List Task) (w : Watched)
    (hrun : run step ⟨{ server }, []⟩ as = some w) :
    Always step Told ⟨{ server }, []⟩ as ↔
      Along step (fun w a => Heard w.live a) ⟨{ server }, []⟩ as :=
  always_iff_along (fun _ h => h) (fun _ _ _ h hok hs => (told_step h hs).mpr hok)
    (fun _ _ _ h hbad hs => mt (told_step h hs).mp hbad) hrun rfl

def noWindows : Server := Compositor.System.started.server

def named (name : String) : Option Text := some name.toList

def homeFirst : List Task :=
  [.addToplevel none, .setToplevelAppId 1 (named "waydroid.com.android.launcher3"),
    .addToplevel none, .setToplevelAppId 2 (named "waydroid.org.clock"), .noteToplevelFrame 2,
    .removeToplevel 1, .removeToplevel 2]

def homeLast : List Task :=
  [.addToplevel none, .setToplevelAppId 1 (named "waydroid.com.android.launcher3"),
    .addToplevel none, .setToplevelAppId 2 (named "waydroid.org.clock"), .noteToplevelFrame 2,
    .removeToplevel 2, .removeToplevel 1]

theorem told_homeFirst : ∃ w, run step ⟨{ server := noWindows }, []⟩ homeFirst = some w ∧
    w.live.published = [.onTop "org.clock".toList, .gone "org.clock".toList, .allGone] ∧
    Always step Told ⟨{ server := noWindows }, []⟩ homeFirst :=
  ⟨_, rfl, by decide, (told_iff noWindows homeFirst _ rfl).mpr
    (along_of_check (fun (w : Watched) a => of_decide_eq_true (p := Heard w.live a)) (by decide))⟩

theorem allgone_missing :
    ∃ w, run step ⟨{ server := noWindows }, []⟩ homeLast = some w ∧ w.live.server.toplevels = [] ∧
      w.live.published = [.onTop "org.clock".toList, .gone "org.clock".toList] ∧
      w.due = [.gone "org.clock".toList, .allGone, .allGone] :=
  ⟨_, rfl, by decide, by decide, by decide⟩

end Watched

end OniroSoc.Session

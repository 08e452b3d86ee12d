import OniroSoc.Compositor.Input

/-!
# The touch streams of the clients

`WindowTouch` posts each action of a pointer; the wayland thread picks a surface for it in its turn,
and sends it on every `wl_touch` of that surface's client.  The actions of one gesture can end up
with different clients, or nowhere.
-/

namespace OniroSoc.Compositor
open Support List Option

namespace TouchOp

/-- The ids that are down on a `wl_touch` after the event.  `wl_touch.cancel` names no id. -/
def lift (down : List Int) (op : TouchOp) : List Int :=
  match op.kind with
  | .down => op.id :: down
  | .up => down.filter (· ≠ op.id)
  | .cancel => []
  | .motion | .frame => down

def Formed : List Int → List TouchOp → Prop
  | _, [] => True
  | down, op :: ops =>
    (op.kind = .motion ∨ op.kind = .up → op.id ∈ down) ∧ Formed (lift down op) ops

def press (down : List Int) (op : TouchOp) : List Int :=
  match op.kind with
  | .down => op.id :: down
  | .up | .cancel => down.filter (· ≠ op.id)
  | .motion | .frame => down

def Orderly : List Int → List TouchOp → Prop
  | _, [] => True
  | down, op :: ops =>
    (match op.kind with
      | .down => op.id ∉ down
      | .motion | .up | .cancel => op.id ∈ down
      | .frame => True) ∧ Orderly (press down op) ops

theorem formed_append {down : List Int} {xs ys : List TouchOp} :
    Formed down (xs ++ ys) ↔ Formed down xs ∧ Formed (xs.foldl lift down) ys := by
  induction xs generalizing down with
  | nil => simp [Formed]
  | cons x xs ih => simp only [cons_append, Formed, foldl_cons, ih, and_assoc]

theorem orderly_append {down : List Int} {xs ys : List TouchOp} :
    Orderly down (xs ++ ys) ↔ Orderly down xs ∧ Orderly (xs.foldl press down) ys := by
  induction xs generalizing down with
  | nil => simp [Orderly]
  | cons x xs ih => simp only [cons_append, Orderly, foldl_cons, ih, and_assoc]

end TouchOp

open TouchOp (lift Formed press Orderly formed_append orderly_append)

def stream (sent : List Server.InputEvent) (touch : Nat) : List TouchOp :=
  sent.filterMap fun e =>
    match e.kind with
    | .touch op => if e.resource.id = touch then some op else none
    | _ => none

def Task.ops : Task → List TouchOp
  | .touch _ action id x y => Server.touchOps action id x y
  | _ => []

def System.Action.ops : System.Action → List TouchOp
  | .windowInput t => t.ops
  | _ => []

abbrev Held := List (Int × Option Nat)

namespace Held

def next (client : Option Nat) (held : Held) (op : TouchOp) : Held :=
  match op.kind with
  | .down => (op.id, client) :: held
  | .up => held.filter fun p => p.1 ≠ op.id
  | .cancel => (held.filter fun p => p.1 ≠ op.id).map fun p =>
    if p.2 = client then (p.1, none) else p
  | .motion | .frame => held

def Reaches (client : Option Nat) (held : Held) (op : TouchOp) : Prop :=
  match op.kind with
  | .motion => ∀ c, client = some c → (op.id, some c) ∈ held
  | .up => (op.id, client) ∈ held
  | .cancel => ∀ c, (op.id, some c) ∈ held → client = some c
  | .down | .frame => True

def ids (held : Held) : List Int := held.map Prod.fst

def Agrees (held : Held) (c : Nat) (down : List Int) : Prop := ∀ id, id ∈ down ↔ (id, some c) ∈ held

section
variable {client : Option Nat} {held : Held} {op : TouchOp} {c : Nat} {down : List Int}

theorem ids_next : (held.next client op).ids = press held.ids op := by
  unfold next press ids
  cases op.kind with
  | down => rfl
  | up => simp [List.filter_map, Function.comp_def]
  | cancel =>
    simp only [List.map_map, List.filter_map]
    refine map_congr_left fun p _ => ?_
    dsimp only [Function.comp_apply]
    split_ifs <;> rfl
  | motion => rfl
  | frame => rfl

theorem nodup_next (h : held.ids.Nodup) (ho : Orderly held.ids [op]) :
    (held.next client op).ids.Nodup := by
  rw [ids_next]
  unfold press
  cases hk : op.kind with
  | down =>
    simp only [Orderly, hk, and_true] at ho
    exact nodup_cons.mpr ⟨ho, h⟩
  | up => exact h.filter _
  | cancel => exact h.filter _
  | motion => exact h
  | frame => exact h

theorem eq_of_mem (h : held.ids.Nodup) {id : Int} {x y : Option Nat} (hx : (id, x) ∈ held)
    (hy : (id, y) ∈ held) : x = y :=
  congrArg Prod.snd (inj_on_of_nodup_map h hx hy rfl)

theorem Agrees.delivered (h : Agrees held c down) (hr : Reaches (some c) held op) :
    Formed down [op] ∧ Agrees (held.next (some c) op) c (lift down op) := by
  unfold Reaches at hr
  unfold next lift
  cases hk : op.kind with
  | down =>
    refine ⟨by simp [Formed, hk], fun id => ?_⟩
    simp [h id]
  | up =>
    rw [hk] at hr
    refine ⟨⟨fun _ => (h op.id).mpr hr, trivial⟩, fun id => ?_⟩
    simp [h id]
  | cancel =>
    refine ⟨by simp [Formed, hk], fun id => ?_⟩
    simp only [not_mem_nil, false_iff, List.mem_map]
    rintro ⟨p, -, hp⟩
    split_ifs at hp with hc
    · cases hp
    · exact hc (congrArg Prod.snd hp)
  | motion =>
    rw [hk] at hr
    exact ⟨⟨fun _ => (h op.id).mpr (hr c rfl), trivial⟩, h⟩
  | frame => exact ⟨by simp [Formed, hk], h⟩

theorem Agrees.elsewhere (h : Agrees held c down) (hnd : held.ids.Nodup)
    (hr : Reaches client held op) (hc : client ≠ some c) : Agrees (held.next client op) c down := by
  unfold Reaches at hr
  unfold next
  cases hk : op.kind with
  | down =>
    intro id
    rw [h id, mem_cons, or_iff_right]
    exact fun he => hc (congrArg Prod.snd he).symm
  | up =>
    rw [hk] at hr
    intro id
    rw [h id, mem_filter, decide_eq_true_eq]
    refine ⟨fun hm => ⟨hm, ?_⟩, fun hm => hm.1⟩
    rintro rfl
    exact hc (eq_of_mem hnd hr hm)
  | cancel =>
    rw [hk] at hr
    intro id
    rw [h id, List.mem_map]
    constructor
    · intro hm
      refine ⟨(id, some c), mem_filter.mpr ⟨hm, ?_⟩, if_neg (Ne.symm hc)⟩
      rw [decide_eq_true_eq]
      rintro rfl
      exact hc (hr c hm)
    · rintro ⟨p, hp, he⟩
      split_ifs at he with hpc
      · cases he
      · exact he ▸ mem_of_mem_filter hp
  | motion => exact h
  | frame => exact h

end

end Held

def Server.touchClient (s : Server) (window : Nat) : Option Nat :=
  (s.window window).bind fun w => (s.keySurface w).bind s.clientOf

structure Gestures where
  system : System
  held : Held

namespace Gestures

def upcoming (s : Server) : Option (Nat × List TouchOp) :=
  match s.posted with
  | .touch window action id x y :: _ => some (window, Server.touchOps action id x y)
  | _ => none

def grip (g : Gestures) : System.Action → Held
  | .runPosted =>
    match upcoming g.system.server with
    | some (window, ops) => ops.foldl (Held.next (g.system.server.touchClient window)) g.held
    | none => g.held
  | _ => g.held

def step (g : Gestures) (a : System.Action) : Option Gestures :=
  (g.system.step a).map fun s => ⟨s, g.grip a⟩

def Steady (g : Gestures) : System.Action → Prop
  | .runPosted =>
    match upcoming g.system.server with
    | some (window, ops) => ∀ op ∈ ops, Held.Reaches (g.system.server.touchClient window) g.held op
    | none => True
  | .request (.bindTouch r) => ∀ p ∈ g.held, p.2 ≠ some r.client
  | _ => True

end Gestures

/-- The touches come from the windows, and a new `wl_touch` is new. -/
def System.Windowed (s : System) : System.Action → Prop
  | .injectTouchOps _ => False
  | .request (.bindTouch r) =>
    (∀ r' ∈ s.server.touchResources, r'.id ≠ r.id) ∧ ∀ e ∈ s.sent, e.resource.id ≠ r.id
  | _ => True

theorem Server.touchOps_cases (action id x y : Int) : Server.touchOps action id x y = [] ∨
      ∃ kind, Server.touchOps action id x y = [⟨kind, id, x, y⟩, ⟨.frame, 0, 0, 0⟩] := by
  unfold Server.touchOps
  dsimp only
  split_ifs
  · exact .inr ⟨_, rfl⟩
  · exact .inr ⟨_, rfl⟩
  · exact .inr ⟨_, rfl⟩
  · exact .inr ⟨_, rfl⟩
  · exact .inl rfl

structure System.Untouched (s s' : System) : Prop where
  stream : ∀ r, stream s'.sent r = stream s.sent r
  resources : s'.server.touchResources = s.server.touchResources
  pending : s'.server.touchPending = s.server.touchPending
  posted : s'.server.posted.flatMap Task.ops = s.server.posted.flatMap Task.ops

section
variable {s s' : System} {a : System.Action}

theorem Executes.untouched {i : Instr} {rest todo : List Instr} (h : Executes s rest i s' todo) :
    s.Untouched s' := by
  cases h with
  | reset w =>
    unfold Server.resetQueue
    split_ifs <;> exact ⟨fun _ => rfl, rfl, rfl, rfl⟩
  | _ => exact ⟨fun _ => rfl, rfl, rfl, rfl⟩

def System.Action.isTouch : System.Action → Bool
  | .runPosted | .drainTouchOps | .injectTouchOps _ | .windowInput _ => true
  | .request (.bindTouch _) | .request (.releaseTouch _) => true
  | _ => false

theorem System.step_untouched (h : s.step a = some s') (ha : a.isTouch = false) :
    s.Untouched s' := by
  cases a with
  | wayland o =>
    simp only [System.step] at h
    split at h
    · cases h
    · obtain ⟨⟨s₁, todo⟩, hexec, rfl⟩ := map_eq_some_iff.mp h
      exact { (System.exec_executes hexec).untouched with }
  | ipc k o =>
    simp only [System.step] at h
    split at h
    · obtain ⟨⟨s₁, todo⟩, hexec, rfl⟩ := map_eq_some_iff.mp h
      exact { (System.exec_executes hexec).untouched with }
    · cases h
  | commit surface b output imported =>
    simp only [System.step] at h
    split at h
    · obtain ⟨-, ⟨⟩⟩ := ite_none_right_eq_some.mp h
      cases output with
      | none => exact ⟨fun _ => rfl, rfl, rfl, rfl⟩
      | some w => cases imported <;> exact ⟨fun _ => rfl, rfl, rfl, rfl⟩
    · cases h
  | commitShm | drainReleases | destroyBuffer =>
    obtain ⟨-, ⟨⟩⟩ := ite_none_right_eq_some.mp h
    exact ⟨fun _ => rfl, rfl, rfl, rfl⟩
  | bufferReleased b =>
    obtain ⟨-, ⟨⟩⟩ := ite_none_right_eq_some.mp h
    unfold Server.onBufferReleased
    split_ifs <;> exact ⟨fun _ => rfl, rfl, rfl, rfl⟩
  | request r =>
    obtain ⟨-, ⟨⟩⟩ := ite_none_right_eq_some.mp h
    cases r with
    | bindTouch | releaseTouch => cases ha
    | _ => exact ⟨fun _ => rfl, rfl, rfl, rfl⟩
  | attachWindow | attachLegacy | clearOutputSurface =>
    cases h
    exact ⟨fun _ => rfl, rfl, rfl, rfl⟩
  | detachWindow id =>
    obtain ⟨server, hd, rfl⟩ := map_eq_some_iff.mp h
    obtain ⟨-, ⟨⟩⟩ := ite_none_right_eq_some.mp hd
    exact ⟨fun _ => rfl, rfl, rfl, by simp [Server.post, Task.ops]⟩
  | runPosted | drainTouchOps | injectTouchOps | windowInput => cases ha

theorem stream_append (xs ys : List Server.InputEvent) (r : Nat) :
    stream (xs ++ ys) r = stream xs r ++ stream ys r := filterMap_append

theorem Server.stream_windowKey (s : Server) (window : Nat) (code : Int) (down : Bool) (r : Nat) :
    stream (s.windowKey window code down).2 r = [] := by
  rw [stream, filterMap_eq_nil_iff]
  intro e he
  unfold Server.windowKey at he
  split at he
  · cases he
  · split at he
    · cases he
    · split_ifs at he
      · cases he
      · rcases mem_append.mp he with he | he
        · obtain ⟨-, r', -, ⟨old, -, rfl⟩ | rfl | rfl⟩ := Server.mem_sendKeyboardFocus.mp he
          all_goals rfl
        · obtain ⟨r', -, rfl⟩ := List.mem_map.mp he
          rfl

theorem stream_send {rs : List Resource} (hrs : (rs.map Resource.id).Nodup) (surface touch : Nat)
    (op : TouchOp) : stream (rs.map fun r => ⟨r, surface, .touch op⟩) touch =
      if touch ∈ rs.map Resource.id then [op] else [] := by
  induction rs with
  | nil => rfl
  | cons r rs ih =>
    obtain ⟨hr, hrs⟩ := nodup_cons.mp hrs
    have ih := ih hrs
    by_cases he : r.id = touch
    · subst he
      rw [if_neg hr] at ih
      unfold stream at ih ⊢
      simp [ih]
    · unfold stream at ih ⊢
      simp [he, ih, Ne.symm he]

theorem stream_flatMap {rs : List Resource} (hrs : (rs.map Resource.id).Nodup)
    (surface touch : Nat) (ops : List TouchOp) :
    stream (ops.flatMap fun op => rs.map fun r => ⟨r, surface, .touch op⟩) touch =
      if touch ∈ rs.map Resource.id then ops else [] := by
  induction ops with
  | nil => simp [stream]
  | cons op ops ih =>
    rw [flatMap_cons, stream_append, ih, stream_send hrs]
    split_ifs <;> rfl

variable {s : Server}

namespace Server

theorem stream_drainTouchOps (hnd : (s.touchResources.map Resource.id).Nodup) (touch : Nat) :
    stream s.drainTouchOps.2 touch =
      if touch ∈ (ofClient s.touchResources (s.inputSurface.bind s.clientOf)).map Resource.id then
        s.touchPending else [] := by
  unfold drainTouchOps
  cases s.inputSurface with
  | none => simp [ofClient, stream]
  | some surface => exact stream_flatMap (hnd.sublist (filter_sublist.map _)) surface touch _

theorem windowTouch_eq {window : Nat} {w : Window} (hw : s.window window = some w)
    (action id x y : Int) :
    s.windowTouch window action id x y =
      ({ s with inputSurface := s.keySurface w }.injectTouchFromAction action id x
         y).drainTouchOps := by
  simp only [windowTouch, keySurface, hw]
  cases (s.toplevel w.toplevelId).bind Toplevel.surface <;> rfl

theorem stream_windowTouch (hpend : s.touchPending = [])
    (hnd : (s.touchResources.map Resource.id).Nodup) (window : Nat) (action id x y : Int)
    (touch : Nat) :
    stream (s.windowTouch window action id x y).2 touch =
      if touch ∈ (ofClient s.touchResources (s.touchClient window)).map Resource.id then
        touchOps action id x y else [] := by
  cases hw : s.window window with
  | none => simp [windowTouch, touchClient, hw, ofClient, stream]
  | some w =>
    rw [windowTouch_eq hw, stream_drainTouchOps (by exact hnd)]
    simp only [touchClient, hw, bind_some, injectTouchFromAction, injectTouchOps, hpend, nil_append]
    rfl

theorem windowTouch_frame (s : Server) (hpend : s.touchPending = []) (window : Nat)
    (action id x y : Int) :
    (s.windowTouch window action id x y).1.touchPending = [] ∧
    (s.windowTouch window action id x y).1.touchResources = s.touchResources ∧
    (s.windowTouch window action id x y).1.posted = s.posted := by
  cases hw : s.window window with
  | none =>
    unfold windowTouch
    rw [hw]
    exact ⟨hpend, rfl, rfl⟩
  | some w =>
    rw [windowTouch_eq hw]
    exact ⟨rfl, rfl, rfl⟩

theorem windowKey_frame (s : Server) (window : Nat) (code : Int) (down : Bool) :
    (s.windowKey window code down).1.touchPending = s.touchPending ∧
    (s.windowKey window code down).1.touchResources = s.touchResources ∧
    (s.windowKey window code down).1.posted = s.posted := by
  unfold windowKey sendKeyboardFocus
  split
  · exact ⟨rfl, rfl, rfl⟩
  · split
    · exact ⟨rfl, rfl, rfl⟩
    · split
      · exact ⟨rfl, rfl, rfl⟩
      · dsimp only
        split <;> exact ⟨rfl, rfl, rfl⟩

end Server

end

structure Gestures.Sorted (g : Gestures) : Prop where
  pending : g.system.server.touchPending = []
  held : g.held.ids.Nodup
  resources : (g.system.server.touchResources.map Resource.id).Nodup
  formed : ∀ r, Formed [] (stream g.system.sent r)
  agrees : ∀ r ∈ g.system.server.touchResources,
    g.held.Agrees r.client ((stream g.system.sent r.id).foldl lift [])

def Gestures.waiting (g : Gestures) : List TouchOp := g.system.server.posted.flatMap Task.ops

section
variable {g g' : Gestures} {a : System.Action}

theorem Gestures.Sorted.of_eq (h : g.Sorted) (hheld : g'.held = g.held)
    (hpend : g'.system.server.touchPending = g.system.server.touchPending)
    (hres : g'.system.server.touchResources = g.system.server.touchResources)
    (hstream : ∀ r, stream g'.system.sent r = stream g.system.sent r) : g'.Sorted := by
  refine ⟨hpend.trans h.pending, hheld ▸ h.held, hres ▸ h.resources, fun r => ?_, fun r hr => ?_⟩
  · rw [hstream]
    exact h.formed r
  · rw [hstream, hheld]
    exact h.agrees r (hres ▸ hr)

structure Gestures.Carries (g : Gestures) (ops : List TouchOp) (g' : Gestures) : Prop where
  orderly : ∀ rest, Orderly g.held.ids (g.waiting ++ (ops ++ rest)) → Orderly g'.held.ids
    (g'.waiting ++ rest)
  down : ∀ rest, (g'.waiting ++ rest).foldl press g'.held.ids =
    (g.waiting ++ (ops ++ rest)).foldl press g.held.ids

theorem Gestures.Carries.of_eq {ops : List TouchOp} (hheld : g'.held = g.held)
    (hw : g'.waiting = g.waiting ++ ops) : g.Carries ops g' := by
  constructor <;> intro rest <;> rw [hheld, hw, append_assoc]
  exact fun h => h

theorem Gestures.Carries.of_played {ops : List TouchOp} (hw : g.waiting = ops ++ g'.waiting)
    (hids : g'.held.ids = ops.foldl press g.held.ids) : g.Carries [] g' := by
  constructor
  · intro rest h
    rw [hw, nil_append, append_assoc, orderly_append] at h
    rw [hids]
    exact h.2
  · intro rest
    rw [hw, hids, nil_append, append_assoc]
    exact foldl_append.symm

theorem Held.ids_foldl (client : Option Nat) (held : Held) (ops : List TouchOp) :
    Held.ids (ops.foldl (Held.next client) held) = ops.foldl press held.ids := by
  induction ops generalizing held with
  | nil => rfl
  | cons op ops ih => rw [foldl_cons, foldl_cons, ih, Held.ids_next]

theorem mem_ofClient_ids {rs : List Resource} (hnd : (rs.map Resource.id).Nodup) {r : Resource}
    (hr : r ∈ rs) {client : Option Nat} :
    r.id ∈ (Server.ofClient rs client).map Resource.id ↔ client = some r.client := by
  constructor
  · intro hm
    obtain ⟨r', hr', he⟩ := List.mem_map.mp hm
    obtain ⟨hr', hc⟩ := mem_filter.mp hr'
    rw [← inj_on_of_nodup_map hnd hr' hr he]
    exact (of_decide_eq_true hc).symm
  · rintro rfl
    exact List.mem_map_of_mem (mem_filter.mpr ⟨hr, decide_eq_true rfl⟩)

variable {s : System}

namespace Gestures

namespace Sorted
variable (h : g.Sorted)
include h

theorem touch {window : Nat} {action id x y : Int}
    (hr : ∀ op ∈ Server.touchOps action id x y,
    Held.Reaches (g.system.server.touchClient window) g.held op)
    (ho : Orderly g.held.ids (Server.touchOps action id x y)) (hpend : s.server.touchPending = [])
    (hres : s.server.touchResources = g.system.server.touchResources)
    (hstream : ∀ r, stream s.sent r = stream g.system.sent r ++
      if r ∈ (Server.ofClient g.system.server.touchResources (g.system.server.touchClient window)).map
        Resource.id then Server.touchOps action id x y else []) :
    Sorted ⟨s, (Server.touchOps action id x y).foldl
      (Held.next (g.system.server.touchClient window)) g.held⟩ := by
  generalize g.system.server.touchClient window = client at *
  rcases Server.touchOps_cases action id x y with he | ⟨kind, he⟩
  · refine h.of_eq (by rw [he]; rfl) (hpend.trans h.pending.symm) hres fun r => ?_
    rw [hstream, he, ite_self, append_nil]
  · rw [he] at hr ho hstream ⊢
    -- The frame that closes the action does nothing to what is down, here and there.
    have hop := hr _ (mem_cons_self ..)
    refine ⟨hpend, Held.nodup_next h.held ⟨ho.1, trivial⟩, hres ▸ h.resources, fun r => ?_,
      fun r hr' => ?_⟩
    · rw [hstream, formed_append]
      refine ⟨h.formed r, ?_⟩
      split_ifs with hm
      · obtain ⟨r', hr', rfl⟩ := List.mem_map.mp hm
        have hmem := mem_of_mem_filter hr'
        obtain rfl := (mem_ofClient_ids h.resources hmem).mp hm
        exact ⟨((h.agrees r' hmem).delivered hop).1.1, by simp, trivial⟩
      · trivial
    · rw [hres] at hr'
      rw [hstream, foldl_append]
      by_cases hc : client = some r.client
      · rw [if_pos ((mem_ofClient_ids h.resources hr').mpr hc)]
        subst hc
        exact ((h.agrees r hr').delivered hop).2
      · rw [if_neg fun hm => hc ((mem_ofClient_ids h.resources hr').mp hm)]
        exact (h.agrees r hr').elsewhere h.held hop hc

theorem runPosted {s : System} (hok : g.Steady .runPosted)
    (ho : Orderly g.held.ids g.waiting) (hs : g.system.step .runPosted = some s) :
    Sorted ⟨s, g.grip .runPosted⟩ ∧ g.Carries [] ⟨s, g.grip .runPosted⟩ := by
  simp only [System.step] at hs
  split at hs
  case h_2 => cases hs
  case h_1 _ _ t ts hw hp =>
    cases hs
    cases t with
    | detach w =>
      have hgrip : g.grip .runPosted = g.held := by simp [grip, upcoming, hp]
      refine ⟨h.of_eq hgrip rfl rfl fun _ => rfl, .of_eq hgrip ?_⟩
      simp [waiting, hp, System.runTask, Task.ops]
    | key window code down =>
      have hgrip : g.grip .runPosted = g.held := by simp [grip, upcoming, hp]
      obtain ⟨hpend, hres, hpost⟩ :=
        Server.windowKey_frame { g.system.server with posted := ts } window code down
      refine ⟨h.of_eq hgrip hpend hres fun r => ?_, .of_eq hgrip ?_⟩
      · have hkey :=
          Server.stream_windowKey { g.system.server with posted := ts } window code down r
        exact (stream_append _ _ r).trans ((congrArg _ hkey).trans (append_nil _))
      · show flatMap _ (Server.posted _) = _
        simp [System.runTask, hpost, waiting, hp, Task.ops]
    | touch window action id x y =>
      have hup : upcoming g.system.server = some (window, Server.touchOps action id x y) := by
        simp [upcoming, hp]
      have hgrip : g.grip .runPosted = (Server.touchOps action id x y).foldl
          (Held.next (g.system.server.touchClient window)) g.held := by
        simp only [grip, hup]
      obtain ⟨hpend, hres, hpost⟩ := Server.windowTouch_frame { g.system.server with posted := ts }
        h.pending window action id x y
      have hwaiting : g.waiting = Server.touchOps action id x y ++ ts.flatMap Task.ops := by
        simp [waiting, hp, Task.ops]
      rw [hgrip]
      constructor
      · simp only [Steady, hup] at hok
        refine h.touch hok ?_ hpend hres fun r => ?_
        · rw [hwaiting, orderly_append] at ho
          exact ho.1
        · have hsent := Server.stream_windowTouch (s := { g.system.server with posted := ts })
            h.pending h.resources window action id x y r
          exact (stream_append _ _ r).trans (congrArg _ hsent)
      · refine .of_played (hwaiting.trans (congrArg _ ?_)) (Held.ids_foldl _ _ _)
        show _ = flatMap _ (Server.posted _)
        simp only [System.runTask, hpost]

theorem bindTouch {r : Resource}
    (hok : g.Steady (.request (.bindTouch r)))
    (hnew : g.system.Windowed (.request (.bindTouch r)))
    (hpend : s.server.touchPending = g.system.server.touchPending)
    (hres : s.server.touchResources = g.system.server.touchResources ++ [r])
    (hsent : s.sent = g.system.sent) : Sorted ⟨s, g.held⟩ := by
  refine ⟨hpend.trans h.pending, h.held, ?_, fun r' => hsent ▸ h.formed r', fun r' hr' => ?_⟩
  · rw [hres, map_append, nodup_append]
    refine ⟨h.resources, by simp, fun i hi j hj => ?_⟩
    obtain ⟨r', hr', rfl⟩ := List.mem_map.mp hi
    rw [mem_singleton.mp hj]
    exact hnew.1 r' hr'
  · rw [hsent]
    rw [hres] at hr'
    rcases mem_append.mp hr' with hr' | hr'
    · exact h.agrees r' hr'
    · -- Nothing was sent on the new `wl_touch`, and its client holds nothing.
      rw [mem_singleton.mp hr']
      have hnil : stream g.system.sent r.id = [] := by
        rw [stream, filterMap_eq_nil_iff]
        intro e he
        have hne := hnew.2 e he
        split
        · exact if_neg hne
        · rfl
      intro id
      rw [hnil]
      exact ⟨nofun, fun hm => absurd rfl (hok _ hm)⟩

theorem after_step (hok : g.Steady a)
    (hw : g.system.Windowed a) (ho : Orderly g.held.ids g.waiting) (hs : g.system.step a = some s) :
    Sorted ⟨s, g.grip a⟩ ∧ g.Carries a.ops ⟨s, g.grip a⟩ := by
  cases ha : a.isTouch with
  | false =>
    have hu := System.step_untouched hs ha
    have hgrip : g.grip a = g.held := by
      cases a <;> first | rfl | cases ha
    have hops : a.ops = [] := by
      cases a <;> first | rfl | cases ha
    refine ⟨h.of_eq hgrip hu.pending hu.resources hu.stream, .of_eq hgrip ?_⟩
    rw [hops, append_nil]
    exact hu.posted
  | true =>
    cases a with
    | runPosted => exact h.runPosted hok ho hs
    | injectTouchOps => exact hw.elim
    | drainTouchOps =>
      obtain ⟨-, ⟨⟩⟩ := ite_none_right_eq_some.mp hs
      refine ⟨h.of_eq rfl h.pending.symm rfl fun r => ?_, .of_eq rfl (append_nil _).symm⟩
      have hnone := Server.stream_drainTouchOps h.resources r
      rw [h.pending, ite_self] at hnone
      exact (stream_append _ _ r).trans ((congrArg _ hnone).trans (append_nil _))
    | windowInput t =>
      obtain ⟨-, ⟨⟩⟩ := ite_none_right_eq_some.mp hs
      refine ⟨h.of_eq rfl rfl rfl fun _ => rfl, .of_eq rfl ?_⟩
      simp [waiting, Server.post, System.Action.ops]
    | request r =>
      obtain ⟨-, ⟨⟩⟩ := ite_none_right_eq_some.mp hs
      cases r with
      | bindTouch r =>
        exact ⟨h.bindTouch hok hw rfl rfl rfl, .of_eq rfl (append_nil _).symm⟩
      | releaseTouch id =>
        refine ⟨{ h with
          resources := h.resources.sublist (filter_sublist.map _)
          agrees := fun r hr => h.agrees r (mem_of_mem_filter hr) }, .of_eq rfl (append_nil _).symm⟩
      | _ => cases ha
    | _ => cases ha

theorem after_run {as : List System.Action}
    (hok : Along step Steady g as)
    (hw : Along System.step System.Windowed g.system as)
    (ho : Orderly g.held.ids (g.waiting ++ as.flatMap System.Action.ops))
    (hs : run System.step g.system as = some s) :
    ∃ held, Sorted ⟨s, held⟩ ∧
      (waiting ⟨s, held⟩).foldl press held.ids =
        (g.waiting ++ as.flatMap System.Action.ops).foldl press g.held.ids := by
  induction as generalizing g with
  | nil =>
    cases hs
    exact ⟨g.held, h, by rw [flatMap_nil, append_nil]⟩
  | cons a as ih =>
    obtain ⟨s₁, h₁, h₂⟩ := run_cons_inv hs
    rw [flatMap_cons] at ho ⊢
    have hwait := (orderly_append.mp ho).1
    obtain ⟨hsorted, hcarries⟩ := h.after_step hok.1 hw.1 hwait h₁
    have hstep : g.step a = some ⟨s₁, g.grip a⟩ := by simp [step, h₁]
    obtain ⟨held, hheld, hdown⟩ := ih hsorted (hok.2 _ hstep) (hw.2 _ h₁) (hcarries.orderly _ ho) h₂
    exact ⟨held, hheld, hdown.trans (hcarries.down _)⟩

end Sorted

end Gestures

end

/-- **The touch streams.** On every `wl_touch` only an id that is down moves or goes up; and once
every action has run, an id that is down there is a pointer that is down. -/
theorem touch_streams_formed {as : List System.Action} {s : System}
    (hs : run System.step System.started as = some s)
    (hw : Along System.step System.Windowed System.started as)
    (ho : Orderly [] (as.flatMap System.Action.ops))
    (hok : Along Gestures.step Gestures.Steady ⟨System.started, []⟩ as) :
    (∀ r, Formed [] (stream s.sent r)) ∧
    ((∀ t ∈ s.server.posted, t.ops = []) →
      ∀ r ∈ s.server.touchResources, ∀ id ∈ (stream s.sent r.id).foldl lift [],
        id ∈ (as.flatMap System.Action.ops).foldl press []) := by
  have hstart : Gestures.Sorted ⟨System.started, []⟩ :=
    ⟨rfl, nodup_nil, nodup_nil, fun _ => trivial, nofun⟩
  obtain ⟨held, h, hdown⟩ := hstart.after_run hok hw ho hs
  refine ⟨h.formed, fun hdone r hr id hid => ?_⟩
  have hnone : Gestures.waiting ⟨s, held⟩ = [] := flatMap_eq_nil_iff.mpr hdone
  rw [hnone] at hdown
  rw [show (as.flatMap System.Action.ops).foldl press [] = Held.ids held from hdown.symm]
  exact List.mem_map_of_mem ((h.agrees r hr id).mp hid)

/-- Pointer 0 goes down and up again; pointer 1 goes down and is cancelled. -/
def oneGesture : List System.Action :=
  [.request (.bindTouch ⟨1, 1⟩), .attachWindow [], .request (.createSurface ⟨1, 1, 0⟩),
    .request (.getToplevel (some 1)), .commit 1 1 (some 1) false,
    .windowInput (.touch 1 2 0 10 20), .runPosted, .windowInput (.touch 1 4 0 10 20), .runPosted,
    .windowInput (.touch 1 2 1 30 40), .runPosted, .windowInput (.touch 1 1 1 30 40), .runPosted]

theorem touch_streams_formed_oneGesture :
    ∃ s, run System.step System.started oneGesture = some s ∧
      stream s.sent 1 = [⟨.down, 0, 10, 20⟩, ⟨.frame, 0, 0, 0⟩, ⟨.up, 0, 10, 20⟩, ⟨.frame, 0, 0, 0⟩,
        ⟨.down, 1, 30, 40⟩, ⟨.frame, 0, 0, 0⟩, ⟨.cancel, 1, 30, 40⟩, ⟨.frame, 0, 0, 0⟩] ∧
      ∀ r, Formed [] (stream s.sent r) := by
  refine ⟨_, rfl, by decide, (@touch_streams_formed oneGesture _ rfl ?_ ?_ ?_).1⟩
  · refine along_cons ⟨nofun, nofun⟩ rfl (along_of_forall ?_ _)
    simp [System.Windowed]
  · exact ⟨by decide, trivial, by decide, trivial, by decide, trivial, by decide, trivial, trivial⟩
  · refine along_cons nofun rfl ?_
    iterate 5 refine along_cons trivial rfl ?_
    refine along_cons ?_ rfl (along_cons trivial rfl (along_cons ?_ rfl (along_cons trivial rfl
      (along_cons ?_ rfl (along_cons trivial rfl (along_cons ?_ rfl trivial))))))
    · show ∀ op ∈ [⟨.down, 0, 10, 20⟩, ⟨.frame, 0, 0, 0⟩], Held.Reaches (some 1) [] op
      simp [Held.Reaches]
    · show ∀ op ∈ [⟨.up, 0, 10, 20⟩, ⟨.frame, 0, 0, 0⟩], Held.Reaches (some 1) [(0, some 1)] op
      simp [Held.Reaches]
    · show ∀ op ∈ [⟨.down, 1, 30, 40⟩, ⟨.frame, 0, 0, 0⟩], Held.Reaches (some 1) [] op
      simp [Held.Reaches]
    · show ∀ op ∈ [⟨.cancel, 1, 30, 40⟩, ⟨.frame, 0, 0, 0⟩], Held.Reaches (some 1) [(1, some 1)] op
      simp [Held.Reaches]

def splitGesture : List System.Action :=
  [.request (.bindTouch ⟨1, 1⟩), .request (.bindTouch ⟨2, 2⟩), .attachWindow [],
    .request (.createSurface ⟨1, 1,
    0⟩), .request (.getToplevel (some 1)), .request (.createSurface ⟨2, 2, 0⟩),
    .request (.getToplevel (some
    2)), .commit 1 1 (some 1) false, .windowInput (.touch 1 2 0 10 20), .runPosted,
    .commit 2 2 (some 1) false, .windowInput (.touch 1 4 0 10 20), .runPosted]

theorem split_gesture :
    ∃ s, run System.step System.started splitGesture = some s ∧
      Along System.step System.Windowed System.started splitGesture ∧
      Orderly [] (splitGesture.flatMap System.Action.ops) ∧ s.server.posted = [] ∧
      ¬ Formed [] (stream s.sent 2) ∧ (stream s.sent 1).foldl lift [] = [0] ∧
      (splitGesture.flatMap System.Action.ops).foldl press [] = [] := by
  refine ⟨_, rfl, ?_, ⟨by decide, trivial, by decide, trivial, trivial⟩, rfl, fun h => ?_,
    by decide, by decide⟩
  · refine along_cons ⟨nofun, nofun⟩ rfl (along_cons ⟨by decide, nofun⟩ rfl (along_of_forall ?_ _))
    simp [System.Windowed]
  · have hup : Formed [] [⟨.up, 0, 10, 20⟩, ⟨.frame, 0, 0, 0⟩] := h
    exact absurd (hup.1 (.inr rfl)) not_mem_nil

end OniroSoc.Compositor

import OniroSoc.Support.Runs

/-!
# The default route that the launcher copies into table `main`

A child of waydroidd puts a copy of the uplink's default route into table `main` every fifteen
seconds.  When the container has gone, `nat_teardown` looks for the uplink again and deletes the
copy of what it finds then, while the child is still running.
-/

namespace OniroSoc.Launcher.Uplink
open Support

def tableMain : Nat := 254

structure RouteMsg where
  inet : Bool := true
  dstLen : Nat := 0
  unicast : Bool := true
  gw : Nat
  oif : Int := 0
  table : Nat
  metric : Nat := 0
deriving DecidableEq

inductive Message where
  | newRoute (route : RouteMsg)
  | done
  | error
  | other
deriving DecidableEq

structure Route where
  gw : Nat
  oif : Int
deriving DecidableEq

def RouteMsg.isDefault (r : RouteMsg) : Bool := r.inet && r.dstLen = 0 && r.unicast

def RouteMsg.isUplink (r : RouteMsg) : Bool := r.isDefault && r.gw ≠ 0 && r.table ≠ tableMain

def RouteMsg.route (r : RouteMsg) : Route := ⟨r.gw, r.oif⟩

def scan (metric : Nat) (found : Option Route) : List Message → Option Route
  | [] => found
  | .done :: _ => found
  | .error :: _ => found
  | .other :: msgs => scan metric found msgs
  | .newRoute r :: msgs =>
    if r.isUplink && r.metric < metric then scan r.metric (some r.route) msgs
      else scan metric found msgs

def findUplinkDefault (dump : Option (List Message)) : Option Route :=
  dump.bind (scan 0xffffffff none)

inductive Child where
  | absent
  | waiting
  | found (route : Route)
  | killed
deriving DecidableEq

inductive Parent where
  | running
  | tearing
  | found (route : Route)
  | tornDown
  | exited
deriving DecidableEq

structure System where
  routes : List RouteMsg := []
  main : Option Route := none
  child : Child := .absent
  parent : Parent := .running

inductive DumpEnv where
  | failed
  | cut (n : Nat)
  | complete

inductive Action where
  | host (routes : List RouteMsg) (keep : Bool)
  | spawn (ok : Bool)
  | childFind (env : DumpEnv)
  | childSet (ok : Bool) (resolved : Int)
  | teardown
  | parentFind (env : DumpEnv)
  | parentDel (ok : Bool)
  | exit

def System.dump (s : System) (env : DumpEnv) : Option (List Message) :=
  let copy := s.main.toList.map fun r => { gw := r.gw, oif := r.oif, table := tableMain : RouteMsg }
  let msgs := (copy ++ s.routes).map Message.newRoute
  match env with
  | .failed => none
  | .cut n => some (msgs.take n)
  | .complete => some (msgs ++ [.done])

def Route.deletes (request installed : Route) : Prop :=
  request.gw = installed.gw ∧ (0 < request.oif → request.oif = installed.oif)

instance (request installed : Route) : Decidable (request.deletes installed) :=
  inferInstanceAs (Decidable (_ ∧ _))

def System.newRoute (s : System) (route : Route) (ok : Bool) (resolved : Int) : System :=
  if ok then { s with main := some ⟨route.gw, if 0 < route.oif then route.oif else resolved⟩ }
    else s

def System.delRoute (s : System) (route : Route) (ok : Bool) : System :=
  { s with main := s.main.filter fun installed => !(ok && route.deletes installed) }

def step (s : System) : Action → Option System
  | .host routes keep => some { s with routes, main := if keep then s.main else none }
  | .spawn ok =>
    if s.parent = .running ∧
      s.child = .absent then some { s with child := if ok then .waiting else .absent }
    else none
  | .childFind env =>
    if s.child = .waiting then
      match findUplinkDefault (s.dump env) with
      | none => some s
      | some route => some { s with child := .found route }
    else none
  | .childSet ok resolved =>
    match s.child with
    | .found route => some { s.newRoute route ok resolved with child := .waiting }
    | _ => none
  | .teardown => if s.parent = .running then some { s with parent := .tearing } else none
  | .parentFind env =>
    if s.parent = .tearing then
      match findUplinkDefault (s.dump env) with
      | none => some { s with parent := .tornDown }
      | some route => some { s with parent := .found route }
    else none
  | .parentDel ok =>
    match s.parent with
    | .found route => some { s.delRoute route ok with parent := .tornDown }
    | _ => none
  | .exit =>
    if s.parent = .tornDown then some { s with parent := .exited, child := .killed } else none

def Over (s : System) : Prop := s.parent = .tornDown ∨ s.parent = .exited

def Fits (s : System) : Action → Prop
  | .childSet ok _ => s.parent = .tornDown → ok = false
  | .parentFind env => findUplinkDefault (s.dump env) = none → s.main = none
  | .parentDel ok => ∀ route installed, s.parent = .found route → s.main = some installed →
      ok = true ∧ route.deletes installed
  | _ => True

structure Inv (s : System) : Prop where
  clean : Over s → s.main = none
  dead : s.parent = .exited → s.child = .killed

section Steps
variable {s s' : System} {a : Action}

theorem delRoute_eq_none {route : Route} {ok : Bool} : (s.delRoute route ok).main = none ↔
    ∀ installed, s.main = some installed → ok = true ∧ route.deletes installed := by
  rw [System.delRoute]
  cases s.main with
  | none => simp
  | some installed => simp [Option.filter]

theorem Inv.parent_ne_exited (h : Inv s) (hchild : s.child ≠ .killed) : s.parent ≠ .exited :=
  fun hexited => hchild (h.dead hexited)

theorem inv_of_busy (htorn : s.parent ≠ .tornDown) (hexited : s.parent ≠ .exited) : Inv s :=
  ⟨fun hover => (hover.elim htorn hexited).elim, fun h => absurd h hexited⟩

theorem newRoute_parent (s : System) (route : Route) (ok : Bool) (resolved : Int) :
    (s.newRoute route ok resolved).parent = s.parent := by
  rw [System.newRoute]
  split_ifs <;> rfl

theorem step_inv (h : Inv s) (hfits : Fits s a) (hstep : step s a = some s') : Inv s' := by
  cases a with
  | host routes keep =>
    cases hstep
    refine ⟨fun hover => ?_, h.dead⟩
    cases keep with
    | false => rfl
    | true => exact h.clean hover
  | spawn ok =>
    rw [step] at hstep
    split at hstep
    · rename_i hfirst
      cases hstep
      exact ⟨h.clean, fun hexited => absurd (hfirst.1.symm.trans hexited) nofun⟩
    · cases hstep
  | childFind env =>
    rw [step] at hstep
    split_ifs at hstep with hwaiting
    have halive := h.parent_ne_exited (by rw [hwaiting]; nofun)
    split at hstep
    · cases hstep
      exact h
    · cases hstep
      exact ⟨h.clean, fun hexited => absurd hexited halive⟩
  | childSet ok resolved =>
    rw [step] at hstep
    split at hstep
    · rename_i route hfound
      cases hstep
      have halive : s.parent ≠ .exited := h.parent_ne_exited (by rw [hfound]; nofun)
      have hparent := newRoute_parent s route ok resolved
      refine ⟨fun hover => ?_, fun hexited => absurd (hparent.symm.trans hexited) halive⟩
      have htorn : s.parent = .tornDown :=
        (hover.imp hparent.symm.trans hparent.symm.trans).resolve_right halive
      rw [hfits htorn]
      exact h.clean (.inl htorn)
    · cases hstep
  | teardown =>
    rw [step] at hstep
    split_ifs at hstep
    cases hstep
    exact inv_of_busy nofun nofun
  | parentFind env =>
    rw [step] at hstep
    split_ifs at hstep
    split at hstep
    · rename_i hnone
      cases hstep
      exact ⟨fun _ => hfits hnone, nofun⟩
    · cases hstep
      exact inv_of_busy nofun nofun
  | parentDel ok =>
    rw [step] at hstep
    split at hstep
    · rename_i route hfound
      cases hstep
      exact ⟨fun _ => delRoute_eq_none.mpr fun installed => hfits route installed hfound, nofun⟩
    · cases hstep
  | exit =>
    rw [step] at hstep
    split_ifs at hstep with htorn
    cases hstep
    exact ⟨fun _ => h.clean (.inl htorn), fun _ => rfl⟩

theorem step_left (hfits : ¬ Fits s a) (hstep : step s a = some s') : Over s' ∧ s'.main ≠ none := by
  cases a with
  | childSet ok resolved =>
    obtain ⟨htorn, hok⟩ := Classical.not_imp.mp hfits
    rw [step] at hstep
    split at hstep
    · rename_i route _
      cases hstep
      refine ⟨.inl ((newRoute_parent s route ok resolved).trans htorn), ?_⟩
      rw [System.newRoute, if_pos (Bool.eq_true_of_not_eq_false hok)]
      exact Option.some_ne_none _
    · cases hstep
  | parentFind env =>
    obtain ⟨hnone, hmain⟩ := Classical.not_imp.mp hfits
    rw [step] at hstep
    split_ifs at hstep
    rw [hnone] at hstep
    cases hstep
    exact ⟨.inl rfl, hmain⟩
  | parentDel ok =>
    rw [step] at hstep
    split at hstep
    · rename_i route hfound
      cases hstep
      refine ⟨.inl rfl, fun hnone => hfits fun route' installed hfound' hmain => ?_⟩
      cases hfound.symm.trans hfound'
      exact delRoute_eq_none.mp hnone installed hmain
    · cases hstep
  | _ => exact absurd trivial hfits

end Steps

section Runs
variable {actions : List Action} {s : System}

theorem tornDown_iff (hrun : run step {} actions = some s) :
    Always step (fun s => Over s → s.main = none) {} actions ↔ Along step Fits {} actions :=
  always_iff_along (J := Inv) (fun _ h => h.clean) (fun _ _ _ => step_inv)
    (fun _ _ _ _ hfits hstep hclean =>
    (step_left hfits hstep).2 (hclean (step_left hfits hstep).1)) hrun (inv_of_busy nofun nofun)

/-- **No default route is left behind** if the search of `nat_teardown` finds the route that the
child installed last, its deletion succeeds and the child installs none after it. -/
theorem no_route_left (hfits : Along step Fits {} actions) (hrun : run step {} actions = some s)
    (hexited : s.parent = .exited) : s.main = none :=
  ((tornDown_iff hrun).mpr hfits).last hrun (.inr hexited)

def wlan : RouteMsg := { gw := 0xC0A80101, oif := 3, table := 1003 }

def steady : List Action :=
  [.host [wlan] true, .spawn true, .childFind .complete, .childSet true 0, .teardown,
    .parentFind .complete, .parentDel true, .exit]

theorem no_route_left_steady :
    ∃ s, run step {} steady = some s ∧ s.parent = .exited ∧ s.main = none := by
  have hfits : Along step Fits {} steady := by
    refine along_cons trivial rfl (along_cons trivial rfl (along_cons trivial rfl ?_))
    refine along_cons nofun rfl (along_cons trivial rfl (along_cons nofun rfl ?_))
    refine along_cons (fun route installed hroute hinstalled => ?_) rfl
      (along_cons trivial rfl trivial)
    cases hroute
    cases hinstalled
    exact ⟨rfl, by decide⟩
  exact ⟨_, rfl, rfl, no_route_left hfits rfl rfl⟩

theorem route_left :
    (∃ s, run step {}
        ([.host [wlan] true, .spawn true, .childFind .complete, .childSet true 0, .teardown,
          .host [] true, .parentFind .complete, .exit]) = some s ∧
      s.parent = .exited ∧ s.main = some wlan.route) ∧
    (∃ s, run step {}
        ([.host [wlan] true, .spawn true, .childFind .complete, .childSet true 0, .teardown,
          .host [{ wlan with oif := 4 }] true, .parentFind .complete, .parentDel true,
          .exit]) = some s ∧
      s.parent = .exited ∧ s.main = some wlan.route) ∧
    (∃ s, run step {}
        ([.host [wlan] true, .spawn true, .childFind .complete, .childSet true 0, .teardown,
          .childFind .complete, .parentFind .complete, .parentDel true, .childSet true 0,
          .exit]) = some s ∧
      s.parent = .exited ∧ s.main = some wlan.route) :=
  ⟨⟨_, rfl, rfl, rfl⟩, ⟨_, rfl, rfl, rfl⟩, ⟨_, rfl, rfl, rfl⟩⟩

end Runs

end OniroSoc.Launcher.Uplink

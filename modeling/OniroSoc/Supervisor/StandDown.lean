import OniroSoc.Supervisor.Script

/-!
# Waydroid supervisor — standing down

`stand_down` asks init to stop the supervisor.  The comment over it has it "tear down whatever runs"
first, but the three tests of the gate do not ask for that, and neither does the wait for images.
-/

namespace OniroSoc.Supervisor

open Support List Option

/-! ### Processes that end -/

def Prog.armed : Prog → Bool
  | .container (some _) armed => armed
  | _ => false

theorem Prog.armed_inv {prog : Prog} (h : prog.armed = true) :
    ∃ parent, prog = .container (some parent) true := by
  cases prog with
  | container parent armed =>
    cases parent with
    | none => cases h
    | some parent =>
      obtain rfl : armed = true := h
      exact ⟨parent, rfl⟩
  | _ => cases h

namespace World

variable {w : World} {dead : Proc → Bool} {k : Kind} {p : Proc}

theorem survives_kind {q : Proc} (h : w.survives dead p = some q) :
    q.prog.kind = p.prog.kind ∧ dead p = false := by
  unfold survives at h
  split at h
  · cases h
  · rename_i hdead
    refine ⟨?_, Bool.not_eq_true _ ▸ hdead⟩
    split at h
    · rename_i hprog
      split at h
      · split at h
        · cases h
        · cases h; rw [hprog]; rfl
      · cases h; rfl
    · cases h; rfl

theorem Has.of_kill (h : (w.kill dead).Has k) :
    ∃ p ∈ w.procs, p.prog.kind = k ∧ dead p = false := by
  obtain ⟨q, hq, hk⟩ := h
  obtain ⟨p, hp, hs⟩ := mem_filterMap.mp hq
  obtain ⟨hkind, hdead⟩ := survives_kind hs
  exact ⟨p, hp, hkind.symm.trans hk, hdead⟩

theorem not_has_killall (k : Kind) : ¬ (w.kill (·.prog.kind == k)).Has k := by
  intro h
  obtain ⟨p, -, hk, hdead⟩ := h.of_kill
  rw [hk, beq_self_eq_true] at hdead
  cases hdead

def Parented (w : World) : Prop :=
  ∀ p ∈ w.procs, ∀ parent armed, p.prog = .container (some parent) armed →
    ∃ q ∈ w.procs, q.pid = parent ∧ q.prog.kind = .waydroidd

def Armed (w : World) : Prop := ∀ p ∈ w.procs, p.prog.kind = .container → p.prog.armed = true

instance : Decidable w.Armed := inferInstanceAs (Decidable (∀ p ∈ w.procs, _))

instance : Decidable (w.Has k) := inferInstanceAs (Decidable (∃ p ∈ w.procs, _))

theorem not_has_container (hpar : w.Parented) (harm : w.Armed) :
    ¬ (w.kill (·.prog.kind == .waydroidd)).Has .container := by
  rintro ⟨q, hq, hk⟩
  obtain ⟨p, hp, hs⟩ := mem_filterMap.mp hq
  obtain ⟨hkind, hdead⟩ := survives_kind hs
  obtain ⟨parent, hprog⟩ := Prog.armed_inv (harm p hp (hkind.symm.trans hk))
  obtain ⟨r, hr, hpid, hrk⟩ := hpar p hp parent true hprog
  have hany : w.procs.any (fun q => q.pid == parent && q.prog.kind == .waydroidd) = true :=
    List.any_eq_true.mpr ⟨r, hr, by simp [hpid, hrk]⟩
  unfold survives at hs
  rw [if_neg (by simp [hdead]), hprog] at hs
  simp only [hany, if_true] at hs
  cases hs

theorem survives_container {q : Proc} {parent : Nat} {armed : Bool}
    (h : w.survives dead p = some q) (hq : q.prog = .container (some parent) armed) :
    q = p ∧ ∀ r ∈ w.procs, r.pid = parent → dead r = false := by
  unfold survives at h
  split at h
  · cases h
  · split at h
    · rename_i hprog
      split at h
      · split at h
        · cases h
        · cases h
          cases hq
      · rename_i hany
        cases h
        rw [hprog] at hq
        cases hq
        refine ⟨rfl, fun r hr hpid => ?_⟩
        by_contra hdead
        exact hany (List.any_eq_true.mpr ⟨r, hr, by simp [hpid, hdead]⟩)
    · rename_i hprog
      cases h
      exact absurd hq (hprog _ _)

theorem survives_waydroidd (hk : p.prog.kind = .waydroidd) (hdead : dead p = false) :
    w.survives dead p = some p := by
  obtain ⟨pid, prog⟩ := p
  cases prog with
  | waydroidd child => simp [survives, hdead]
  | _ => cases hk

theorem Parented.kill (h : w.Parented) : (w.kill dead).Parented := by
  intro q hq parent armed hprog
  obtain ⟨p, hp, hs⟩ := mem_filterMap.mp hq
  obtain ⟨rfl, hlive⟩ := survives_container hs hprog
  obtain ⟨r, hr, hpid, hk⟩ := h q hp parent armed hprog
  exact ⟨r, mem_filterMap.mpr ⟨r, hr, survives_waydroidd hk (hlive r hr hpid)⟩, hpid, hk⟩

theorem Parented.map (h : w.Parented) {f : Proc → Proc} (hpid : ∀ p, (f p).pid = p.pid)
    (hkind : ∀ p, (f p).prog.kind = p.prog.kind)
    (hparent : ∀ p parent armed, (f p).prog = .container (some parent) armed →
      ∃ armed', p.prog = .container (some parent) armed') :
    { w with procs := w.procs.map f }.Parented := by
  intro q hq parent armed hprog
  obtain ⟨p, hp, rfl⟩ := List.mem_map.mp hq
  obtain ⟨armed', hp'⟩ := hparent p parent armed hprog
  obtain ⟨r, hr, hrpid, hk⟩ := h p hp parent armed' hp'
  exact ⟨f r, List.mem_map_of_mem hr, (hpid r).trans hrpid, (hkind r).trans hk⟩

theorem Parented.append (h : w.Parented)
    (hp : ∀ parent armed, p.prog = .container (some parent) armed →
      ∃ q ∈ w.procs, q.pid = parent ∧ q.prog.kind = .waydroidd) :
    { w with procs := w.procs ++ [p] }.Parented := by
  intro q hq parent armed hprog
  have hfind : ∃ r ∈ w.procs, r.pid = parent ∧ r.prog.kind = .waydroidd := by
    rcases mem_append.mp hq with hq | hq
    · exact h q hq parent armed hprog
    · cases mem_singleton.mp hq
      exact hp parent armed hprog
  obtain ⟨r, hr, hr'⟩ := hfind
  exact ⟨r, mem_append_left _ hr, hr'⟩

theorem Has.append (h : { w with procs := w.procs ++ [p] }.Has k) : w.Has k ∨ k = p.prog.kind := by
  obtain ⟨q, hq, hk⟩ := h
  rcases mem_append.mp hq with hq | hq
  · exact .inl ⟨q, hq, hk⟩
  · cases mem_singleton.mp hq
    exact .inr hk.symm

theorem Has.map {f : Proc → Proc} (hkind : ∀ p, (f p).prog.kind = p.prog.kind)
    (h : { w with procs := w.procs.map f }.Has k) : w.Has k := by
  obtain ⟨q, hq, hk⟩ := h
  obtain ⟨p, hp, rfl⟩ := List.mem_map.mp hq
  exact ⟨p, hp, (hkind p).symm.trans hk⟩

end World

namespace Proc

theorem cloned_pid (pid container : Nat) (p : Proc) : (p.cloned pid container).pid = p.pid := by
  unfold cloned
  split
  · rename_i h
    rw [h]
  · rfl

theorem cloned_kind (pid container : Nat) (p : Proc) :
    (p.cloned pid container).prog.kind = p.prog.kind := by
  unfold cloned
  split
  · rename_i h
    rw [h]
    rfl
  · rfl

theorem cloned_parent (pid container : Nat) (p : Proc) (parent : Nat) (armed : Bool)
    (h : (p.cloned pid container).prog = .container (some parent) armed) :
    ∃ armed', p.prog = .container (some parent) armed' := by
  unfold cloned at h
  split at h
  · cases h
  · exact ⟨armed, h⟩

theorem arm_pid (container : Nat) (p : Proc) : (p.arm container).pid = p.pid := by
  unfold arm
  split
  · split <;> rfl
  · rfl

theorem arm_kind (container : Nat) (p : Proc) : (p.arm container).prog.kind = p.prog.kind := by
  unfold arm
  split
  · rename_i h
    split
    · rw [h]
      rfl
    · rfl
  · rfl

theorem arm_parent (container : Nat) (p : Proc) (parent : Nat) (armed : Bool)
    (h : (p.arm container).prog = .container (some parent) armed) :
    ∃ armed', p.prog = .container (some parent) armed' := by
  unfold arm at h
  split at h
  · rename_i hp
    split at h
    · cases h
      exact ⟨_, hp⟩
    · exact ⟨armed, h⟩
  · exact ⟨armed, h⟩

end Proc

/-! ### What comes up by itself -/

structure Within (w w' : World) : Prop where
  procs : ∀ k, w'.Has k → k = .other ∨ w.Has k ∨ k = .container ∧ w.Has .waydroidd
  visible : w'.visible = true → w.visible = true ∨ w.Has .compositor
  grab : w'.grab = true → w.grab = true ∨ w.Has .compositor
  parented : w.Parented → w'.Parented

namespace Within

variable {w w' : World}

theorem of_eq (hp : w'.procs = w.procs) (hv : w'.visible = w.visible) (hg : w'.grab = w.grab) :
    Within w w' where
  procs k h := .inr (.inl (by rwa [World.Has, hp] at h))
  visible h := .inl (hv ▸ h)
  grab h := .inl (hg ▸ h)
  parented h := by rwa [World.Parented, hp]

theorem kill (dead : Proc → Bool) : Within w (w.kill dead) where
  procs k h := by
    obtain ⟨p, hp, hk, -⟩ := h.of_kill
    exact .inr (.inl ⟨p, hp, hk⟩)
  visible h := .inl h
  grab h := .inl h
  parented h := h.kill

theorem of_act {o : Outside} (h : w.act o = some w') : Within w w' := by
  cases o with
  | exit pid =>
    obtain ⟨-, ⟨⟩⟩ := ite_none_right_eq_some.mp h
    exact kill _
  | spawn pid =>
    obtain ⟨-, ⟨⟩⟩ := ite_none_left_eq_some.mp h
    refine ⟨fun k hk => ?_, .inl, .inl, fun hpar => hpar.append nofun⟩
    rcases hk.append with hk | hk
    · exact .inr (.inl hk)
    · exact .inl hk
  | clone pid container =>
    obtain ⟨⟨hmem, -⟩, ⟨⟩⟩ := ite_none_right_eq_some.mp h
    refine ⟨fun k hk => ?_, .inl, .inl, fun hpar => ?_⟩
    · have happend :=
        World.Has.append (w := { w with procs := w.procs.map (Proc.cloned pid container) }) hk
      rcases happend with hk | hk
      · exact .inr (.inl (hk.map (Proc.cloned_kind pid container)))
      · exact .inr (.inr ⟨hk, ⟨_, hmem, rfl⟩⟩)
    · have hmap := hpar.map (Proc.cloned_pid pid container) (Proc.cloned_kind pid container)
        (Proc.cloned_parent pid container)
      refine hmap.append ?_
      rintro parent armed ⟨⟩
      exact ⟨_, List.mem_map_of_mem hmem, Proc.cloned_pid _ _ _, Proc.cloned_kind _ _ _⟩
  | arm container =>
    cases h
    exact ⟨fun k hk => .inr (.inl (hk.map (Proc.arm_kind container))), .inl, .inl,
      fun hpar => hpar.map (Proc.arm_pid container) (Proc.arm_kind container)
      (Proc.arm_parent container)⟩
  | publish pid =>
    obtain ⟨c, -, rfl⟩ := map_eq_some_iff.mp h
    exact of_eq rfl rfl rfl
  | listen pid | firstFrame pid | openPulse pid =>
    obtain ⟨-, ⟨⟩⟩ := ite_none_right_eq_some.mp h
    exact of_eq rfl rfl rfl
  | setVisible pid b =>
    obtain ⟨hmem, ⟨⟩⟩ := ite_none_right_eq_some.mp h
    exact ⟨fun k hk => .inr (.inl hk), fun _ => .inr ⟨_, hmem, rfl⟩, .inl, id⟩
  | setGrab pid b =>
    obtain ⟨hmem, ⟨⟩⟩ := ite_none_right_eq_some.mp h
    exact ⟨fun k hk => .inr (.inl hk), .inl, fun _ => .inr ⟨_, hmem, rfl⟩, id⟩
  | setImages d sig => cases d <;> cases h <;> exact of_eq rfl rfl rfl
  | setParams enabled autostart idleStop =>
    cases h
    exact of_eq rfl rfl rfl
  | setControl text =>
    cases h
    exact of_eq rfl rfl rfl

theorem sweep (container : Option Nat) (c : Sweep) : Within w (w.sweep container c) := by
  cases c with
  | readPid | clearFrames | removeSocket | removePid => exact of_eq rfl rfl rfl
  | killContainer =>
    cases container with
    | none => exact of_eq rfl rfl rfl
    | some pid => exact kill _
  | killWaydroidd | killCompositor | killAudio => exact kill _
  | clearVisible => exact ⟨fun k hk => .inr (.inl hk), nofun, .inl, id⟩
  | clearGrab => exact ⟨fun k hk => .inr (.inl hk), .inl, nofun, id⟩

theorem assign (ctl : Settings) (a : Assign) : Within w (w.assign ctl a) := by
  cases a <;> exact of_eq rfl rfl rfl

theorem of_exec {sh : Shell} {env : Answer} {next : Option Shell}
    (h : sh.exec w env = some (w', next)) (hp : sh.point.launches = none) : Within w w' := by
  cases Shell.exec_effect h with
  | silent | status => exact of_eq rfl rfl rfl
  | assign => exact assign _ _
  | sweep => exact sweep _ _
  | launch hlaunch => exact absurd (hp.symm.trans hlaunch) nofun

theorem parented_exec {sh : Shell} {env : Answer} {next : Option Shell} (hpar : w.Parented)
    (h : sh.exec w env = some (w', next)) : w'.Parented := by
  cases Shell.exec_effect h with
  | silent | status => exact hpar
  | assign => exact (assign _ _).parented hpar
  | sweep => exact (sweep _ _).parented hpar
  | @launch prog _ hp hlaunch =>
    obtain ⟨-, ⟨⟩⟩ := ite_none_left_eq_some.mp hlaunch
    refine hpar.append ?_
    rintro parent armed rfl
    cases hpoint : sh.point <;> rw [hpoint] at hp <;> cases hp

end Within

/-! ### What a teardown has achieved -/

/-- No compositor, audio server, `waydroidd` or container is alive, and `waydroid.session.visible`
and `waydroid.input.grab` are 0. -/
structure Quiet (w : World) : Prop where
  procs : ∀ p ∈ w.procs, p.prog.kind = .other
  visible : w.visible = false
  grab : w.grab = false

def Sweep.gone : Sweep → List Kind
  | .readPid | .killContainer | .killWaydroidd => []
  | .killCompositor => [.waydroidd, .container]
  | .killAudio => [.waydroidd, .container, .compositor]
  | _ => [.waydroidd, .container, .compositor, .audio]

def Sweep.Done (w : World) (c : Sweep) : Prop :=
  (∀ k ∈ c.gone, ¬ w.Has k) ∧
    match c with
    | .clearGrab => w.visible = false
    | .removeSocket | .removePid => w.visible = false ∧ w.grab = false
    | _ => True

def Point.Holds (w : World) (started : Bool) : Point → Prop
  | .sweep c _ => c.Done w
  | .awaitSocket _ | .startAudio | .awaitPulse _ | .startWaydroidd => started = true
  | .askStop | .asked => Quiet w
  | _ => True

variable {w w' : World} {started : Bool}

theorem Quiet.not_has {k : Kind} (h : Quiet w) (hk : k ≠ .other) : ¬ w.Has k := by
  rintro ⟨p, hp, rfl⟩
  exact hk (h.procs p hp)

theorem Quiet.within (h : Quiet w) (hw : Within w w') : Quiet w' where
  procs p hp := by
    rcases hw.procs _ ⟨p, hp, rfl⟩ with hk | ⟨q, hq, hk⟩ | ⟨-, hk⟩
    · exact hk
    · exact hk ▸ h.procs q hq
    · exact absurd hk (h.not_has nofun)
  visible := by
    by_contra hv
    rcases hw.visible (Bool.eq_true_of_not_eq_false hv) with hv | hv
    · exact absurd (h.visible.symm.trans hv) nofun
    · exact absurd hv (h.not_has nofun)
  grab := by
    by_contra hg
    rcases hw.grab (Bool.eq_true_of_not_eq_false hg) with hg | hg
    · exact absurd (h.grab.symm.trans hg) nofun
    · exact absurd hg (h.not_has nofun)

namespace Sweep

variable {c : Sweep}

theorem not_has_within (h : ∀ k ∈ c.gone, ¬ w.Has k) (hw : Within w w') :
    ∀ k ∈ c.gone, ¬ w'.Has k := by
  intro k hk hhas
  rcases hw.procs k hhas with rfl | hhad | ⟨rfl, hhad⟩
  · cases c <;> exact absurd hk (by decide)
  · exact h k hk hhad
  · refine h .waydroidd ?_ hhad
    cases c <;> first | exact absurd hk (by decide) | exact .head _

theorem stays_cleared {b b' : Bool} (hgone : ∀ k ∈ c.gone, ¬ w.Has k)
    (hc : Kind.compositor ∈ c.gone) (hb : b' = true → b = true ∨ w.Has .compositor)
    (h : b = false) : b' = false := by
  by_contra hb'
  rcases hb (Bool.eq_true_of_not_eq_false hb') with ht | hhas
  · exact absurd (h.symm.trans ht) nofun
  · exact hgone _ hc hhas

theorem Done.within (h : c.Done w) (hw : Within w w') : c.Done w' := by
  obtain ⟨hgone, hparams⟩ := h
  refine ⟨not_has_within hgone hw, ?_⟩
  cases c with
  | clearGrab => exact stays_cleared hgone (by decide) hw.visible hparams
  | removeSocket | removePid =>
    exact ⟨stays_cleared hgone (by decide) hw.visible hparams.1,
      stays_cleared hgone (by decide) hw.grab hparams.2⟩
  | _ => trivial

theorem Done.quiet (h : Sweep.removePid.Done w) : Quiet w where
  procs p hp := by
    by_contra hk
    refine h.1 p.prog.kind ?_ ⟨p, hp, rfl⟩
    cases hkind : p.prog.kind with
    | other => exact absurd hkind hk
    | _ => decide
  visible := h.2.1
  grab := h.2.2

theorem gone_cons {k : Kind} {gone gone' : List Kind} (h : ∀ j ∈ gone, ¬ w.Has j) (hk : ¬ w.Has k)
    (hsub : ∀ j ∈ gone', j = k ∨ j ∈ gone) : ∀ j ∈ gone', ¬ w.Has j := by
  intro j hj
  rcases hsub j hj with rfl | hj
  · exact hk
  · exact h j hj

theorem Done.next (h : c.Done w) (container : Option Nat) (leave : Leave)
    (harm : c = .killWaydroidd → w.Parented ∧ w.Armed) :
    (c.next leave).Holds (w.sweep container c) started := by
  obtain ⟨hgone, hparams⟩ := h.within (Within.sweep container c)
  cases c with
  | readPid => exact ⟨nofun, trivial⟩
  | killContainer => exact ⟨nofun, trivial⟩
  | killWaydroidd =>
    obtain ⟨hpar, harmed⟩ := harm rfl
    refine ⟨fun k hk => ?_, trivial⟩
    rcases mem_pair.mp hk with rfl | rfl
    · exact World.not_has_killall _
    · exact World.not_has_container hpar harmed
  | killCompositor =>
    exact ⟨gone_cons hgone (World.not_has_killall .compositor) (by decide), trivial⟩
  | killAudio => exact ⟨gone_cons hgone (World.not_has_killall .audio) (by decide), trivial⟩
  | clearFrames => exact ⟨hgone, trivial⟩
  | clearVisible => exact ⟨hgone, rfl⟩
  | clearGrab => exact ⟨hgone, hparams, rfl⟩
  | removeSocket => exact ⟨hgone, hparams⟩
  | removePid =>
    cases leave with
    | rebuild => trivial
    | standDown => exact Done.quiet ⟨hgone, hparams⟩

end Sweep

theorem Point.Holds.within {p : Point} (h : p.Holds w started) (hw : Within w w') :
    p.Holds w' started := by
  cases p with
  | sweep c leave => exact Sweep.Done.within h hw
  | askStop | asked => exact Quiet.within h hw
  | awaitSocket i | awaitPulse j => exact h
  | startAudio | startWaydroidd => exact h
  | _ => trivial

/-! ### The script keeps it -/

def Shell.quits (sh : Shell) (w : World) : Bool :=
  match sh.point with
  | .gateEnabled => !w.enabled
  | .gateRun => sh.ctl.run == .off
  | .gatePolicy => !sh.demand && !w.autostart
  | .waited => !w.autostart && 60 ≤ sh.waited
  | _ => false

def Point.killsWaydroidd : Point → Bool
  | .sweep .killWaydroidd _ => true
  | _ => false

namespace Shell

variable {sh sh' : Shell} {env : Answer}

theorem holds_standDown : (sh.standDown).point.Holds w started := ⟨nofun, trivial⟩

theorem holds_returned (b : Bool) (site : Site) :
    (sh.returned w b site).point.Holds w' started := by
  cases site with
  | monitor =>
    dsimp only [returned]
    split <;> trivial
  | _ => trivial

theorem holds_pick : (sh.pick w).2.point.Holds w' started := by
  unfold pick
  split <;> trivial

theorem holds_verified (v : Verdict) : (sh.verified w v).2.point.Holds w' started := by
  cases v with
  | ok => exact ⟨nofun, trivial⟩
  | _ => trivial

theorem holds_beats : (sh.beats w).2.point.Holds w' started := by
  unfold beats
  dsimp only
  split <;> trivial

theorem holds_frame (frozen : Bool) : (sh.frame w frozen).2.point.Holds w' started := by
  unfold frame
  repeat' split
  all_goals trivial

theorem holds_idles : (sh.idles w).point.Holds w' started := by
  unfold idles
  split
  · trivial
  · split
    · exact holds_standDown
    · trivial

theorem holds_statusIf (b : Bool) (h : Quiet w) : Quiet (w.statusIf sh b) := by
  cases b with
  | false => exact h
  | true => exact h.within (.of_eq rfl rfl rfl)

theorem exec_holds (h : sh.exec w env = some (w', some sh')) (hp : sh.point.Holds w started)
    (hpar : w.Parented) (hquit : sh.quits w = true → Quiet w)
    (harm : sh.point.killsWaydroidd = true → w.Armed) :
    sh'.point.Holds w' (sh.point.started started) := by
  unfold exec at h
  cases hpoint : sh.point with rw [hpoint] at h hp
  | readControl site =>
    dsimp only at h
    split at h
    · cases h
      exact holds_returned _ _
    · cases h
      trivial
  | assign a site =>
    cases a with
    | seq =>
      cases h
      exact holds_returned _ _
    | _ =>
      cases h
      trivial
  | gateLoop | awaitPid =>
    cases h
    dsimp only [goto]
    split <;> trivial
  | gateEnabled =>
    dsimp only at h
    split at h
    · cases h
      trivial
    · rename_i hoff
      cases h
      exact holds_statusIf _ (hquit (by simp [quits, hpoint, hoff]))
  | gateRun =>
    dsimp only at h
    split at h
    · rename_i hoff
      cases h
      exact holds_statusIf _ (hquit (by simp [quits, hpoint, hoff]))
    · cases h
      trivial
  | gatePolicy =>
    cases h
    dsimp only [goto]
    split
    · rename_i hoff
      exact hquit (by simpa [quits, hpoint] using hoff)
    · trivial
  | outerEnabled | monitorImages =>
    dsimp only at h
    split at h
    · cases h
      trivial
    · cases h
      exact holds_standDown
  | outerRun | monitorRun =>
    dsimp only at h
    split at h
    · cases h
      exact holds_standDown
    · cases h
      trivial
  | pickImages =>
    cases h
    exact holds_pick
  | waited =>
    dsimp only at h
    split at h
    · rename_i hoff
      cases h
      exact hquit (by simpa [quits, hpoint] using hoff)
    · cases h
      trivial
  | verify =>
    cases h
    exact holds_verified _
  | sweep c leave =>
    have hnext : ∀ b container, (c.next leave).Holds (w.sweep container c) b := fun b container =>
      Sweep.Done.next hp container leave fun hc => ⟨hpar, harm (by rw [hpoint, hc]; rfl)⟩
    cases c with
    | readPid =>
      cases h
      exact hnext _ none
    | _ =>
      cases h
      exact hnext _ _
  | prepareGraft | readPid =>
    dsimp only at h
    split at h <;> cases h <;> trivial
  | startCompositor | startAudio | startWaydroidd =>
    obtain ⟨w₁, -, hw₁⟩ := map_eq_some_iff.mp h
    cases hw₁
    trivial
  | awaitSocket i =>
    dsimp only at h
    split at h
    · cases h
      exact hp
    · split at h
      · cases h
        trivial
      · cases h
        exact hp
  | awaitPulse j =>
    cases h
    dsimp only [goto]
    split <;> exact hp
  | monitorAlive =>
    cases h
    trivial
  | monitorEnabled =>
    dsimp only at h
    split at h
    · cases h
      exact holds_beats
    · cases h
      trivial
  | monitorFrame =>
    cases h
    exact holds_frame _
  | monitorIdle =>
    cases h
    exact holds_idles
  | askStop =>
    cases h
    exact hp
  | asked => cases h

end Shell

/-- A supervisor that stands down without a teardown does so only if no generation has been started
since the last one; and whenever `teardown` kills `waydroidd`, the containers that are left have
asked to end with it. -/
def Careful (s : State) : Action → Prop
  | .exec _ => ∀ sh ∈ s.shell,
      (sh.quits s.world = true → s.started = false) ∧ (sh.point.killsWaydroidd = true → s.world.Armed)
  | _ => True

instance (s : State) (a : Action) : Decidable (Careful s a) :=
  match a with
  | .exec _ => inferInstanceAs (Decidable (∀ sh ∈ s.shell, _))
  | .start _ | .kill | .outside _ | .reboot => inferInstanceAs (Decidable True)

structure Inv (s : State) : Prop where
  parented : s.world.Parented
  fresh : s.started = false → Quiet s.world
  point : ∀ sh, s.shell = some sh → sh.point.Holds s.world s.started

variable {s : State}

theorem Inv.within (h : Inv s) (hw : Within s.world w') : Inv { s with world := w' } where
  parented := hw.parented h.parented
  fresh hs := (h.fresh hs).within hw
  point sh hsh := (h.point sh hsh).within hw

theorem inv_exec {sh : Shell} {env : Answer} {next : Option Shell} (h : Inv s)
    (hsh : s.shell = some sh) (hcare : Careful s (.exec env))
    (hexec : sh.exec s.world env = some (w', next)) :
    Inv ⟨w', next, sh.point.started s.started⟩ := by
  obtain ⟨hquit, harm⟩ := hcare sh hsh
  have hpoint := h.point sh hsh
  refine ⟨Within.parented_exec h.parented hexec, fun hfresh => ?_, ?_⟩
  · -- the processes that start a generation are started after its compositor
    have hquiet : sh.point.launches = none ∧ Quiet s.world := by
      cases hp : sh.point with rw [hp] at hfresh hpoint
      | startCompositor => cases hfresh
      | startAudio | startWaydroidd => exact absurd (hpoint.symm.trans hfresh) nofun
      | sweep c leave =>
        cases c with
        | removePid => exact ⟨rfl, Sweep.Done.quiet hpoint⟩
        | _ => exact ⟨rfl, h.fresh hfresh⟩
      | _ => exact ⟨rfl, h.fresh hfresh⟩
    exact hquiet.2.within (Within.of_exec hexec hquiet.1)
  · rintro sh' rfl
    exact Shell.exec_holds hexec hpoint h.parented (fun hq => h.fresh (hquit hq)) harm

theorem inv_step {s' : State} {a : Action} (h : Inv s) (hcare : Careful s a)
    (hstep : step s a = some s') : Inv s' := by
  cases a with
  | start demand =>
    obtain ⟨-, ⟨⟩⟩ := ite_none_left_eq_some.mp hstep
    refine { h with point := ?_ }
    rintro sh ⟨⟩
    trivial
  | kill =>
    obtain ⟨-, ⟨⟩⟩ := ite_none_right_eq_some.mp hstep
    refine { h with point := ?_ }
    rintro sh ⟨⟩
  | exec env =>
    obtain ⟨sh, hsh, hmap⟩ := bind_eq_some_iff.mp hstep
    obtain ⟨⟨w', next⟩, hexec, rfl⟩ := map_eq_some_iff.mp hmap
    exact inv_exec h hsh hcare hexec
  | outside o =>
    obtain ⟨w', hact, rfl⟩ := map_eq_some_iff.mp hstep
    exact h.within (Within.of_act hact)
  | reboot =>
    cases hstep
    refine ⟨?_, fun _ => ⟨?_, rfl, rfl⟩, ?_⟩
    · rintro p ⟨⟩
    · rintro p ⟨⟩
    · rintro sh ⟨⟩

/-- **Standing down leaves nothing running**, if a supervisor that leaves out the teardown has
started nothing since the last one, and the containers have asked to end with `waydroidd` when
`teardown` kills it. -/
theorem quiet_when_asking {s s' : State} {actions : List Action} (hshell : s.shell = none)
    (hquiet : Quiet s.world) (hcare : Along step Careful s actions)
    (hrun : run step s actions = some s') {sh : Shell} (hsh : s'.shell = some sh)
    (hask : sh.point = .askStop ∨ sh.point = .asked) : Quiet s'.world := by
  have hinit : Inv s := by
    refine ⟨fun p hp parent armed hprog => ?_, fun _ => hquiet, fun sh hsh => ?_⟩
    · have hother := hquiet.procs p hp
      rw [hprog] at hother
      cases hother
    · exact absurd (hshell.symm.trans hsh) nofun
  have hinv : Inv s' := run_invariant_along (fun _ _ _ h hc hs => inv_step h hc hs) hcare hrun hinit
  have hpoint := hinv.point sh hsh
  rcases hask with hask | hask <;> rw [hask] at hpoint <;> exact hpoint

/-! ### What is left running -/

def switchedOff : List Action :=
  List.flatten [comesUp false, shows, [.outside (.setParams false false none)],
    List.replicate 16 exec]

def killed : List Action :=
  List.flatten [comesUp false, shows, [.kill, .outside (.setParams false false none), .start false],
    List.replicate 13 exec]

def unprovisioned : List Action :=
  List.flatten [comesUp true, shows, [.outside (.exit 13), .outside (.exit 12),
    .outside (.setImages .data none)], List.replicate 101 exec]

def tooEarly : List Action :=
  List.flatten [comesUp false, List.replicate 152 exec, [.outside (.setParams false false none)],
    List.replicate 4 exec, [.outside (.clone 12 13)], List.replicate 8 exec]

def State.asks (s : State) : Bool := s.shell.any fun sh => sh.point == .askStop

theorem quiet_when_switchedOff :
    ∃ s, run step (host true) switchedOff = some s ∧ s.asks = true ∧ Quiet s.world := by
  have hcheck : check step (fun s a => decide (Careful s a)) (host true) switchedOff = true := by
    decide +kernel
  have hany : (run step (host true) switchedOff).any State.asks = true := by decide +kernel
  obtain ⟨s, hrun, hasks⟩ := (Option.any_eq_true _ _).mp hany
  obtain ⟨sh, hsh, hask⟩ := (Option.any_eq_true _ _).mp hasks
  have hquiet : Quiet (host true).world := ⟨fun _ hp => absurd hp not_mem_nil, rfl, rfl⟩
  exact ⟨s, hrun, hasks, quiet_when_asking rfl hquiet
    (along_of_check (fun _ _ => of_decide_eq_true) hcheck) hrun hsh (.inl (beq_iff_eq.mp hask))⟩

theorem left_running :
    (∃ s, run step (host true) killed = some s ∧ s.asks = true ∧ s.world.Has .compositor ∧
       s.world.Has .audio ∧ s.world.Has .waydroidd ∧ s.world.Has .container ∧
       s.world.visible = true ∧ s.world.grab = true) ∧
    (∃ s, run step (host false) unprovisioned = some s ∧ s.asks = true ∧ s.world.Has .compositor ∧
       s.world.Has .audio ∧ s.world.visible = true ∧ s.world.grab = true) ∧
    ∃ s, run step (host true) tooEarly = some s ∧ s.asks = true ∧ s.world.Has .container := by
  refine ⟨exists_of_any ?_, exists_of_any ?_, exists_of_any ?_⟩ <;> decide +kernel

end OniroSoc.Supervisor

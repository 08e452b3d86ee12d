import OniroSoc.Supervisor.Control

/-!
# Waydroid supervisor — every change once

The supervisor applies a change whose `seq` is not the one it applied last.  Every change is applied
once in every interleaving with the app, under conditions that the two programs do not see to.
-/

namespace OniroSoc.Supervisor

open Support List Option

/-! ### Where the script is -/

namespace Point

def reading : Point → Bool
  | .readControl _ => true
  | _ => false

def applying : Point → Bool
  | .assign _ _ => true
  | _ => false

def switching : Point → Bool
  | .assign .enabled _ => true
  | _ => false

def atStart : Point → Bool
  | .readControl .start | .assign _ .start => true
  | _ => false

def gated : Point → Bool
  | .readControl .start | .readControl .retry | .assign _ .start | .assign _ .retry | .gateLoop |
    .gateEnabled | .askStop | .asked => true
  | _ => false

end Point

namespace Shell

variable {sh sh' : Shell} {w w' : World} {env : Answer} {next : Option Shell}

theorem exec_params (h : sh.exec w env = some (w', next)) (hp : sh.point.applying = false) :
    w'.params = w.params := by
  cases exec_effect h with
  | silent | status => rfl
  | assign hassign =>
    rw [hassign] at hp
    cases hp
  | @sweep c =>
    cases c with
    | killContainer => cases sh.container <;> rfl
    | _ => rfl
  | launch _ hlaunch =>
    obtain ⟨-, ⟨⟩⟩ := ite_none_left_eq_some.mp hlaunch
    rfl

structure Follows (p : Point) (enabled : Bool) (p' : Point) : Prop where
  applying : p'.applying = false
  atStart : p'.atStart = false
  gated : p'.gated = false → p.gated = false ∨ enabled = true

/-- Not at a command of `apply_control`, and past the first one. -/
structure Onward (p : Point) : Prop where
  applying : p.applying = false
  atStart : p.atStart = false

theorem Follows.past {p p' : Point} {b : Bool} (hp : p.gated = false) (hp' : Onward p') :
    Follows p b p' :=
  ⟨hp'.applying, hp'.atStart, fun _ => .inl hp⟩

theorem pick_point : Onward (sh.pick w).2.point := by
  unfold pick
  split <;> exact ⟨rfl, rfl⟩

theorem verified_point (v : Verdict) : Onward (sh.verified w v).2.point := by
  cases v <;> exact ⟨rfl, rfl⟩

theorem beats_goes : (sh.beats w).2.point = .monitorImages := by
  unfold beats
  dsimp only
  split <;> rfl

theorem beats_point : Onward (sh.beats w).2.point := by
  rw [beats_goes]
  exact ⟨rfl, rfl⟩

theorem frame_point (frozen : Bool) : Onward (sh.frame w frozen).2.point := by
  unfold frame
  repeat' split
  all_goals exact ⟨rfl, rfl⟩

theorem idles_point : Onward (sh.idles w).point := by
  unfold idles
  repeat' split
  all_goals exact ⟨rfl, rfl⟩

theorem next_point (c : Sweep) (leave : Leave) : Onward (c.next leave) := by
  cases c <;> cases leave <;> exact ⟨rfl, rfl⟩

theorem exec_follows (h : sh.exec w env = some (w', some sh')) (hread : sh.point.reading = false)
    (happly : sh.point.applying = false) : Follows sh.point w.enabled sh'.point := by
  unfold exec at h
  cases hp : sh.point with rw [hp] at h hread happly
  | readControl site => cases hread
  | assign a site => cases happly
  | gateLoop =>
    cases h
    dsimp only [goto]
    split <;> exact ⟨rfl, rfl, nofun⟩
  | gateEnabled =>
    dsimp only at h
    split at h
    · rename_i hon
      cases h
      exact ⟨rfl, rfl, fun _ => .inr hon⟩
    · cases h
      exact ⟨rfl, rfl, nofun⟩
  | gateRun | outerRun | monitorRun | outerEnabled | waited | prepareGraft | monitorImages
  | readPid =>
    dsimp only at h
    split at h <;> cases h <;> exact .past rfl ⟨rfl, rfl⟩
  | gatePolicy | awaitPulse | awaitPid | monitorAlive =>
    cases h
    dsimp only [goto]
    split <;> exact .past rfl ⟨rfl, rfl⟩
  | pickImages =>
    cases h
    exact .past rfl pick_point
  | verify =>
    cases h
    exact .past rfl (verified_point _)
  | sweep c leave =>
    have hnext := next_point c leave
    cases c <;> cases h <;> exact .past rfl hnext
  | startCompositor | startAudio | startWaydroidd =>
    obtain ⟨w₁, -, hw₁⟩ := map_eq_some_iff.mp h
    cases hw₁
    exact .past rfl ⟨rfl, rfl⟩
  | awaitSocket i =>
    dsimp only at h
    split at h
    · cases h
      exact .past rfl ⟨rfl, rfl⟩
    · split at h <;> cases h <;> exact .past rfl ⟨rfl, rfl⟩
  | monitorEnabled =>
    dsimp only at h
    split at h
    · cases h
      exact .past rfl beats_point
    · cases h
      exact .past rfl ⟨rfl, rfl⟩
  | monitorFrame =>
    cases h
    exact .past rfl (frame_point _)
  | monitorIdle =>
    cases h
    exact .past rfl idles_point
  | askStop =>
    cases h
    exact ⟨rfl, rfl, nofun⟩
  | asked => cases h

end Shell

theorem World.act_params {w w' : World} {o : Outside} (h : w.act o = some w')
    (ho : o.settings = false) : w'.params = w.params := by
  cases o with
  | setParams | setControl => cases ho
  | arm =>
    cases h
    rfl
  | setImages d sig => cases d <;> cases h <;> rfl
  | publish =>
    obtain ⟨c, -, rfl⟩ := map_eq_some_iff.mp h
    rfl
  | spawn =>
    obtain ⟨-, ⟨⟩⟩ := ite_none_left_eq_some.mp h
    rfl
  | _ =>
    obtain ⟨-, ⟨⟩⟩ := ite_none_right_eq_some.mp h
    rfl

/-! ### What is known of the changes -/

structure Made (c : Change) (s : Settings) : Prop where
  run : ∀ r, c.run = some r → s.run = r
  restart : s.run = .restart → c.run = some .restart
  enabled : ∀ b, c.enabled = some b → s.enabled = some b
  autostart : ∀ b, c.autostart = some b → s.autostart = some b
  idleStop : ∀ n, c.idleStop = some n → s.idleStop = some n
  seq : 0 < s.seq

structure Records (h : History) : Prop where
  fileLast : ∀ f, h.file = some f → h.last = some f
  last : ∀ f, h.last = some f → f.id + 1 = h.count ∧ Made f.change f.settings
  held : ∀ f, h.held = some f → f.id < h.count ∧ Made f.change f.settings
  applied : ∀ i ∈ h.applied, i < h.count
  lastApplied : ∀ f, h.last = some f → f.id ∈ h.applied → h.seen = true
  switchedOff : ∀ f, h.switchedOff = some f → f.change.enabled = some false
  restarted : ∀ f ∈ h.restarted, f.id ∈ h.applied ∧ f.change.run = some .restart
  once : (h.restarted.map (·.id)).Nodup
  ends : ∀ f ∈ h.monitored, f.change.run = some .restart → f ∈ h.restarted
  disabled : ∀ o ∈ h.disabled, ∃ f, o = some f ∧ f.change.enabled = some false
  skipped : h.skipped = []

structure Agrees (p : Params) (h : History) : Prop where
  control : p.control = h.file.map (·.settings.text)
  values : h.seen = true → ∀ f, h.last = some f → f.change.Holds p
  current : ∀ f, h.file = some f → f.id ∈ h.applied ∨ p.appliedSeq < f.settings.seq
  off : ∀ f, h.file = some f → f.settings.enabled = some false →
    f.change.enabled = some false ∨ p.enabled = false

def History.ctl (h : History) : Settings := (h.held.map (·.settings)).getD {}

def Assign.Set (ctl : Settings) (p : Params) : Assign → Prop
  | .enabled => True
  | .autostart => ∀ b, ctl.enabled = some b → p.enabled = b
  | .idle =>
    (∀ b, ctl.enabled = some b → p.enabled = b) ∧ ∀ b, ctl.autostart = some b → p.autostart = b
  | .seq =>
    (∀ b, ctl.enabled = some b → p.enabled = b) ∧ (∀ b, ctl.autostart = some b → p.autostart = b) ∧
      ∀ n, ctl.idleStop = some n → p.idleStop = some n

structure Flight (p : Params) (h : History) (sh : Shell) (a : Assign) (site : Site) : Prop where
  ctl : sh.ctl = h.ctl
  file : ∀ f, h.file = some f → h.held ≠ some f → f.id ∉ h.applied ∧ sh.ctl.seq < f.settings.seq
  fresh : h.fresh = true → ∀ f, h.last = some f → h.held = some f ∨ h.held = none ∧ h.seen = true
  stale : h.fresh = false → h.seen = false ∧ ∀ f, h.held = some f → f.id + 1 < h.count
  unapplied : site ≠ .start → ∀ f, h.held = some f → f.id ∉ h.applied
  assigned : a.Set sh.ctl p
  heldOff : a = .enabled → ∀ f, h.held = some f → f.settings.enabled = some false →
    f.change.enabled = some false ∨ p.enabled = false
  fileOff : a = .enabled → ∀ f, h.file = some f → f.settings.enabled = some false →
    f.change.enabled = some false ∨ sh.ctl.enabled ≠ some true

structure InShell (p : Params) (h : History) (sh : Shell) : Prop where
  kept : sh.point.atStart = false → ∀ f,
    h.file = some f → f.id ∈ h.applied → p.appliedSeq = f.settings.seq
  gate : sh.point.gated = false → p.enabled = false → ∃ f, h.switchedOff = some f
  flight : ∀ a site, sh.point = .assign a site → Flight p h sh a site

structure InApp (p : Params) (h : History) (shell : Option Shell) (q : Pending) : Prop where
  made : Made q.change q.settings
  seq : p.appliedSeq < q.settings.seq
  file : ∀ f, h.file = some f → f.settings.seq < q.settings.seq
  flight : ∀ sh, shell = some sh → sh.point.applying = true → sh.ctl.seq < q.settings.seq

structure Kept (p : Params) (h : History) (shell : Option Shell)
    (pending : Option Pending) : Prop where
  records : Records h
  agrees : Agrees p h
  inShell : ∀ sh, shell = some sh → InShell p h sh
  inApp : ∀ q, pending = some q → q.stage ≠ .renamed → InApp p h shell q

variable {p : Params} {h : History} {sh sh' : Shell} {pending : Option Pending}

theorem Agrees.readControl_eq (ha : Agrees p h) :
    readControl p.control = (h.file.map (·.settings)).getD {} := by
  rw [ha.control]
  cases h.file with
  | none => rfl
  | some f => exact readControl_text _

theorem Agrees.read_eq (ha : Agrees p h) :
    Control.read p.control = (h.file.map (·.settings)).getD {} := by
  rw [ha.control]
  cases h.file with
  | none => rfl
  | some f => exact Control.read_text _

theorem not_applying (hp : sh.point.applying = false) (a : Assign) (site : Site) :
    sh.point ≠ .assign a site := by
  intro h
  rw [h] at hp
  cases hp

theorem Kept.of_calm (hr : Records h) (ha : Agrees p h) (hp : sh.point.applying = false)
    (hkept : ∀ f, h.file = some f → f.id ∈ h.applied → p.appliedSeq = f.settings.seq)
    (hgate : sh.point.gated = false → p.enabled = false → ∃ f, h.switchedOff = some f)
    (happ : ∀ q, pending = some q → q.stage ≠ .renamed → Made q.change q.settings ∧
      p.appliedSeq < q.settings.seq ∧ ∀ f, h.file = some f → f.settings.seq < q.settings.seq) :
    Kept p h (some sh) pending where
  records := hr
  agrees := ha
  inShell := by
    rintro _ ⟨⟩
    exact ⟨fun _ => hkept, hgate, fun a site hpoint => absurd hpoint (not_applying hp a site)⟩
  inApp q hq hstage := by
    obtain ⟨hmade, hseq, hfile⟩ := happ q hq hstage
    refine ⟨hmade, hseq, hfile, ?_⟩
    rintro _ ⟨⟩ happlying
    exact absurd (hp.symm.trans happlying) nofun

theorem Kept.calmApp (hk : Kept p h (some sh) pending) : ∀ q, pending = some q → q.stage ≠ .renamed →
    Made q.change q.settings ∧ p.appliedSeq < q.settings.seq ∧
      ∀ f, h.file = some f → f.settings.seq < q.settings.seq := fun q hq hstage =>
  ⟨(hk.inApp q hq hstage).made, (hk.inApp q hq hstage).seq, (hk.inApp q hq hstage).file⟩

/-! ### `apply_control` -/

theorem Shell.returned_point (sh : Shell) (w : World) (b : Bool) (site : Site) :
    Onward (sh.returned w b site).point ∧
      ((sh.returned w b site).point.gated = false → (Point.readControl site).gated = false) := by
  cases site with
  | monitor =>
    dsimp only [returned]
    split <;> exact ⟨⟨rfl, rfl⟩, fun _ => rfl⟩
  | outer => exact ⟨⟨rfl, rfl⟩, fun _ => rfl⟩
  | start | retry => exact ⟨⟨rfl, rfl⟩, nofun⟩

theorem reads_applied (happlied : ∀ f, h.file = some f → f.id ∈ h.applied) :
    h.reads true = { h with held := h.file, fresh := true, seen := true } := by
  have hnone : (h.file.toList.map (·.id)).filter (· ∉ h.applied) = [] := by
    cases hfile : h.file with
    | none => rfl
    | some f => simp [happlied f hfile]
  unfold History.reads
  dsimp only
  rw [if_pos rfl, hnone, append_nil]

theorem Records.held_file (hr : Records h) :
    ∀ f, h.file = some f → f.id < h.count ∧ Made f.change f.settings := by
  intro f hf
  obtain ⟨hid, hmade⟩ := hr.last f (hr.fileLast f hf)
  exact ⟨hid ▸ Nat.lt_succ_self _, hmade⟩

theorem Kept.reads_same (hk : Kept p h (some sh) pending)
    (hmissing : p.control = none → h.last.isSome = true → h.seen = true)
    (hsame : (readControl p.control).seq = p.appliedSeq) (happlying : sh'.point.applying = false)
    (hgated : sh'.point.gated = false → sh.point.gated = false) :
    Kept p (h.reads true) (some sh') pending := by
  have hseq : ∀ f, h.file = some f → p.appliedSeq = f.settings.seq := by
    intro f hf
    rw [hk.agrees.readControl_eq, hf] at hsame
    exact hsame.symm
  have happlied : ∀ f, h.file = some f → f.id ∈ h.applied := fun f hf =>
    (hk.agrees.current f hf).resolve_right (hseq f hf ▸ Nat.lt_irrefl _)
  have hseen : ∀ f, h.last = some f → h.seen = true := by
    intro f hf
    cases hfile : h.file with
    | none => exact hmissing (by rw [hk.agrees.control, hfile]; rfl) (by rw [hf]; rfl)
    | some g =>
      cases Option.mem_unique hf (hk.records.fileLast g hfile)
      exact hk.records.lastApplied f hf (happlied f hfile)
  rw [reads_applied happlied]
  refine .of_calm ?_ ?_ happlying (fun f hf _ => hseq f hf) ?_ hk.calmApp
  · exact { hk.records with held := hk.records.held_file, lastApplied := fun _ _ _ => rfl }
  · exact { hk.agrees with values := fun _ f hf => hk.agrees.values (hseen f hf) f hf }
  · exact fun hg => (hk.inShell sh rfl).gate (hgated hg)

variable {site : Site}

theorem Kept.reads_new (hk : Kept p h (some sh) pending) (hpoint : sh.point = .readControl site)
    (hmissing : p.control = none → h.last.isSome = true → h.seen = true)
    (hnew : (readControl p.control).seq ≠ p.appliedSeq) (hctl : sh'.ctl = readControl p.control)
    (hnext : sh'.point = .assign .enabled site) : Kept p (h.reads false) (some sh') pending := by
  have hfile : ∀ f, h.file = some f → sh'.ctl = f.settings := by
    intro f hf
    rw [hctl, hk.agrees.readControl_eq, hf]
    rfl
  have hin := hk.inShell sh rfl
  have hstart : sh'.point.atStart = sh.point.atStart := by
    rw [hnext, hpoint]
    cases site <;> rfl
  have hgated : sh'.point.gated = sh.point.gated := by
    rw [hnext, hpoint]
    cases site <;> rfl
  have hflight : Flight p (h.reads false) sh' .enabled site := by
    refine ⟨?_, fun f hf hne => absurd hf hne, fun _ f hf => ?_, nofun,
      fun hsite f hf happlied => ?_, trivial, fun _ => hk.agrees.off, fun _ f hf hoff => .inr ?_⟩
    · rw [hctl, hk.agrees.readControl_eq]
      rfl
    · cases hg : h.file with
      | none =>
        refine .inr ⟨hg, hmissing ?_ ?_⟩
        · rw [hk.agrees.control, hg]
          rfl
        · rw [show h.last = some f from hf]
          rfl
      | some g =>
        cases Option.mem_unique hf (hk.records.fileLast g hg)
        exact .inl hg
    · have hat : sh.point.atStart = false := by
        rw [hpoint]
        cases site <;> first | rfl | exact absurd rfl hsite
      have := hin.kept hat f hf happlied
      rw [← hctl, hfile f hf] at hnew
      exact hnew this.symm
    · rw [hfile f hf, hoff]
      nofun
  refine ⟨{ hk.records with held := hk.records.held_file }, { hk.agrees with }, ?_,
    fun q hq hstage => ?_⟩
  · rintro _ ⟨⟩
    refine ⟨fun hs => hin.kept (hstart ▸ hs), fun hg => hin.gate (hgated ▸ hg),
      fun a site' ha => ?_⟩
    cases hnext.symm.trans ha
    exact hflight
  · have happ := hk.inApp q hq hstage
    refine { happ with flight := ?_ }
    rintro _ ⟨⟩ -
    cases hg : h.file with
    | none =>
      rw [hctl, hk.agrees.readControl_eq, hg]
      exact happ.made.seq
    | some f => exact hfile f hg ▸ happ.file f hg

def Params.assign (p : Params) (ctl : Settings) : Assign → Params
  | .enabled => { p with enabled := ctl.enabled.getD p.enabled }
  | .autostart => { p with autostart := ctl.autostart.getD p.autostart }
  | .idle => { p with idleStop := ctl.idleStop.or p.idleStop }
  | .seq => { p with appliedSeq := ctl.seq }

theorem World.assign_params (w : World) (ctl : Settings) (a : Assign) :
    (w.assign ctl a).params = w.params.assign ctl a := by
  cases a <;> rfl

variable {c : Change}

theorem Change.Holds.assign_made {s : Settings} (hc : c.Holds p) (hm : Made c s) (a : Assign) :
    c.Holds (p.assign s a) := by
  cases a with
  | enabled => exact { hc with enabled := fun b hb => by simp [Params.assign, hm.enabled b hb] }
  | autostart =>
    exact { hc with autostart := fun b hb => by simp [Params.assign, hm.autostart b hb] }
  | idle => exact { hc with idleStop := fun n hn => by simp [Params.assign, hm.idleStop n hn] }
  | seq => exact { hc with }

theorem Change.Holds.assign_default (hc : c.Holds p) (a : Assign) : c.Holds (p.assign {} a) := by
  cases a <;> exact { hc with }

variable {a a' : Assign}

theorem Assign.Set.next {ctl : Settings} (hs : a.Set ctl p) (ha : a ≠ .seq)
    (hnext : a.next site = .assign a' site) : a'.Set ctl (p.assign ctl a) := by
  cases a with
  | enabled =>
    cases hnext
    exact fun b hb => by simp [Params.assign, hb]
  | autostart =>
    cases hnext
    exact ⟨hs, fun b hb => by simp [Params.assign, hb]⟩
  | idle =>
    cases hnext
    exact ⟨hs.1, hs.2, fun n hn => by simp [Params.assign, hn]⟩
  | seq => exact absurd rfl ha

namespace Flight

variable {a a' : Assign} {site : Site} {f : Written}

section
variable (hf : Flight p h sh a site)
include hf

theorem ctl_held (hheld : h.held = some f) : sh.ctl = f.settings := by
  rw [hf.ctl, History.ctl, hheld]
  rfl

theorem ctl_none (hheld : h.held = none) : sh.ctl = {} := by
  rw [hf.ctl, History.ctl, hheld]
  rfl

theorem fresh_of_seen (hseen : h.seen = true) : h.fresh = true := by
  by_contra hfresh
  exact absurd ((hf.stale (Bool.eq_false_of_not_eq_true hfresh)).1.symm.trans hseen) nofun

theorem values (hr : Records h) (hseen : h.seen = true)
    (hlast : h.last = some f) (hc : f.change.Holds p) : f.change.Holds (p.assign sh.ctl a) := by
  rcases hf.fresh (hf.fresh_of_seen hseen) f hlast with hheld | ⟨hheld, -⟩
  · rw [hf.ctl_held hheld]
    exact hc.assign_made (hr.last f hlast).2 a
  · rw [hf.ctl_none hheld]
    exact hc.assign_default a

theorem eq_of_id (hr : Records h) (hlast : h.last = some f)
    {g : Written} (hheld : h.held = some g) (hid : g.id = f.id) :
    h.held = some f ∧ h.fresh = true := by
  by_cases hfresh : h.fresh = true
  · rcases hf.fresh hfresh f hlast with hf' | ⟨hnone, -⟩
    · exact ⟨hf', hfresh⟩
    · exact absurd (hnone.symm.trans hheld) nofun
  · have hlt := (hf.stale (Bool.eq_false_of_not_eq_true hfresh)).2 g hheld
    have hcount := (hr.last f hlast).1
    omega

end

end Flight

theorem Kept.advances {off : Bool} (hk : Kept p h (some sh) pending)
    (hpoint : sh.point = .assign a site) (ha : a ≠ .seq) (hctl : sh'.ctl = sh.ctl)
    (hnext : a.next site = .assign a' site) (ha' : a' ≠ .enabled)
    (hpoint' : sh'.point = .assign a' site)
    (hasked : off = true → ∃ f, h.held = some f ∧ f.change.enabled = some false)
    (hoff : ∀ f, h.file = some f → f.settings.enabled = some false →
      f.change.enabled = some false ∨ (p.assign sh.ctl a).enabled = false)
    (hgate : sh.point.gated = false → (p.assign sh.ctl a).enabled = false →
      ∃ f, (h.switches off).switchedOff = some f) :
    Kept (p.assign sh.ctl a) (h.switches off) (some sh') pending := by
  have hin := hk.inShell sh rfl
  have hf := hin.flight a site hpoint
  have hseq : (p.assign sh.ctl a).appliedSeq = p.appliedSeq := by
    cases a <;> first | rfl | exact absurd rfl ha
  have hcontrol : (p.assign sh.ctl a).control = p.control := by cases a <;> rfl
  have hstart : sh'.point.atStart = sh.point.atStart := by
    rw [hpoint, hpoint']
    cases site <;> rfl
  have hgated : sh'.point.gated = sh.point.gated := by
    rw [hpoint, hpoint']
    cases site <;> rfl
  refine ⟨{ hk.records with switchedOff := fun f hf' => ?_ },
    ⟨?_, fun hs f hl => ?_, fun f hfile => ?_, hoff⟩, ?_, ?_⟩
  · dsimp only [History.switches] at hf'
    split at hf'
    · rename_i hoff
      obtain ⟨g, hg, hgasked⟩ := hasked hoff
      cases hg.symm.trans hf'
      exact hgasked
    · exact hk.records.switchedOff f hf'
  · exact hcontrol.trans hk.agrees.control
  · exact hf.values hk.records hs hl (hk.agrees.values hs f hl)
  · rw [hseq]
    exact hk.agrees.current f hfile
  · rintro _ ⟨⟩
    refine ⟨fun hs f hfile happlied => ?_, fun hg => hgate (hgated ▸ hg), fun a'' site' ha'' => ?_⟩
    · rw [hseq]
      exact hin.kept (hstart ▸ hs) f hfile happlied
    · cases hpoint'.symm.trans ha''
      refine ⟨hctl.trans hf.ctl, fun f hfile hne => ?_, hf.fresh, hf.stale, hf.unapplied, ?_,
        fun h => absurd h ha', fun h => absurd h ha'⟩
      · rw [hctl]
        exact hf.file f hfile hne
      · rw [hctl]
        exact hf.assigned.next ha hnext
  · intro q hq hstage
    have happ := hk.inApp q hq hstage
    refine ⟨happ.made, hseq ▸ happ.seq, happ.file, ?_⟩
    rintro _ ⟨⟩ -
    rw [hctl]
    exact happ.flight sh rfl (by rw [hpoint]; rfl)

theorem Kept.switches (hk : Kept p h (some sh) pending)
    (hpoint : sh.point = .assign .enabled site) (hctl : sh'.ctl = sh.ctl)
    (hpoint' : sh'.point = .assign .autostart site) :
    Kept (p.assign sh.ctl .enabled) (h.switches (p.enabled && sh.ctl.enabled == some false))
      (some sh') pending := by
  have hin := hk.inShell sh rfl
  have hf := hin.flight .enabled site hpoint
  -- whatever switches Waydroid off was asked to
  have hasked : (p.enabled && sh.ctl.enabled == some false) = true →
      ∃ f, h.held = some f ∧ f.change.enabled = some false := by
    intro hoff
    obtain ⟨hon, hset⟩ := Bool.and_eq_true_iff.mp hoff
    have hset := beq_iff_eq.mp hset
    cases hheld : h.held with
    | none =>
      rw [hf.ctl_none hheld] at hset
      cases hset
    | some f =>
      rw [hf.ctl_held hheld] at hset
      refine ⟨f, rfl, (hf.heldOff rfl f hheld hset).resolve_right ?_⟩
      rw [hon]
      nofun
  refine hk.advances hpoint nofun hctl rfl nofun hpoint' hasked (fun f hfile hset => ?_)
    fun hg hp' => ?_
  · rcases hk.agrees.off f hfile hset with h | hp
    · exact .inl h
    · rcases hf.fileOff rfl f hfile hset with h | hne
      · exact .inl h
      · refine .inr ?_
        change sh.ctl.enabled.getD p.enabled = false
        cases hctl' : sh.ctl.enabled with
        | none => exact hp
        | some b =>
          cases b with
          | false => rfl
          | true => exact absurd hctl' hne
  · change sh.ctl.enabled.getD p.enabled = false at hp'
    cases hon : p.enabled with
    | false => exact hin.gate hg hon
    | true =>
      cases hctl' : sh.ctl.enabled with
      | none =>
        rw [hctl', hon] at hp'
        cases hp'
      | some b =>
        rw [hctl'] at hp'
        obtain rfl : b = false := hp'
        obtain ⟨f, hheld, -⟩ := hasked (by rw [hon, hctl']; rfl)
        exact ⟨f, hheld⟩

theorem Kept.assigns (hk : Kept p h (some sh) pending) (hpoint : sh.point = .assign a site)
    (ha : a = .autostart ∨ a = .idle) (hctl : sh'.ctl = sh.ctl)
    (hnext : a.next site = .assign a' site) (hpoint' : sh'.point = .assign a' site) :
    Kept (p.assign sh.ctl a) h (some sh') pending := by
  have hin := hk.inShell sh rfl
  have henabled : (p.assign sh.ctl a).enabled = p.enabled := by rcases ha with rfl | rfl <;> rfl
  have ha' : a' ≠ .enabled := by rcases ha with rfl | rfl <;> cases hnext <;> nofun
  have hne : a ≠ .seq := by rcases ha with rfl | rfl <;> nofun
  have hswitches : Kept (p.assign sh.ctl a) (h.switches false) (some sh') pending :=
    hk.advances hpoint hne hctl hnext ha' hpoint' nofun
      (fun f hfile hset => henabled ▸ hk.agrees.off f hfile hset)
      (fun hg hp' => hin.gate hg (henabled ▸ hp'))
  exact hswitches

variable {monitor ended : Bool}

theorem mem_applies {i : Nat} (hi : i ∈ (h.applies monitor ended).applied) :
    i ∈ h.applied ∨ ∃ f, h.held = some f ∧ f.id = i := by
  rcases mem_append.mp hi with hi | hi
  · exact .inl hi
  · obtain ⟨f, hf, rfl⟩ := List.mem_map.mp hi
    exact .inr ⟨f, mem_toList.mp hf, rfl⟩

theorem held_mem_applies (h : History) (monitor ended : Bool) {f : Written} (hf : h.held = some f) :
    f.id ∈ (h.applies monitor ended).applied :=
  mem_append_right _ (List.mem_map_of_mem (mem_toList.mpr hf))

theorem Records.applies (hr : Records h) (hf : Flight p h sh a site)
    (hmonitor : monitor = true → site = .monitor)
    (hended : monitor = true → (ended = true ↔ sh.ctl.run = .restart)) :
    Records (h.applies monitor ended) := by
  have hkeep : ∀ i ∈ h.applied, i ∈ (h.applies monitor ended).applied :=
    fun i hi => mem_append_left _ hi
  refine { hr with applied := ?_, lastApplied := ?_, restarted := ?_, once := ?_, ends := ?_ }
  · intro i hi
    rcases mem_applies hi with hi | ⟨f, hheld, rfl⟩
    · exact hr.applied i hi
    · exact (hr.held f hheld).1
  · intro f hl hi
    refine Bool.or_eq_true_iff.mpr ?_
    rcases mem_applies hi with hi | ⟨g, hheld, hid⟩
    · exact .inl (hr.lastApplied f hl hi)
    · exact .inr (hf.eq_of_id hr hl hheld hid).2
  · intro f hmem
    dsimp only [History.applies] at hmem
    split at hmem
    · rename_i hboth
      obtain ⟨hm, he⟩ := Bool.and_eq_true_iff.mp hboth
      rcases mem_append.mp hmem with hmem | hmem
      · exact ⟨hkeep _ (hr.restarted f hmem).1, (hr.restarted f hmem).2⟩
      · have hheld := mem_toList.mp hmem
        have hrun := (hended hm).mp he
        rw [hf.ctl_held hheld] at hrun
        exact ⟨held_mem_applies h _ _ hheld, (hr.held f hheld).2.restart hrun⟩
    · exact ⟨hkeep _ (hr.restarted f hmem).1, (hr.restarted f hmem).2⟩
  · dsimp only [History.applies]
    split
    · rename_i hboth
      have hm := (Bool.and_eq_true_iff.mp hboth).1
      rw [map_append]
      refine Nodup.append hr.once ?_ ?_
      · cases h.held with
        | none => exact nodup_nil
        | some f => exact nodup_singleton _
      · intro i hi hi'
        obtain ⟨g, hg, rfl⟩ := List.mem_map.mp hi
        obtain ⟨f, hheld, hid⟩ := List.mem_map.mp hi'
        refine hf.unapplied ?_ f (mem_toList.mp hheld) (hid ▸ (hr.restarted g hg).1)
        rw [hmonitor hm]
        nofun
    · exact hr.once
  · intro f hmem hrun
    dsimp only [History.applies] at hmem ⊢
    cases monitor with
    | false => exact hr.ends f hmem hrun
    | true =>
      rcases mem_append.mp hmem with hmem | hmem
      · have hold := hr.ends f hmem hrun
        split
        · exact mem_append_left _ hold
        · exact hold
      · have hheld := mem_toList.mp hmem
        have he : ended = true := by
          refine (hended rfl).mpr ?_
          rw [hf.ctl_held hheld]
          exact (hr.held f hheld).2.run _ hrun
        rw [if_pos (by rw [he]; rfl)]
        exact mem_append_right _ hmem

theorem Kept.applies (hk : Kept p h (some sh) pending) (hpoint : sh.point = .assign .seq site)
    (happlying : sh'.point.applying = false)
    (hgated : sh'.point.gated = false → sh.point.gated = false)
    (hmonitor : monitor = true → site = .monitor)
    (hended : monitor = true → (ended = true ↔ sh.ctl.run = .restart)) :
    Kept (p.assign sh.ctl .seq) (h.applies monitor ended) (some sh') pending := by
  have hin := hk.inShell sh rfl
  have hf := hin.flight .seq site hpoint
  have hr := hk.records
  refine .of_calm (hr.applies hf hmonitor hended)
    ⟨hk.agrees.control, ?_, ?_, hk.agrees.off⟩ happlying ?_
    (fun hg => hin.gate (hgated hg)) ?_
  · intro hseen f hl
    have hfresh : h.fresh = true := by
      rcases Bool.or_eq_true_iff.mp hseen with hs | hs
      · exact hf.fresh_of_seen hs
      · exact hs
    rcases hf.fresh hfresh f hl with hheld | ⟨-, hs⟩
    · -- the three commands before have set what the change asks for
      obtain ⟨henabled, hautostart, hidle⟩ := hf.assigned
      rw [hf.ctl_held hheld] at henabled hautostart hidle
      have hmade := (hr.last f hl).2
      exact ⟨fun b hb => henabled b (hmade.enabled b hb),
        fun b hb => hautostart b (hmade.autostart b hb), fun n hn => hidle n (hmade.idleStop n hn)⟩
    · exact { hk.agrees.values hs f hl with }
  · intro f hfile
    by_cases hheld : h.held = some f
    · exact .inl (held_mem_applies h _ _ hheld)
    · exact .inr (hf.file f hfile hheld).2
  · intro f hfile hi
    have hheld : h.held = some f := by
      by_contra hne
      rcases mem_applies hi with hi | ⟨g, hheld, hid⟩
      · exact (hf.file f hfile hne).1 hi
      · exact hne (hf.eq_of_id hr (hr.fileLast f hfile) hheld hid).1
    exact congrArg Settings.seq (hf.ctl_held hheld)
  · intro q hq hstage
    have happ := hk.inApp q hq hstage
    exact ⟨happ.made, happ.flight sh rfl (by rw [hpoint]; rfl), happ.file⟩

/-! ### The supervisor's steps -/

variable {w w' : World} {env : Answer} {next : Option Shell}

theorem Kept.gone (hk : Kept p h (some sh) pending) : Kept p h none pending :=
  { hk with
    inShell := by rintro _ ⟨⟩
    inApp q hq hstage := by
      obtain ⟨hmade, hseq, hfile⟩ := hk.calmApp q hq hstage
      refine ⟨hmade, hseq, hfile, ?_⟩
      rintro _ ⟨⟩ }

theorem Kept.exec_read (hk : Kept w.params h (some sh) pending)
    (hpoint : sh.point = .readControl site)
    (hmissing : w.control = none → h.last.isSome = true → h.seen = true)
    (hexec : sh.exec w env = some (w', next)) :
    Kept w'.params (h.observe sh w next) next pending := by
  have hobserve : h.observe sh w next = h.reads ((readControl w.control).seq == w.appliedSeq) := by
    unfold History.observe
    rw [hpoint]
  rw [hobserve]
  unfold Shell.exec at hexec
  rw [hpoint] at hexec
  dsimp only at hexec
  split at hexec
  · rename_i hsame
    cases hexec
    rw [hsame, beq_self_eq_true]
    obtain ⟨⟨happlying, -⟩, hgated⟩ :=
      Shell.returned_point { sh with ctl := readControl w.control } w false site
    exact hk.reads_same hmissing hsame happlying (fun hg => hpoint ▸ hgated hg)
  · rename_i hnew
    cases hexec
    rw [beq_eq_false_iff_ne.mpr hnew]
    exact hk.reads_new hpoint hmissing hnew rfl rfl

theorem Kept.exec_assign (hk : Kept w.params h (some sh) pending)
    (hpoint : sh.point = .assign a site) (hexec : sh.exec w env = some (w', next)) :
    Kept w'.params (h.observe sh w next) next pending := by
  unfold Shell.exec at hexec
  unfold History.observe
  rw [hpoint] at hexec ⊢
  cases a with
  | enabled =>
    cases hexec
    rw [World.assign_params]
    exact hk.switches hpoint rfl rfl
  | autostart | idle =>
    cases hexec
    rw [World.assign_params]
    first | exact hk.assigns hpoint (.inl rfl) rfl rfl rfl | exact hk.assigns hpoint (.inr rfl) rfl rfl rfl
  | seq =>
    cases hexec
    rw [World.assign_params]
    obtain ⟨⟨happlying, -⟩, hgated⟩ :=
      Shell.returned_point (sh.refresh (w.assign sh.ctl .seq)) (w.assign sh.ctl .seq) true site
    refine hk.applies hpoint happlying (fun hg => ?_) beq_iff_eq.mp fun hmonitor => ?_
    · have hread := hgated hg
      rw [hpoint]
      cases site <;> first | rfl | exact hread
    · obtain rfl := beq_iff_eq.mp hmonitor
      dsimp only [Shell.returned, any_some]
      by_cases hrun : sh.ctl.run = .restart
      · simp [Shell.refresh, Shell.again, Shell.goto, hrun]
      · simp [Shell.refresh, Shell.goto, hrun]

theorem Shell.monitorEnabled_ended (hpoint : sh.point = .monitorEnabled)
    (hexec : sh.exec w env = some (w', next))
    (hended : (next.any fun sh' => sh'.point == .readControl .outer) = true) :
    w.enabled = false := by
  unfold Shell.exec at hexec
  rw [hpoint] at hexec
  dsimp only at hexec
  split at hexec
  · have hnext : next = some (sh.beats w).2 := (congrArg Prod.snd (Option.some.inj hexec)).symm
    rw [hnext, any_some, beats_goes] at hended
    cases hended
  · exact Bool.eq_false_of_not_eq_true ‹_›

theorem History.observe_plain (h : History) (w : World) (next : Option Shell)
    (hread : sh.point.reading = false) (happly : sh.point.applying = false) :
    h.observe sh w next = h ∨ sh.point = .monitorEnabled ∧
      h.observe sh w next = h.disables (next.any fun sh' => sh'.point == .readControl .outer) := by
  unfold History.observe
  cases hpoint : sh.point with rw [hpoint] at hread happly
  | readControl site => cases hread
  | assign a site => cases happly
  | monitorEnabled => exact .inr ⟨rfl, rfl⟩
  | _ => exact .inl rfl

theorem Kept.disables (hk : Kept p h (some sh) pending) (hpoint : sh.point = .monitorEnabled)
    (hoff : ended = true → p.enabled = false) : Kept p (h.disables ended) (some sh) pending := by
  have hin := hk.inShell sh rfl
  refine .of_calm { hk.records with disabled := fun o ho => ?_ } { hk.agrees with }
    (by rw [hpoint]; rfl) (hin.kept (by rw [hpoint]; rfl)) hin.gate hk.calmApp
  dsimp only [History.disables] at ho
  split at ho
  · rename_i hended
    rcases mem_append.mp ho with ho | ho
    · exact hk.records.disabled o ho
    · obtain ⟨f, hf⟩ := hin.gate (by rw [hpoint]; rfl) (hoff hended)
      exact ⟨f, (mem_singleton.mp ho).trans hf, hk.records.switchedOff f hf⟩
  · exact hk.records.disabled o ho

theorem Kept.exec_plain (hk : Kept w.params h (some sh) pending) (hread : sh.point.reading = false)
    (happly : sh.point.applying = false) (hexec : sh.exec w env = some (w', next)) :
    Kept w'.params (h.observe sh w next) next pending := by
  have hobserve : Kept w.params (h.observe sh w next) (some sh) pending := by
    rcases h.observe_plain w next hread happly with heq | ⟨hpoint, heq⟩
    · rw [heq]
      exact hk
    · rw [heq]
      exact hk.disables hpoint fun hended => Shell.monitorEnabled_ended hpoint hexec hended
  rw [Shell.exec_params hexec happly]
  cases next with
  | none => exact hobserve.gone
  | some sh' =>
    have hin := hobserve.inShell sh rfl
    have hfollows := Shell.exec_follows hexec hread happly
    have hstart : sh.point.atStart = false := by
      cases hpoint : sh.point with
      | readControl site =>
        rw [hpoint] at hread
        cases hread
      | assign a site =>
        rw [hpoint] at happly
        cases happly
      | _ => rfl
    refine .of_calm hobserve.records hobserve.agrees hfollows.applying (hin.kept hstart)
      (fun hg hoff => ?_) hobserve.calmApp
    rcases hfollows.gated hg with hg | hon
    · exact hin.gate hg hoff
    · exact absurd (hon.symm.trans hoff) nofun

theorem Kept.exec (hk : Kept w.params h (some sh) pending)
    (hmissing : sh.point.reading = true → w.control = none → h.last.isSome = true → h.seen = true)
    (hexec : sh.exec w env = some (w', next)) :
    Kept w'.params (h.observe sh w next) next pending := by
  cases hpoint : sh.point with
  | readControl site => exact hk.exec_read hpoint (hmissing (by rw [hpoint]; rfl)) hexec
  | assign a site => exact hk.exec_assign hpoint hexec
  | _ => exact hk.exec_plain (by rw [hpoint]; rfl) (by rw [hpoint]; rfl) hexec

variable {shell : Option Shell}

theorem Kept.starts (hk : Kept p h none pending) (demand : Bool) :
    Kept p h (some { demand }) pending :=
  { hk with
    inShell := by
      rintro _ ⟨⟩
      exact ⟨nofun, nofun, nofun⟩
    inApp q hq hstage := by
      have happ := hk.inApp q hq hstage
      refine { happ with flight := ?_ }
      rintro _ ⟨⟩ ⟨⟩ }

theorem Kept.abandoned (hk : Kept p h shell pending) : Kept p h shell none :=
  { hk with
    inApp := by rintro _ ⟨⟩ }

theorem Kept.reboots (hk : Kept p h shell pending) :
    Kept { p with appliedSeq := 0 } h none none where
  records := hk.records
  agrees := { hk.agrees with
    values := fun hs f hl => { hk.agrees.values hs f hl with }
    current := fun f hf => .inr (hk.records.held_file f hf).2.seq }
  inShell := by rintro _ ⟨⟩
  inApp := by rintro _ ⟨⟩

/-! ### The app's steps -/

theorem Made.onto {base : Settings} (hrun : c.run = none → base.run ≠ .restart) :
    Made c (c.onto base) where
  run r hr := by simp [Change.onto, hr]
  restart hr := by
    cases hc : c.run with
    | none =>
      rw [Change.onto, hc] at hr
      exact absurd hr (hrun hc)
    | some r =>
      rw [Change.onto, hc] at hr
      exact congrArg some hr
  enabled b hb := by simp [Change.onto, hb]
  autostart b hb := by simp [Change.onto, hb]
  idleStop n hn := by simp [Change.onto, hn]
  seq := Nat.succ_pos _

theorem Kept.composes (hk : Kept p h shell none) {st : Store}
    (hseq : p.appliedSeq ≤ (st.current p.control).seq)
    (hflight : ∀ sh, shell = some sh → sh.point.applying = true → sh.ctl.seq ≤
    (st.current p.control).seq) (hrun : c.run = none → (Control.read p.control).run ≠ .restart) :
    Kept p h shell (some ⟨c, c.onto (st.current p.control), .composed⟩) :=
  { hk with
    inApp := by
      rintro _ ⟨⟩ -
      refine ⟨Made.onto hrun, Nat.lt_succ_of_le hseq, fun f hf => Nat.lt_succ_of_le ?_,
        fun sh hsh hp => Nat.lt_succ_of_le (hflight sh hsh hp)⟩
      have hread : Control.read p.control = f.settings := by
        rw [hk.agrees.read_eq, hf]
        rfl
      change f.settings.seq ≤ max (Control.read p.control).seq st.appliedSeq
      rw [hread]
      exact Nat.le_max_left _ _ }

theorem Kept.stage {q : Pending} {stage : Stage} (hk : Kept p h shell (some q))
    (hq : q.stage ≠ .renamed) : Kept p h shell (some { q with stage }) :=
  { hk with
    inApp := by
      rintro _ ⟨⟩ -
      exact { hk.inApp q rfl hq with } }

theorem Kept.removes (hk : Kept p h shell pending) :
    Kept { p with control := none } { h with file := none } shell pending where
  records := { hk.records with fileLast := by rintro _ ⟨⟩ }
  agrees := ⟨rfl, fun hs f hl => { hk.agrees.values hs f hl with }, by rintro _ ⟨⟩, by rintro _ ⟨⟩⟩
  inShell sh hsh := by
    have hin := hk.inShell sh hsh
    refine ⟨by rintro - _ ⟨⟩, hin.gate, fun a site hp => ?_⟩
    have hf := hin.flight a site hp
    exact { hf with
      file := by rintro _ ⟨⟩
      assigned := by cases a <;> exact hf.assigned
      fileOff := by rintro - _ ⟨⟩ }
  inApp q hq hstage := by
    have happ := hk.inApp q hq hstage
    exact { happ with file := by rintro _ ⟨⟩ }

theorem Kept.completes {q : Pending} (hk : Kept p h shell (some q)) (hq : q.stage ≠ .renamed)
    (hoff : q.settings.enabled = some false →
      q.change.enabled = some false ∨
      p.enabled = false ∧
      ∀ sh, shell = some sh → sh.point.switching = true → sh.ctl.enabled ≠ some true) :
    Kept { p with control := some q.settings.text } (h.completes q.change q.settings) shell
      none := by
  have happ := hk.inApp q rfl hq
  have hnew : h.count ∉ h.applied := fun hmem => Nat.lt_irrefl _ (hk.records.applied _ hmem)
  refine ⟨?_, ?_, fun sh hsh => ?_, by rintro _ ⟨⟩⟩
  · refine { hk.records with fileLast := fun f hf => hf, last := ?_, held := fun f hf => ?_, applied := ?_,
                             lastApplied := ?_ }
    · rintro _ ⟨⟩
      exact ⟨rfl, happ.made⟩
    · exact ⟨Nat.lt_succ_of_lt (hk.records.held f hf).1, (hk.records.held f hf).2⟩
    · exact fun i hi => Nat.lt_succ_of_lt (hk.records.applied i hi)
    · rintro _ ⟨⟩ hmem
      exact absurd hmem hnew
  · refine ⟨rfl, nofun, ?_, ?_⟩
    · rintro _ ⟨⟩
      exact .inr happ.seq
    · rintro _ ⟨⟩ hset
      exact (hoff hset).imp_right And.left
  · have hin := hk.inShell sh hsh
    refine ⟨?_, hin.gate, fun a site hp => ?_⟩
    · rintro - _ ⟨⟩ hmem
      exact absurd hmem hnew
    · have hf := hin.flight a site hp
      refine ⟨hf.ctl, ?_, nofun, fun _ => ⟨rfl, fun f hheld => ?_⟩, hf.unapplied,
        by cases a <;> exact hf.assigned, hf.heldOff, ?_⟩
      · rintro _ ⟨⟩ -
        exact ⟨hnew, happ.flight sh hsh (by rw [hp]; rfl)⟩
      · exact Nat.succ_lt_succ (hk.records.held f hheld).1
      · rintro rfl _ ⟨⟩ hset
        exact (hoff hset).imp_right fun hstays => hstays.2 sh hsh (by rw [hp]; rfl)

def System.CaughtUp (s : System) : Prop :=
  s.script.world.appliedSeq ≤ (s.app.store.current s.script.world.control).seq ∧
    ∀ sh ∈ s.script.shell, sh.point.applying = true →
      sh.ctl.seq ≤ (s.app.store.current s.script.world.control).seq

def State.StaysOff (s : State) : Prop :=
  s.world.enabled = false ∧ ∀ sh ∈ s.shell, sh.point.switching = true → sh.ctl.enabled ≠ some true

/-- No supervisor looks for the control file while that of a change is missing that has not been
applied; a change begins when the app has caught up, and if it does not say what to run, the file
does not say `restart`; and a change that was not asked to switch Waydroid off carries that along
only if it is off. -/
def Heeded (s : System) : Event → Prop
  | .script (.exec _) =>
    ∀ sh ∈ s.script.shell, sh.point.reading = true → s.script.world.control = none →
      s.hist.last.isSome = true → s.hist.seen = true
  | .app (.apply c) =>
    s.CaughtUp ∧ (c.run = none → (Control.read s.script.world.control).run ≠ .restart)
  | .app .rename => ∀ q ∈ s.app.pending, q.settings.enabled = some false →
      q.change.enabled = some false ∨ s.script.StaysOff
  | _ => True

instance (s : System) : Decidable s.CaughtUp := inferInstanceAs (Decidable (_ ∧ _))

instance (s : State) : Decidable s.StaysOff := inferInstanceAs (Decidable (_ ∧ _))

instance (s : System) (e : Event) : Decidable (Heeded s e) := by
  unfold Heeded
  split <;> infer_instance

namespace System

def Inv (s : System) : Prop := Kept s.script.world.params s.hist s.script.shell s.app.pending

variable {s s' : System}

theorem Inv.inFlight {q : Pending} (hi : s.Inv) (hq : s.app.pending = some q) :
    Kept s.script.world.params s.hist s.script.shell (some q) := hq ▸ hi

theorem Inv.appStep {a : AppAction} (hi : s.Inv) (hheed : Heeded s (.app a))
    (h : s.appStep a = some s') : s'.Inv := by
  cases a with
  | apply c =>
    obtain ⟨hnone, ⟨⟩⟩ := ite_none_left_eq_some.mp h
    obtain ⟨⟨hseq, hflight⟩, hrun⟩ := hheed
    have hnone : s.app.pending = none := not_isSome_iff_eq_none.mp hnone
    have hk : Kept s.script.world.params s.hist s.script.shell none := hnone ▸ hi
    exact hk.composes hseq hflight hrun
  | write =>
    obtain ⟨q, hq, h⟩ := bind_eq_some_iff.mp h
    obtain ⟨hstage, ⟨⟩⟩ := ite_none_right_eq_some.mp h
    exact (hi.inFlight hq).stage (by rw [hstage]; nofun)
  | unlink =>
    obtain ⟨q, hq, h⟩ := bind_eq_some_iff.mp h
    obtain ⟨hstage, ⟨⟩⟩ := ite_none_right_eq_some.mp h
    exact (hi.inFlight hq).removes.stage (by rw [hstage]; nofun)
  | rename =>
    obtain ⟨q, hq, h⟩ := bind_eq_some_iff.mp h
    obtain ⟨hstage, ⟨⟩⟩ := ite_none_right_eq_some.mp h
    have hdone := (hi.inFlight hq).completes (by rw [hstage]; nofun) (hheed q hq)
    refine { hdone with inApp := ?_ }
    rintro _ ⟨⟩ hne
    exact absurd rfl hne
  | fail =>
    obtain ⟨q, hq, h⟩ := bind_eq_some_iff.mp h
    obtain ⟨hstage, ⟨⟩⟩ := ite_none_left_eq_some.mp h
    exact (hi.inFlight hq).stage hstage
  | finish =>
    obtain ⟨q, hq, h⟩ := bind_eq_some_iff.mp h
    obtain ⟨-, ⟨⟩⟩ := ite_none_right_eq_some.mp h
    exact hi.abandoned
  | deliver i =>
    obtain ⟨r, -, rfl⟩ := map_eq_some_iff.mp h
    exact hi
  | kill =>
    cases h
    exact hi.abandoned
  | clear =>
    cases h
    exact hi.removes.abandoned

theorem Inv.scriptStep {a : Action} (hi : s.Inv) (hheed : Heeded s (.script a))
    (ho : ∀ o, a = .outside o → o.settings = false) (h : s.scriptStep a = some s') : s'.Inv := by
  obtain ⟨script, hstep, rfl⟩ := map_eq_some_iff.mp h
  cases a with
  | start demand =>
    obtain ⟨hnone, ⟨⟩⟩ := ite_none_left_eq_some.mp hstep
    have hnone : s.script.shell = none := not_isSome_iff_eq_none.mp hnone
    have hk : Kept s.script.world.params s.hist none s.app.pending := hnone ▸ hi
    exact hk.starts demand
  | kill =>
    obtain ⟨hsome, ⟨⟩⟩ := ite_none_right_eq_some.mp hstep
    obtain ⟨sh, hsh⟩ := isSome_iff_exists.mp hsome
    have hk : Kept s.script.world.params s.hist (some sh) s.app.pending := hsh ▸ hi
    exact hk.gone
  | exec env =>
    obtain ⟨sh, hsh, hmap⟩ := bind_eq_some_iff.mp hstep
    obtain ⟨⟨w', next⟩, hexec, rfl⟩ := map_eq_some_iff.mp hmap
    have hk : Kept s.script.world.params s.hist (some sh) s.app.pending := hsh ▸ hi
    have hnext := hk.exec (hheed sh hsh) hexec
    dsimp only [Inv]
    rw [hsh]
    exact hnext
  | outside o =>
    obtain ⟨w', hact, rfl⟩ := map_eq_some_iff.mp hstep
    dsimp only [Inv]
    rw [World.act_params hact (ho o rfl)]
    exact hi
  | reboot =>
    cases hstep
    exact hi.reboots

theorem Inv.step {e : Event} (hi : s.Inv) (hheed : Heeded s e) (h : s.step e = some s') :
    s'.Inv := by
  cases e with
  | app a => exact hi.appStep hheed h
  | script a =>
    cases a with
    | outside o =>
      obtain ⟨ho, h⟩ := ite_none_left_eq_some.mp h
      refine hi.scriptStep hheed ?_ h
      rintro _ ⟨⟩
      exact Bool.eq_false_of_not_eq_true ho
    | start | kill | exec | reboot => exact hi.scriptStep hheed nofun h

theorem Inv.init (hcontrol : s.script.world.control = none) (hshell : s.script.shell = none)
    (happ : s.app = {}) (hhist : s.hist = {}) : s.Inv := by
  unfold Inv
  rw [hshell, happ, hhist]
  refine ⟨⟨?_, ?_, ?_, ?_, ?_, ?_, ?_, nodup_nil, ?_, ?_, rfl⟩, ⟨hcontrol, nofun, ?_, ?_⟩, ?_, ?_⟩
  all_goals rintro _ ⟨⟩

end System

/-- **Every change is applied once**, in any run of the app and of supervisors whose steps heed the
conditions. -/
theorem changes_applied_once {s s' : System} {events : List Event}
    (hcontrol : s.script.world.control = none) (hshell : s.script.shell = none)
    (happ : s.app = {}) (hhist : s.hist = {}) (hheed : Along System.step Heeded s events)
    (hrun : run System.step s events = some s') : AppliedOnce s' := by
  have hi : s'.Inv := run_invariant_along (fun _ _ _ hi hh h => System.Inv.step hi hh h) hheed hrun
    (System.Inv.init hcontrol hshell happ hhist)
  exact ⟨hi.agrees.values, hi.records.once, fun f hf => (hi.records.restarted f hf).2,
    hi.records.ends, hi.records.disabled, hi.records.skipped⟩

def asks (c : Change) : List Event :=
  [.app (.apply c), .app .write, .app .unlink, .app .rename, .app .finish]

def commands (n : Nat) : List Event := List.replicate n (.script exec)

def unasked (enabled : Bool) : System :=
  { script := { world := { dataImages := some 1, enabled } } }

def restartHeeded : List Event :=
  List.flatten
    [(comesUp true ++ shows).map .script, asks { autostart := some true }, commands 11,
      asks { run := some .restart }, commands 22, (builds 20 ++ boots 20).map .script]

theorem changes_applied_restart :
    ∃ s, run System.step (unasked true) restartHeeded = some s ∧ s.hist.restarted.length = 1 ∧
      AppliedOnce s := by
  have hcheck : check System.step (fun s e => decide (Heeded s e)) (unasked true) restartHeeded =
      true := by
    decide +kernel
  obtain ⟨s, hrun, hone⟩ : ∃ s, run System.step (unasked true) restartHeeded = some s ∧
      s.hist.restarted.length = 1 := exists_of_any (by decide +kernel)
  exact ⟨s, hrun, hone, changes_applied_once rfl rfl rfl rfl
    (along_of_check (fun _ _ => of_decide_eq_true) hcheck) hrun⟩

def restartCarried : List Event :=
  List.flatten
    [(comesUp true ++ shows).map .script, asks { run := some .restart }, commands 22,
      (builds 20 ++ boots 20).map .script, asks { idleStop := some 600 }, commands 6]

def fileLost : List Event :=
  List.flatten
    [asks { autostart := some true },
      [.app (.apply { idleStop := some 600 }), .app .write, .app .unlink, .app .kill,
      .script (.start true)], commands 1]

def seqReused : List Event :=
  List.flatten
    [asks { run := some .on, enabled := some true }, [.script (.start true)], commands 5,
      [.script .kill, .app .clear], asks { enabled := some false }, [.script (.start true)],
      commands 1]

def staleReport : List Event :=
  List.flatten
    [[.script (.start true)], commands 2,
      [.app (.apply { run := some .on, enabled := some true }), .app .write, .app .unlink,
        .app .rename, .app .kill], commands 1, [.app (.deliver 0)], commands 2,
      [.script (.start true)], commands 25, (builds 10 ++ boots 10).map .script,
      asks { autostart := some true }, commands 8]

theorem changes_misapplied :
    (∃ s, run System.step (unasked true) restartCarried = some s ∧
       ∃ f ∈ s.hist.restarted, f.change = { idleStop := some 600 }) ∧
    (∃ s, run System.step (unasked true) fileLost = some s ∧ s.hist.seen = true ∧
       (∃ f ∈ s.hist.last, f.change.autostart = some true) ∧ s.script.world.autostart = false) ∧
    (∃ s, run System.step (unasked false) seqReused = some s ∧ s.hist.seen = true ∧
       s.hist.skipped = [1] ∧ (∃ f ∈ s.hist.last, f.id = 1 ∧ f.change.enabled = some false) ∧
       s.script.world.enabled = true) ∧
    ∃ s, run System.step (unasked false) staleReport = some s ∧
      ∃ o ∈ s.hist.disabled, ∃ f ∈ o, f.change = { autostart := some true } := by
  refine ⟨exists_of_any ?_, exists_of_any ?_, exists_of_any ?_, exists_of_any ?_⟩ <;> decide +kernel

end OniroSoc.Supervisor

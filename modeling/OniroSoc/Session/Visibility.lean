import OniroSoc.Support.Runs

/-!
# Session — visibility

Whether an Android window is in the foreground is kept in three places (`g_visible`, `g_thawed`, the
cgroup freezer) and published in two parameters (`waydroid.session.visible`,
`waydroid.input.grab`).  `ApplyVisibility` writes all five under `g_applyMutex`; `SetForeground`
writes the freezer and `g_thawed` without a lock.  An action is one write of one thread.

The container boots in the background and not frozen, so that the freezer answers to `g_visible`
from the first `FreezeContainer` on and not before.
-/

namespace OniroSoc.Session
open Support

/-- `kVisibilityLeaseMs`. -/
def visibilityLeaseMs : Int := 10 * 1000

/-- A write that `ApplyVisibility` makes after `g_visible`. -/
inductive Write where
  | freeze (freeze : Bool)
  | thawed (b : Bool)
  | visibleParam (b : Bool)
  | grab (b : Bool)
  deriving DecidableEq

/-- The write says that the windows are shown, or hidden. -/
@[grind =]
def Write.Says (visible : Bool) : Write → Prop
  | .freeze b => b = !visible
  | .thawed b => b = visible
  | .visibleParam b => b = visible
  | .grab b => b = visible

structure Visibility where
  /-- `g_visible` and its mirror for readers without the lock, `g_thawed`. -/
  (visible thawed : Bool := false)
  (holdHiddenUntilMs lastShowMs : Int := 0)
  /-- What `cgroup.freeze` holds. -/
  frozen : Bool := false
  /-- `FreezeContainer` has been called. -/
  asked : Bool := false
  (visibleParam grab : Bool := false)
  /-- What the `ApplyVisibility` that holds `g_applyMutex` has still to write. -/
  applying : List Write := []
  /-- The callers between their own check and `ApplyVisibility(false)`. -/
  hides : Nat := 0
  /-- The `SetForeground` calls between their two writes. -/
  foregrounds : List Bool := []
  deriving DecidableEq

inductive Action where
  | showEvent (now now' : Int) (overlay : Bool)
  | hideEvent
  | hideAndHold (now holdMs : Int)
  | checkVisibilityLease (now : Int)
  /-- `ApplyVisibility(false)`, called by `HideAndHold` or `CheckVisibilityLease`. -/
  | hideNext
  /-- The next write of the `ApplyVisibility` in progress. -/
  | proceed
  | setForeground (foreground : Bool)
  /-- The second write of a `SetForeground`. -/
  | storeThawed (foreground : Bool)
  deriving DecidableEq

def Action.hides : Action → Bool
  | .hideEvent => true
  | .hideNext => true
  | _ => false

namespace Visibility

/-- `FreezeContainer`, which the environment lets succeed. -/
@[grind =]
def freezeContainer (s : Visibility) (freeze : Bool) : Visibility :=
  { s with frozen := freeze, asked := true }

@[grind =]
def write (s : Visibility) : Write → Visibility
  | .freeze b => s.freezeContainer b
  | .thawed b => { s with thawed := b }
  | .visibleParam b => { s with visibleParam := b }
  | .grab b => { s with grab := b }

def showWrites (overlay : Bool) : List Write :=
  [.freeze false, .thawed true, .visibleParam true] ++ if overlay then [.grab true] else []

def hideWrites : List Write := [.thawed false, .freeze true, .visibleParam false, .grab false]

/-- `ApplyVisibility(true)` up to `g_visible = true`. -/
@[grind =]
def applyShown (s : Visibility) (now now' : Int) (overlay : Bool) : Visibility :=
  if now < s.holdHiddenUntilMs then s
  else if s.visible then { s with lastShowMs := now' }
  else { s with lastShowMs := now', visible := true, applying := showWrites overlay }

/-- `ApplyVisibility(false)` up to `g_visible = false`. -/
@[grind =]
def applyHidden (s : Visibility) : Visibility :=
  { s with visible := false, applying := hideWrites }

def step (s : Visibility) : Action → Option Visibility
  | .showEvent now now' overlay =>
    if s.applying = [] then some (s.applyShown now now' overlay) else none
  | .hideEvent => if s.applying = [] then some s.applyHidden else none
  | .hideAndHold now holdMs =>
    some { s with holdHiddenUntilMs := now + holdMs, hides := s.hides + 1 }
  | .checkVisibilityLease now =>
    if s.applying = [] then
      if !s.visible || now - s.lastShowMs < visibilityLeaseMs then some s
      else some { s with hides := s.hides + 1 }
    else none
  | .hideNext =>
    if s.applying = [] ∧ 0 < s.hides then some { s.applyHidden with hides := s.hides - 1 }
    else none
  | .proceed =>
    match s.applying with
    | [] => none
    | w :: ws => some ({ s with applying := ws }.write w)
  | .setForeground fg =>
    some { s.freezeContainer (!fg) with foregrounds := fg :: s.foregrounds }
  | .storeThawed fg =>
    if fg ∈ s.foregrounds then some { s with thawed := fg, foregrounds := s.foregrounds.erase fg }
    else none

/-- No call is in progress. -/
def Idle (s : Visibility) : Prop := s.applying = [] ∧ s.hides = 0 ∧ s.foregrounds = []

/-- The copies agree; the freezer does so from the first `FreezeContainer` on. -/
structure Consistent (s : Visibility) : Prop where
  thawed : s.thawed = s.visible
  frozen : s.asked = true → (s.frozen = false ↔ s.visible = true)
  visibleParam : s.visibleParam = s.visible
  grab : s.grab = true → s.visible = true

/-- The copies agree, but for what the `ApplyVisibility` in progress has still to write. -/
@[grind]
structure Agrees (s : Visibility) : Prop where
  thawed : s.thawed = s.visible ∨ .thawed s.visible ∈ s.applying
  frozen : (s.asked = true → (s.frozen = false ↔ s.visible = true)) ∨
    .freeze (!s.visible) ∈ s.applying
  visibleParam : s.visibleParam = s.visible ∨ .visibleParam s.visible ∈ s.applying
  grab : (s.grab = true → s.visible = true) ∨ .grab s.visible ∈ s.applying

/-- A write of `SetForeground` says what `g_visible` says, or the `ApplyVisibility` in progress will
overwrite it. -/
def InStep (s : Visibility) : Action → Prop
  | .setForeground fg => fg = s.visible ∨ .freeze (!s.visible) ∈ s.applying
  | .storeThawed fg => fg = s.visible ∨ .thawed s.visible ∈ s.applying
  | _ => True

theorem Agrees.consistent {s : Visibility} (h : s.Agrees) (hs : s.applying = []) :
    s.Consistent := by
  obtain ⟨ht, hf, hv, hg⟩ := h
  simp only [hs, List.not_mem_nil, or_false] at ht hf hv hg
  exact ⟨ht, hf, hv, hg⟩

/-- The invariant of a run: the copies agree, what is still to be written says what `g_visible`
says, and a container that `FreezeContainer` was never asked about runs. -/
@[grind]
structure Sound (s : Visibility) : Prop where
  agrees : s.Agrees
  faithful : ∀ w ∈ s.applying, w.Says s.visible
  booted : s.asked = false → s.frozen = false

section
variable {s s' : Visibility} {a : Action}

theorem Sound.applyHidden (h : s.Sound) : s.applyHidden.Sound := by
  refine ⟨?_, ?_, h.booted⟩
  · constructor <;> exact .inr (by simp [Visibility.applyHidden, hideWrites])
  · simp [Visibility.applyHidden, hideWrites, Write.Says]

theorem Sound.applyShown (h : s.Sound) (now now' : Int) (overlay : Bool) :
    (s.applyShown now now' overlay).Sound := by
  unfold Visibility.applyShown
  split_ifs with hhold hvis
  · exact h
  · exact ⟨{ h.agrees with }, h.faithful, h.booted⟩
  · -- The grab is the one copy that is not written every time; shown, it may be either.
    refine ⟨⟨.inr (by simp [showWrites]), .inr (by simp [showWrites]),
      .inr (by simp [showWrites]), .inl fun _ => rfl⟩, ?_, h.booted⟩
    cases overlay <;> simp [showWrites, Write.Says]

theorem Sound.write {w : Write} {ws : List Write} (h : s.Sound) (hs : s.applying = w :: ws) :
    Sound ({ s with applying := ws }.write w) := by
  have hw : w.Says s.visible := h.faithful w (by simp [hs])
  cases w <;> simp only [Write.Says] at hw <;> subst hw <;>
    refine ⟨⟨?_, ?_, ?_, ?_⟩, ?_, ?_⟩ <;> grind

theorem Sound.after_step (h : s.Sound) (hok : s.InStep a) (hs : s.step a = some s') :
    s'.Sound := by
  cases a with
  | showEvent now now' overlay =>
    obtain ⟨-, rfl⟩ : s.applying = [] ∧ s.applyShown now now' overlay = s' := by
      simpa [step] using hs
    exact h.applyShown now now' overlay
  | proceed =>
    simp only [step] at hs
    split at hs <;> cases hs
    exact h.write ‹_›
  | hideEvent | hideAndHold | checkVisibilityLease | hideNext =>
    grind [step, h.applyHidden]
  | setForeground fg => grind [step, InStep]
  | storeThawed fg => grind [step, InStep]

theorem not_agrees_of_not_inStep (hok : ¬ s.InStep a) (hs : s.step a = some s') : ¬ s'.Agrees := by
  cases a with
  | setForeground fg => grind [step, InStep]
  | storeThawed fg => grind [step, InStep]
  | showEvent | hideEvent | hideAndHold | checkVisibilityLease | hideNext | proceed =>
    exact fun _ => hok trivial

@[grind =]
theorem write_visible (s : Visibility) (w : Write) : (s.write w).visible = s.visible := by
  cases w <;> rfl

theorem visible_after_step (h : s.visible = true) (ha : a.hides = false)
    (hs : s.step a = some s') : s'.visible = true := by
  cases a <;> grind [step, Action.hides]

theorem visible_of_show {now now' : Int} {overlay : Bool} (hnow : ¬ now < s.holdHiddenUntilMs)
    (hs : s.step (.showEvent now now' overlay) = some s') : s'.visible = true := by
  grind [step]

end

/-- The compositor has started: nothing is shown, and the container boots not frozen. -/
def started : Visibility := {}

theorem started_sound : started.Sound :=
  ⟨⟨.inl rfl, .inl nofun, .inl rfl, .inl nofun⟩, nofun, fun _ => rfl⟩

theorem visible_after_run {s s' : Visibility} {as : List Action}
    (has : ∀ a ∈ as, a.hides = false) (h : run step s as = some s') (hs : s.visible = true) :
    s'.visible = true := by
  induction as generalizing s with
  | nil => cases h; exact hs
  | cons a as ih =>
    obtain ⟨s₁, h₁, h₂⟩ := run_cons_inv h
    obtain ⟨ha, has⟩ := List.forall_mem_cons.mp has
    exact ih has h₂ (visible_after_step hs ha h₁)

/-- **The copies of the visibility** agree with `g_visible`, but for what the `ApplyVisibility` in
progress has still to write, exactly if each write of `SetForeground` says what `g_visible` says or
is about to be overwritten.  Then an honoured SHOW leaves the container thawed. -/
theorem visibility_agrees_iff {as : List Action} {s : Visibility}
    (h : run step started as = some s) :
    (Always step Agrees started as ↔ Along step InStep started as) ∧
    (Along step InStep started as →
      (s.Idle → s.Consistent) ∧
      ∀ now now' overlay s₁, s.step (.showEvent now now' overlay) = some s₁ →
        ¬ now < s.holdHiddenUntilMs →
        ∀ bs s₂, run step s₁ bs = some s₂ → Along step InStep s₁ bs →
          (∀ b ∈ bs, b.hides = false) → s₂.applying = [] → s₂.frozen = false) := by
  refine ⟨?_, fun hok => ?_⟩
  · exact always_iff_along (fun _ hs => Sound.agrees hs)
      (fun _ _ _ hs hok h₁ => hs.after_step hok h₁)
      (fun _ _ _ _ hok h₁ => not_agrees_of_not_inStep hok h₁) h started_sound
  · have hsound : s.Sound :=
      run_invariant_along (fun _ _ _ hs hok h₁ => hs.after_step hok h₁) hok h started_sound
    refine ⟨fun hidle => hsound.agrees.consistent hidle.1, ?_⟩
    intro now now' overlay s₁ h₁ hnow bs s₂ h₂ hbs hhides hdone
    have hsound₂ : s₂.Sound :=
      run_invariant_along (fun _ _ _ hs hok h₁ => hs.after_step hok h₁) hbs h₂
        (hsound.after_step (a := .showEvent now now' overlay) trivial h₁)
    have hvis : s₂.visible = true := visible_after_run hhides h₂ (visible_of_show hnow h₁)
    -- A container no `FreezeContainer` was called for has booted and was never frozen.
    cases hasked : s₂.asked with
    | false => exact hsound₂.booted hasked
    | true => exact ((hsound₂.agrees.consistent hdone).frozen hasked).mpr hvis

/-- A SHOW with a `SetForeground(true)` between its writes. -/
def foregrounded : List Action :=
  [.showEvent 1 1 true, .proceed, .proceed, .setForeground true, .proceed, .storeThawed true,
    .proceed]

theorem visibility_agrees_iff_foregrounded :
    ∃ s, run step started foregrounded = some s ∧ s.Idle ∧ s.grab = true ∧
      s.asked = true ∧ s.frozen = false ∧
      (Always step Agrees started foregrounded ↔ Along step InStep started foregrounded) :=
  ⟨_, rfl, ⟨rfl, rfl, rfl⟩, rfl, rfl, rfl, (@visibility_agrees_iff foregrounded _ rfl).1⟩

/-- A SHOW, a `SetForeground(false)` and the next heartbeat. -/
def backgrounded : List Action :=
  [.showEvent 1 1 true, .proceed, .proceed, .proceed, .proceed, .setForeground false,
    .storeThawed false, .showEvent 2001 2001 true]

theorem heartbeat_leaves_frozen :
    ∃ s, run step started backgrounded = some s ∧ s.Idle ∧ s.visible = true ∧
      s.thawed = false ∧ s.frozen = true ∧ s.visibleParam = true ∧ s.grab = true ∧
      ¬ s.Consistent := by
  refine ⟨_, rfl, ⟨rfl, rfl, rfl⟩, rfl, rfl, rfl, rfl, rfl, fun h => ?_⟩
  exact absurd h.thawed (by decide)

end Visibility

end OniroSoc.Session

import OniroSoc.Support.Runs

/-!
# The emulator's display when its power is off

A power-off puts a black framebuffer on the primary plane, and the frames of the client are dropped
until the power is back on.  Every call of the composer HDI holds the mutex of the session.
-/

namespace OniroSoc.Emulator.Power
open Support

inductive PowerStatus where
  | on | standby | suspend | off
deriving DecidableEq

inductive Ret where
  | success | failure | nullPtr | paramErr
deriving DecidableEq

inductive Screen where
  | nothing
  | uncleared
  | black
  | client (buffer : Nat)
deriving DecidableEq

inductive Layer where
  | client | black
deriving DecidableEq

structure DrmDisplay where
  planes : Nat
  propFenceIn : Nat → Bool
  powerStatus : PowerStatus := .on
  blackLayer : Option Bool := none
  clientBuffer : Nat
  acquireFence : Int := -1
  activeModeId : Int := 0
  needModeSet : Bool := true
  compLayers : List Layer := [.client]
  screen : Screen

structure PlaneEnv where
  fenceIn : Bool := true
  (gemBuffer fbId crtcId : Bool := true)

structure ApplyEnv where
  (atomicAlloc outFence : Bool := true)
  plane : Nat → PlaneEnv := fun _ => {}
  (modeBlock active modeId connectorCrtc atomicCommit : Bool := true)

structure BlackEnv where
  (modeFromId allocMem mmap memset : Bool := true)
  apply : ApplyEnv := {}

namespace DrmDisplay

def layerFence (d : DrmDisplay) : Layer → Int
  | .client => d.acquireFence
  | .black => -1

def framebuffer (d : DrmDisplay) : Layer → Screen
  | .client => .client d.clientBuffer
  | .black => if d.blackLayer = some true then .black else .uncleared

def setLayers (d : DrmDisplay) (clientLayer : Layer) : DrmDisplay :=
  { d with compLayers := [clientLayer] }

abbrev Request := List (Nat × Screen)

def applyPlane (d : DrmDisplay) (env : PlaneEnv) (layer : Layer) (plane : Nat)
    (pset : Request) : Request × Ret :=
  if d.propFenceIn plane && d.layerFence layer ≥ 0 && !env.fenceIn then (pset, .failure)
  else if !env.gemBuffer then (pset, .failure)
  else if !env.fbId then (pset, .failure)
  else if !env.crtcId then ((plane, d.framebuffer layer) :: pset, .failure)
  else ((plane, d.framebuffer layer) :: pset, .success)

def applyPlanes (d : DrmDisplay) (env : Nat → PlaneEnv) : List Layer → Nat → Request → Request
  | [], _, pset => pset
  | layer :: layers, i, pset =>
    match d.applyPlane (env i) layer i pset with
    | (pset, .success) => d.applyPlanes env layers (i + 1) pset
    | (pset, _) => pset

def updateMode (d : DrmDisplay) (env : ApplyEnv) : Ret :=
  if d.needModeSet && env.modeBlock then
    if !env.active then .failure
    else if !env.modeId then .failure
    else if !env.connectorCrtc then .failure
    else .success
  else .success

def apply (d : DrmDisplay) (env : ApplyEnv) : DrmDisplay × Ret :=
  if d.planes < d.compLayers.length then (d, .failure)
  else if !env.atomicAlloc then (d, .nullPtr)
  else if !env.outFence then (d, .failure)
  else
    -- the result of the loop is overwritten by that of `UpdateMode`
    let pset := d.applyPlanes env.plane d.compLayers 0 []
    if d.updateMode env ≠ .success then (d, .failure)
    else if !env.atomicCommit then (d, .failure)
    else ({ d with screen := (pset.lookup 0).getD d.screen }, .success)

def makeBlackLayer (d : DrmDisplay) (env : BlackEnv) : Option DrmDisplay :=
  if d.blackLayer.isSome then some d
  else if !env.modeFromId then none
  else if !env.allocMem then none
  else if !env.mmap then none
  else some { d with blackLayer := some env.memset }

def showBlackFrame (d : DrmDisplay) (env : BlackEnv) : DrmDisplay × Ret :=
  match d.makeBlackLayer env with
  | none => (d, .failure)
  | some d =>
    let (d, ret) := (d.setLayers .black).apply env.apply
    (d.setLayers .client, ret)

def setDisplayPowerStatus (d : DrmDisplay) (env : BlackEnv) : Option PowerStatus → DrmDisplay × Ret
  | none => (d, .paramErr)
  | some status =>
    -- a black frame that fails is only logged
    let d := if status ≠ .on ∧ d.powerStatus = .on then (d.showBlackFrame env).1 else d
    ({ d with powerStatus := status }, .success)

def composerCommit (d : DrmDisplay) (gfx : Bool) (env : ApplyEnv) : DrmDisplay × Ret :=
  if !gfx then (d, .failure) else d.apply env

def commit (d : DrmDisplay) (fence gfx : Bool) (env : ApplyEnv) : DrmDisplay × Ret :=
  if !fence then (d, .nullPtr)
  else if d.powerStatus ≠ .on then (d, .success)
  else ((d.composerCommit gfx env).1, .success)

def setDisplayClientBuffer (d : DrmDisplay) (buffer : Option Nat)
    (fence dup : Int) : DrmDisplay × Ret :=
  match buffer with
  | none => (d, .success)
  | some buffer =>
    ({ d with clientBuffer := buffer, acquireFence := if fence > -1 then dup else d.acquireFence },
      .success)

def prepareDisplayLayers (d : DrmDisplay) : DrmDisplay × Ret := (d.setLayers .client, .success)

def setDisplayMode (d : DrmDisplay) (modeId : UInt32) : DrmDisplay × Ret :=
  let id := modeId.toInt32.toInt
  if id > 0 then (d, .paramErr)
  else ({ d with needModeSet := d.needModeSet || d.activeModeId ≠ id, activeModeId := id },
    .success)

/-- The display after `Init`: the first frame was allocated, and may have been put on the screen. -/
def init (planes : Nat) (propFenceIn : Nat → Bool) (buffer : Nat) (pushed : Bool) : DrmDisplay where
  planes
  propFenceIn
  clientBuffer := buffer
  screen := if pushed then .client buffer else .nothing

end DrmDisplay

inductive Call where
  | setDisplayPowerStatus (status : Option PowerStatus) (env : BlackEnv)
  | commit (fence gfx : Bool) (env : ApplyEnv)
  | setDisplayClientBuffer (buffer : Option Nat) (fence dup : Int)
  | prepareDisplayLayers
  | setDisplayMode (modeId : UInt32)

def DrmDisplay.call (d : DrmDisplay) : Call → DrmDisplay × Ret
  | .setDisplayPowerStatus status env => d.setDisplayPowerStatus env status
  | .commit fence gfx env => d.commit fence gfx env
  | .setDisplayClientBuffer buffer fence dup => d.setDisplayClientBuffer buffer fence dup
  | .prepareDisplayLayers => d.prepareDisplayLayers
  | .setDisplayMode modeId => d.setDisplayMode modeId

structure System where
  display : DrmDisplay
  awaiting : Bool := false
  first : Bool := false

def System.step (s : System) (call : Call) : Option System :=
  let (display, ret) := s.display.call call
  some <| match call with
    | .setDisplayPowerStatus (some .on) _ => ⟨display, true, false⟩
    | .setDisplayPowerStatus (some _) _ => ⟨display, false, false⟩
    | .commit _ _ _ =>
      if ret = .success ∧ display.powerStatus = .on then ⟨display, false, s.awaiting⟩
      else ⟨display, s.awaiting, false⟩
    | _ => ⟨display, s.awaiting, false⟩

/-- A powered-off display shows no client pixels, and the first frame after a power-on is the
client's. -/
structure Blank (s : System) : Prop where
  black : s.display.powerStatus ≠ .on → s.display.screen = .black
  client : s.first = true → s.display.screen = .client s.display.clientBuffer

def DrmDisplay.Puts (d : DrmDisplay) (layer : Layer) (env : ApplyEnv) : Prop :=
  0 < d.planes ∧ env.atomicAlloc = true ∧ env.outFence = true ∧
    (d.propFenceIn 0 = true → 0 ≤ d.layerFence layer
    → (env.plane 0).fenceIn = true) ∧ (env.plane 0).gemBuffer = true ∧ (env.plane 0).fbId = true ∧
    (d.needModeSet = true → env.modeBlock = true → env.active = true ∧ env.modeId = true ∧
    env.connectorCrtc = true) ∧ env.atomicCommit = true

def DrmDisplay.Blackens (d : DrmDisplay) (env : BlackEnv) : Prop :=
  d.blackLayer = some true ∨
    d.blackLayer = none ∧ env.modeFromId = true ∧ env.allocMem = true ∧ env.mmap = true ∧
    env.memset = true

def Fits (s : System) : Call → Prop
  | .setDisplayPowerStatus (some status) env =>
    status ≠ .on → s.display.powerStatus = .on →
      s.display.screen = .black ∨ s.display.Blackens env ∧ s.display.Puts .black env.apply
  | .commit fence gfx env =>
    s.awaiting = true → s.display.powerStatus = .on → fence = true →
      s.display.screen = .client s.display.clientBuffer ∨ gfx = true ∧ s.display.Puts .client env
  | _ => True

namespace DrmDisplay
variable {d : DrmDisplay} {layer : Layer} {env : ApplyEnv}

theorem applyPlanes_single (d : DrmDisplay) (env : Nat → PlaneEnv) (layer : Layer) :
    d.applyPlanes env [layer] 0 [] =
      if (d.propFenceIn 0 = true → 0 ≤ d.layerFence layer → (env 0).fenceIn = true) ∧
        (env 0).gemBuffer = true ∧ (env 0).fbId = true then [(0, d.framebuffer layer)] else [] := by
  rw [applyPlanes, applyPlane]
  cases hfence : d.propFenceIn 0 && d.layerFence layer ≥ 0 && !(env 0).fenceIn <;>
    cases hgem : (env 0).gemBuffer <;> cases hfb : (env 0).fbId <;> cases hcrtc : (env 0).crtcId <;>
    simp_all [applyPlanes]

theorem updateMode_success_iff :
    d.updateMode env = .success ↔
      (d.needModeSet = true → env.modeBlock = true →
        env.active = true ∧ env.modeId = true ∧ env.connectorCrtc = true) := by
  rw [updateMode]
  split_ifs <;> simp_all

theorem apply_puts (hlayers : d.compLayers = [layer]) (h : d.Puts layer env) :
    (d.apply env).1 = { d with screen := d.framebuffer layer } := by
  obtain ⟨hplanes, halloc, hout, hfence, hgem, hfb, hmode, hcommit⟩ := h
  have hlt : ¬ d.planes < d.compLayers.length := by
    rw [hlayers]
    exact not_lt.mpr hplanes
  have hpset : d.applyPlanes env.plane d.compLayers 0 [] = [(0, d.framebuffer layer)] := by
    rw [hlayers, applyPlanes_single, if_pos ⟨hfence, hgem, hfb⟩]
  rw [apply, if_neg hlt, if_neg (by simp [halloc]), if_neg (by simp [hout])]
  dsimp only
  rw [hpset, if_neg (not_not.mpr (updateMode_success_iff.mpr hmode)), if_neg (by simp [hcommit])]
  rfl

theorem apply_fails (hlayers : d.compLayers = [layer]) (h : ¬ d.Puts layer env) :
    (d.apply env).1 = d := by
  rw [apply]
  split_ifs with hlt halloc hout hmode hcommit
  · rfl
  · rfl
  · rfl
  · rfl
  · rfl
  · -- the commit succeeded, so the framebuffer was not in the request
    have hnone : d.applyPlanes env.plane d.compLayers 0 [] = [] := by
      rw [hlayers] at hlt ⊢
      rw [applyPlanes_single]
      refine if_neg fun ⟨hfence, hgem, hfb⟩ => h ⟨not_lt.mp hlt, ?_, ?_, hfence, hgem, hfb, ?_, ?_⟩
      · simpa using halloc
      · simpa using hout
      · exact updateMode_success_iff.mp (not_not.mp hmode)
      · simpa using hcommit
    dsimp only
    rw [hnone]
    rfl

theorem makeBlackLayer_cases (d : DrmDisplay) (env : BlackEnv) :
    (d.makeBlackLayer env = none ∧ ¬ d.Blackens env) ∨
      ∃ cleared, d.makeBlackLayer env = some { d with blackLayer := some cleared } ∧
        (d.Blackens env ↔ cleared = true) := by
  cases hlayer : d.blackLayer with
  | some cleared =>
    refine .inr ⟨cleared, ?_, ?_⟩
    · rw [makeBlackLayer, if_pos (by simp [hlayer]), ← hlayer]
    · simp [Blackens, hlayer]
  | none =>
    rw [makeBlackLayer, if_neg (by simp [hlayer])]
    cases hmode : env.modeFromId <;> cases halloc : env.allocMem <;> cases hmap : env.mmap <;>
      simp [Blackens, hlayer, hmode, halloc, hmap]

variable {env : BlackEnv}

theorem showBlackFrame_of_make {cleared : Bool}
    (hmake : d.makeBlackLayer env = some { d with blackLayer := some cleared }) :
    (d.showBlackFrame env).1 =
      ((({ d with blackLayer := some cleared } : DrmDisplay).setLayers .black).apply
      env.apply).1.setLayers .client := by
  rw [showBlackFrame, hmake]

theorem showBlackFrame_puts (hlayers : d.compLayers = [.client]) (hmake : d.Blackens env)
    (h : d.Puts .black env.apply) :
    (d.showBlackFrame env).1 = { d with blackLayer := some true, screen := .black } := by
  rcases d.makeBlackLayer_cases env with ⟨-, hno⟩ | ⟨cleared, hmade, hcleared⟩
  · exact absurd hmake hno
  · obtain rfl := hcleared.mp hmake
    have happly :=
      apply_puts (d := ({ d with blackLayer := some true } : DrmDisplay).setLayers .black) rfl h
    rw [showBlackFrame_of_make hmade, happly]
    simp [setLayers, framebuffer, hlayers]

theorem showBlackFrame_fails (hlayers : d.compLayers = [.client])
    (h : ¬ (d.Blackens env ∧ d.Puts .black env.apply)) :
    ∃ blackLayer screen, (d.showBlackFrame env).1 = { d with blackLayer, screen } ∧
      (screen = d.screen ∨ screen = .uncleared) ∧
      (d.blackLayer = some true → blackLayer = some true ∧ screen = d.screen) :=
    by
  rcases d.makeBlackLayer_cases env with ⟨hnone, -⟩ | ⟨cleared, hmade, hcleared⟩
  · refine ⟨d.blackLayer, d.screen, ?_, .inl rfl, fun h => ⟨h, rfl⟩⟩
    rw [showBlackFrame, hnone]
  · have hthere : d.blackLayer = some true → cleared = true := fun h => hcleared.mp (.inl h)
    rw [showBlackFrame_of_make hmade]
    by_cases hputs : d.Puts .black env.apply
    · have happly := apply_puts (d := ({ d with blackLayer := some cleared } : DrmDisplay).setLayers .black) rfl hputs
      have hno : cleared ≠ true := fun hyes => h ⟨hcleared.mpr hyes, hputs⟩
      refine ⟨some cleared, .uncleared, ?_, .inr rfl, fun h => absurd (hthere h) hno⟩
      rw [happly]
      simp [setLayers, framebuffer, hlayers, hno]
    · have happly := apply_fails (d := ({ d with blackLayer := some cleared } : DrmDisplay).setLayers .black) rfl hputs
      refine ⟨some cleared, d.screen, ?_, .inl rfl, fun h => ⟨by rw [hthere h], rfl⟩⟩
      rw [happly]
      simp [setLayers, hlayers]

end DrmDisplay

structure Proper (d : DrmDisplay) : Prop where
  compLayers : d.compLayers = [.client]
  black : d.screen = .black → d.blackLayer = some true

section Runs
variable {d : DrmDisplay} {s s' : System}

theorem showBlackFrame_black (hd : Proper d) (env : BlackEnv) :
    Proper (d.showBlackFrame env).1 ∧ ((d.showBlackFrame env).1.screen = .black ↔
      d.screen = .black ∨ d.Blackens env ∧ d.Puts .black env.apply) := by
  by_cases h : d.Blackens env ∧ d.Puts .black env.apply
  · rw [DrmDisplay.showBlackFrame_puts hd.compLayers h.1 h.2]
    exact ⟨⟨hd.compLayers, fun _ => rfl⟩, ⟨fun _ => .inr h, fun _ => rfl⟩⟩
  · obtain ⟨blackLayer, screen, heq, hscreen, hkept⟩ :=
      DrmDisplay.showBlackFrame_fails hd.compLayers h
    rw [heq]
    refine ⟨⟨hd.compLayers, fun hblack => ?_⟩, ⟨fun hblack => ?_, fun hblack => ?_⟩⟩
    · rcases hscreen with rfl | rfl
      · exact (hkept (hd.black hblack)).1
      · cases hblack
    · rcases hscreen with rfl | rfl
      · exact .inl hblack
      · cases hblack
    · have hblack := hblack.resolve_right h
      exact (hkept (hd.black hblack)).2.trans hblack

theorem composerCommit_client (hd : Proper d) (gfx : Bool) (env : ApplyEnv) :
    Proper (d.composerCommit gfx env).1 ∧ (d.composerCommit gfx env).1.powerStatus = d.powerStatus ∧
    (d.composerCommit gfx env).1.clientBuffer = d.clientBuffer ∧
    ((d.composerCommit gfx env).1.screen = .client d.clientBuffer ↔
      d.screen = .client d.clientBuffer ∨ gfx = true ∧ d.Puts .client env) := by
  by_cases h : gfx = true ∧ d.Puts .client env
  · have heq : (d.composerCommit gfx env).1 = { d with screen := .client d.clientBuffer } := by
      rw [DrmDisplay.composerCommit, h.1]
      exact DrmDisplay.apply_puts hd.compLayers h.2
    rw [heq]
    exact ⟨⟨hd.compLayers, nofun⟩, rfl, rfl, ⟨fun _ => .inr h, fun _ => rfl⟩⟩
  · have heq : (d.composerCommit gfx env).1 = d := by
      rw [DrmDisplay.composerCommit]
      cases gfx with
      | false => rfl
      | true => exact DrmDisplay.apply_fails hd.compLayers fun hputs => h ⟨rfl, hputs⟩
    rw [heq]
    exact ⟨hd, rfl, rfl, ⟨.inl, fun hscreen => hscreen.resolve_right h⟩⟩

theorem blank_of_screen (hs : Blank s) {awaiting : Bool}
    (hpower : d.powerStatus = s.display.powerStatus) (hscreen : d.screen = s.display.screen) :
    Blank ⟨d, awaiting, false⟩ := by
  refine ⟨fun h => ?_, nofun⟩
  dsimp only at h ⊢
  rw [hpower] at h
  exact hscreen.trans (hs.black h)

theorem step_blank {call : Call} (hs : Blank s) (hd : Proper s.display)
    (h : s.step call = some s') : Proper s'.display ∧ (Blank s' ↔ Fits s call) := by
  cases call with
  | setDisplayPowerStatus status env =>
    cases status with
    | none =>
      cases h
      exact ⟨hd, iff_of_true (blank_of_screen hs rfl rfl) trivial⟩
    | some status =>
      by_cases hon : status = .on
      · subst hon
        cases h
        exact ⟨{ hd with },
          iff_of_true ⟨fun hoff => absurd rfl hoff, nofun⟩ fun hoff => absurd rfl hoff⟩
      · have hs' : s' = ⟨(s.display.setDisplayPowerStatus env (some status)).1, false, false⟩ := by
          cases status with
          | on => exact absurd rfl hon
          | _ => exact (Option.some.inj h).symm
        subst hs'
        by_cases hpower : s.display.powerStatus = .on
        · obtain ⟨hproper, hblack⟩ := showBlackFrame_black hd env
          rw [DrmDisplay.setDisplayPowerStatus]
          dsimp only
          rw [if_pos ⟨hon, hpower⟩]
          refine ⟨{ hproper with }, ?_⟩
          constructor
          · intro hblank _ _
            exact hblack.mp (hblank.black hon)
          · intro hfits
            exact ⟨fun _ => hblack.mpr (hfits hon hpower), nofun⟩
        · rw [DrmDisplay.setDisplayPowerStatus]
          dsimp only
          rw [if_neg fun h => hpower h.2]
          exact ⟨{ hd with },
            iff_of_true ⟨fun _ => hs.black hpower, nofun⟩ fun _ h => absurd h hpower⟩
  | commit fence gfx env =>
    cases fence with
    | false =>
      cases h
      exact ⟨hd, iff_of_true (blank_of_screen hs rfl rfl) fun _ _ h => nomatch h⟩
    | true =>
      by_cases hpower : s.display.powerStatus = .on
      · obtain ⟨hproper, hkeep, hbuffer, hclient⟩ := composerCommit_client hd gfx env
        have hcommit : s.display.commit true gfx env = ((s.display.composerCommit gfx env).1, .success) := by
          rw [DrmDisplay.commit, if_neg (by simp), if_neg (not_not.mpr hpower)]
        have hs' : s' = ⟨(s.display.composerCommit gfx env).1, false, s.awaiting⟩ := by
          rw [System.step, DrmDisplay.call, hcommit] at h
          dsimp only at h
          rw [if_pos ⟨rfl, hkeep.trans hpower⟩] at h
          exact (Option.some.inj h).symm
        subst hs'
        refine ⟨hproper, ?_⟩
        constructor
        · intro hblank hawait _ _
          rw [← hclient, ← hbuffer]
          exact hblank.client hawait
        · intro hfits
          refine ⟨fun hoff => absurd (hkeep.trans hpower) hoff, fun hawait => ?_⟩
          dsimp only
          rw [hbuffer]
          exact hclient.mpr (hfits hawait hpower rfl)
      · have hcommit : s.display.commit true gfx env = (s.display, .success) := by
          rw [DrmDisplay.commit, if_neg (by simp), if_pos hpower]
        have hs' : s' = ⟨s.display, s.awaiting, false⟩ := by
          rw [System.step, DrmDisplay.call, hcommit] at h
          dsimp only at h
          rw [if_neg fun h => hpower h.2] at h
          exact (Option.some.inj h).symm
        subst hs'
        exact ⟨hd, iff_of_true (blank_of_screen hs rfl rfl) fun _ h => absurd h hpower⟩
  | setDisplayClientBuffer buffer fence dup =>
    cases h
    cases buffer with
    | none => exact ⟨hd, iff_of_true (blank_of_screen hs rfl rfl) trivial⟩
    | some buffer =>
      exact ⟨{ hd with }, iff_of_true (blank_of_screen hs rfl rfl) trivial⟩
  | prepareDisplayLayers =>
    cases h
    exact ⟨⟨rfl, hd.black⟩, iff_of_true (blank_of_screen hs rfl rfl) trivial⟩
  | setDisplayMode modeId =>
    rw [System.step, DrmDisplay.call, DrmDisplay.setDisplayMode] at h
    dsimp only at h
    split_ifs at h
    · cases h
      exact ⟨hd, iff_of_true (blank_of_screen hs rfl rfl) trivial⟩
    · cases h
      exact ⟨{ hd with }, iff_of_true (blank_of_screen hs rfl rfl) trivial⟩

/-- **The runs in which a powered-off display shows no client pixels** and the first frame after a
power-on is the client's current one. -/
theorem blank_iff (planes : Nat) (propFenceIn : Nat → Bool) (buffer : Nat) (pushed : Bool)
    {calls : List Call}
    (hrun : run System.step ⟨DrmDisplay.init planes propFenceIn buffer pushed, false, false⟩ calls =
        some s) :
    Always System.step Blank ⟨DrmDisplay.init planes propFenceIn buffer pushed, false, false⟩
      calls ↔
      Along System.step Fits ⟨DrmDisplay.init planes propFenceIn buffer pushed, false, false⟩
        calls := by
  refine always_iff_along (J := fun s => Blank s ∧ Proper s.display) (fun _ h => h.1) ?_ ?_ hrun ?_
  · intro s call s₁ hs hfits h
    obtain ⟨hproper, hblank⟩ := step_blank hs.1 hs.2 h
    exact ⟨hblank.mpr hfits, hproper⟩
  · intro s call s₁ hs hfits h
    exact fun hblank => hfits ((step_blank hs.1 hs.2 h).2.mp hblank)
  · refine ⟨⟨fun hoff => absurd rfl hoff, nofun⟩, rfl, fun hblack => ?_⟩
    cases pushed <;> cases hblack

theorem blank_iff_cycle :
    Always System.step Blank ⟨DrmDisplay.init 1 (fun _ => true) 7 true, false, false⟩
      [.setDisplayClientBuffer (some 8) 3 4, .commit true true {},
       .setDisplayPowerStatus (some .off) {}, .setDisplayClientBuffer (some 9) 5 6,
       .commit true true {}, .setDisplayPowerStatus (some .on) {}, .commit true true {}] := by
  have hclient : ∀ {d : DrmDisplay} {layer : Layer}, 0 < d.planes → d.Puts layer {} := fun h =>
    ⟨h, rfl, rfl, fun _ _ => rfl, rfl, rfl, fun _ _ => ⟨rfl, rfl, rfl⟩, rfl⟩
  refine (blank_iff 1 (fun _ => true) 7 true rfl).mpr ?_
  refine along_cons trivial rfl (along_cons nofun rfl (along_cons ?_ rfl (along_cons trivial rfl
    (along_cons nofun rfl (along_cons ?_ rfl (along_cons ?_ rfl trivial))))))
  · exact fun _ _ => .inr ⟨.inr ⟨rfl, rfl, rfl, rfl, rfl⟩, hclient Nat.one_pos⟩
  · exact fun hoff => absurd rfl hoff
  · exact fun _ _ _ => .inr ⟨rfl, hclient Nat.one_pos⟩

theorem pixels_shown :
    (∃ s, run System.step ⟨DrmDisplay.init 1 (fun _ => true) 7 true, false, false⟩
        [.setDisplayPowerStatus (some .off) { allocMem := false }] = some s ∧
      s.display.powerStatus = .off ∧ s.display.screen = .client 7) ∧
    ∃ s, run System.step ⟨DrmDisplay.init 1 (fun _ => true) 7 true, false, false⟩
        [.setDisplayPowerStatus (some .off) {}, .setDisplayClientBuffer (some 8) (-1) (-1),
         .setDisplayPowerStatus (some .on) {},
         .commit true true { plane := fun _ => { gemBuffer := false } }] = some s ∧
      s.first = true ∧ s.display.screen = .black :=
  ⟨⟨_, rfl, rfl, rfl⟩, ⟨_, rfl, rfl, rfl⟩⟩

end Runs

end OniroSoc.Emulator.Power

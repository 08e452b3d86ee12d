import Mathlib.Data.UInt
import OniroSoc.Emulator.Power

/-!
# Modes and frames of the emulator's display

A mode is known by its place in the kernel's list for the connector.  `SetDisplayMode` hands the id
to the CRTC, which does not know the list.  `Commit` hands an atomic request with the properties of
a frame to the kernel, with those of the mode when one was set.
-/

namespace OniroSoc.Emulator.Atomic
open List Option
open Power

structure ModeInfo where
  (hdisplay vdisplay vrefresh : Nat)
  preferred : Bool := false
deriving DecidableEq

structure Connector where
  mModes : List (Int × ModeInfo) := []
  mPreferenceId : Int := -1

namespace Connector

def addModes (c : Connector) (i : Int) : List ModeInfo → Connector
  | [] => c
  | mode :: modes =>
    let preferenceId := if c.mPreferenceId = -1 ∧ mode.preferred then i else c.mPreferenceId
    addModes ⟨c.mModes ++ [(i, mode)], preferenceId⟩ (i + 1) modes

def initModes (modes : List ModeInfo) : Connector := addModes {} 0 modes

def supportedIds (c : Connector) : List Int := c.mModes.map Prod.fst

def getModeFromId (c : Connector) (id : Int) : Option ModeInfo := c.mModes.lookup id

end Connector

inductive Property where
  | outFence
  | fenceIn (plane : Nat)
  | fbId (plane : Nat) (fb : Screen)
  | planeCrtc (plane : Nat)
  | active
  | modeId (mode : ModeInfo)
  | connectorCrtc
deriving DecidableEq

abbrev Request := List Property

structure Output where
  display : DrmDisplay
  modes : List ModeInfo
  count : modes.length < 2 ^ 31
  /-- `releaseFences_` of the client layer.  A fence is known by the number of the request that it
  came with; `none` is a `dup` that failed. -/
  releaseFences : List (Option Nat) := []
  requests : List (Request × Bool) := []
  client : display.compLayers = [.client]
  earlier : ∀ k, some k ∈ releaseFences → k < requests.length
  modeSet : display.activeModeId = -1 ∨ display.needModeSet = true

namespace Output

def connector (o : Output) : Connector := .initModes o.modes

def setDisplayMode (o : Output) (modeId : UInt32) : Output × Ret :=
  let id := modeId.toInt32.toInt
  if id > 0 then (o, .paramErr)
  else
    let changed := o.display.activeModeId ≠ id
    ({ o with
      display :=
        { o.display with needModeSet := o.display.needModeSet || changed, activeModeId := id }
      modeSet := by
        rcases o.modeSet with h | h
        · by_cases hid : id = -1
          · exact .inl hid
          · exact .inr (by
              simp only [changed, h, ne_comm.mp hid, ne_eq, decide_true, Bool.or_true, not_false_eq_true])
        · exact .inr (by simp [h]) }, .success)

def getDisplayMode (o : Output) : UInt32 := (Int32.ofInt o.display.activeModeId).toUInt32

def applyPlane (o : Output) (env : PlaneEnv) (layer : Layer) (plane : Nat)
    (pset : Request) : Request × Ret :=
  let fenced := o.display.propFenceIn plane && o.display.layerFence layer ≥ 0
  if fenced && !env.fenceIn then (pset, .failure)
  else
    let pset := if fenced then pset ++ [.fenceIn plane] else pset
    if !env.gemBuffer then (pset, .failure)
    else if !env.fbId then (pset, .failure)
    else
      let pset := pset ++ [.fbId plane (o.display.framebuffer layer)]
      if !env.crtcId then (pset, .failure) else (pset ++ [.planeCrtc plane], .success)

def applyPlanes (o : Output) (env : Nat → PlaneEnv) : List Layer → Nat → Request → Request
  | [], _, pset => pset
  | layer :: layers, i, pset =>
    match o.applyPlane (env i) layer i pset with
    | (pset, .success) => o.applyPlanes env layers (i + 1) pset
    | (pset, _) => pset

def modeBlock (o : Output) (env : ApplyEnv) : Option ModeInfo :=
  (o.connector.getModeFromId o.display.activeModeId).filter fun _ => env.modeBlock

def updateMode (o : Output) (env : ApplyEnv) (pset : Request) : Request × Ret :=
  if o.display.needModeSet then
    match o.modeBlock env with
    | some mode =>
      if !env.active then (pset, .failure)
      else if !env.modeId then (pset ++ [.active], .failure)
      else if !env.connectorCrtc then (pset ++ [.active, .modeId mode], .failure)
      else (pset ++ [.active, .modeId mode, .connectorCrtc], .success)
    | none => (pset, .success)
  else (pset, .success)

def scanout (pset : Request) : Option Screen :=
  pset.findSome? fun
    | .fbId 0 fb => some fb
    | _ => none

def atomicCommit (o : Output) (pset : Request) (accepted dup : Bool) : Output × Ret :=
  if accepted then ({ o with
      display := { o.display with screen := (scanout pset).getD o.display.screen }
      requests := o.requests ++ [(pset, true)]
      releaseFences := o.releaseFences ++ [if dup then some o.requests.length else none]
      earlier := by
        intro k hk
        rw [List.length_append, List.length_singleton]
        rcases List.mem_append.mp hk with hk | hk
        · exact Nat.lt_succ_of_lt (o.earlier k hk)
        · cases dup <;> simp_all }, .success)
  else ({ o with
      requests := o.requests ++ [(pset, false)]
      earlier := fun k hk => (o.earlier k hk).trans_le (by simp) }, .failure)

def apply (o : Output) (env : ApplyEnv) (dup : Bool) : Output × Ret :=
  if o.display.planes < o.display.compLayers.length then (o, .failure)
  else if !env.atomicAlloc then (o, .nullPtr)
  else if !env.outFence then (o, .failure)
  else
    -- the result of the loop is overwritten by that of `UpdateMode`
    match o.updateMode env (o.applyPlanes env.plane o.display.compLayers 0 [.outFence]) with
    | (pset, .success) => o.atomicCommit pset env.atomicCommit dup
    | _ => (o, .failure)

def composerCommit (o : Output) (blits : List Bool) (env : ApplyEnv) (dup : Bool) : Output × Ret :=
  if blits.all id then o.apply env dup else (o, .failure)

def commit (o : Output) (blits : List Bool) (env : ApplyEnv)
    (dup : Bool) : Output × Ret × Option Nat :=
  let o := (o.composerCommit blits env dup).1
  ({ o with
    releaseFences := o.releaseFences.tail
    earlier :=
      fun k hk => o.earlier k (List.mem_of_mem_tail hk) }, .success, o.releaseFences.head?.join)

def pushFirstFrame (o : Output) (allocMem : Option Nat) (env : ApplyEnv)
    (dup : Bool) : Output × Ret :=
  match o.connector.getModeFromId o.display.activeModeId, allocMem with
  | some _, some buffer =>
    (({ o with display := { o.display with clientBuffer := buffer } } : Output).apply env dup |>.1,
      .success)
  | _, _ => (o, .failure)

def chosePreferenceMode (o : Output) (allocMem : Option Nat) (env : ApplyEnv)
    (dup : Bool) : Output × Ret :=
  let modeId := if o.connector.mPreferenceId = -1 then 0 else o.connector.mPreferenceId
  match o.setDisplayMode (UInt32.ofInt modeId) with
  | (o, .success) => o.pushFirstFrame allocMem env dup
  | (o, _) => (o, .failure)

end Output

namespace Connector

def preferredFrom (i : Int) (modes : List ModeInfo) : Int :=
  match modes.findIdx? (·.preferred) with
  | some n => i + n
  | none => -1

theorem preferredFrom_cons (i : Int) (mode : ModeInfo) (modes : List ModeInfo) :
    preferredFrom i (mode :: modes) =
      if mode.preferred then i else preferredFrom (i + 1) modes := by
  unfold preferredFrom
  rw [findIdx?_cons]
  split_ifs with h
  · simp
  · cases modes.findIdx? (·.preferred) with
    | none => rfl
    | some n =>
      simp only [map_some]
      omega

variable {i : Int} {modes : List ModeInfo}

theorem addModes_ids (c : Connector) : (c.addModes i modes).supportedIds =
    c.supportedIds ++ (List.range modes.length).map fun n : Nat => i + n := by
  induction modes generalizing c i with
  | nil => simp [addModes]
  | cons mode modes ih =>
    rw [addModes, ih, length_cons, range_succ_eq_map]
    simp [supportedIds, Function.comp_def, add_comm, add_left_comm]

theorem addModes_lookup (c : Connector) (j : Int) : (c.addModes i modes).getModeFromId j =
    (c.getModeFromId j).or (if i ≤ j then modes[(j - i).toNat]? else none) := by
  induction modes generalizing c i with
  | nil => simp [addModes]
  | cons mode modes ih =>
    rw [addModes, ih]
    simp only [getModeFromId, lookup_append, lookup_cons, lookup_nil, Option.or_assoc]
    congr 1
    rcases lt_trichotomy j i with h | rfl | h
    · simp [beq_eq_false_iff_ne.mpr h.ne, not_le.mpr h, not_le.mpr (h.trans (lt_add_one i))]
    · simp
    · obtain ⟨n, rfl⟩ : ∃ n : Nat, j = i + 1 + n := ⟨(j - i - 1).toNat, by omega⟩
      have hne : (i + 1 + (n : Int) == i) = false := beq_eq_false_iff_ne.mpr h.ne'
      have hto : (i + 1 + (n : Int) - i).toNat = n + 1 := by omega
      simp [hne, hto, h.le]

theorem addModes_preference (c : Connector) (hi : 0 ≤ i) : (c.addModes i modes).mPreferenceId =
    if c.mPreferenceId = -1 then preferredFrom i modes else c.mPreferenceId := by
  induction modes generalizing c i with
  | nil =>
    simp only [addModes, preferredFrom, findIdx?_nil]
    split_ifs with h
    · exact h
    · rfl
  | cons mode modes ih =>
    rw [addModes, ih _ (by omega), preferredFrom_cons]
    by_cases hc : c.mPreferenceId = -1 <;> by_cases hmode : mode.preferred = true
    · simp [hc, hmode, show i ≠ -1 by omega]
    all_goals simp [hc, hmode]

end Connector

namespace Output
variable {o : Output} {modeId : UInt32} {blits : List Bool} {env : ApplyEnv} {dup : Bool}
  {pset : Request}

theorem supportedIds_eq (o : Output) :
    o.connector.supportedIds = (List.range o.modes.length).map fun n : Nat => (n : Int) := by
  rw [connector, Connector.initModes, Connector.addModes_ids]
  simp [Connector.supportedIds]

theorem listed_iff :
    (modeId.toNat : Int) ∈ o.connector.supportedIds ↔ modeId.toNat < o.modes.length := by
  simp [supportedIds_eq]

theorem getModeFromId_eq (o : Output) (n : Nat) : o.connector.getModeFromId n = o.modes[n]? := by
  rw [connector, Connector.initModes, Connector.addModes_lookup]
  simp [Connector.getModeFromId]

theorem toInt32_toInt (id : UInt32) :
    id.toInt32.toInt = if id.toNat < 2 ^ 31 then (id.toNat : Int) else id.toNat - 2 ^ 32 := by
  show id.toBitVec.toInt = _
  rw [BitVec.toInt_eq_toNat_cond]
  simp only [UInt32.toNat_toBitVec]
  split_ifs <;> omega

def PlaneFits (o : Output) (env : PlaneEnv) (layer : Layer) (plane : Nat) : Prop :=
  (o.display.propFenceIn plane = true → 0 ≤ o.display.layerFence layer → env.fenceIn = true) ∧
    env.gemBuffer = true ∧ env.fbId = true ∧ env.crtcId = true

def ModeFits (o : Output) (env : ApplyEnv) : Prop :=
  o.display.needModeSet = true → (o.modeBlock env).isSome = true ∧
    env.active = true ∧ env.modeId = true ∧ env.connectorCrtc = true

def Sets (o : Output) (pset : Request) : Prop :=
  .fbId 0 (.client o.display.clientBuffer) ∈ pset ∧ .planeCrtc 0 ∈ pset ∧
    (o.display.needModeSet = true → ∃
    mode, o.connector.getModeFromId o.display.activeModeId = some mode ∧ .modeId mode ∈ pset)

theorem applyPlane_fits {env : PlaneEnv} {layer : Layer} {plane : Nat} (pset : Request)
    (h : o.PlaneFits env layer plane) : ∃ props, (o.applyPlane env layer plane pset).1 =
      pset ++ props ++ [.fbId plane (o.display.framebuffer layer), .planeCrtc plane] := by
  obtain ⟨hfence, hgem, hfb, hcrtc⟩ := h
  by_cases hfenced : o.display.propFenceIn plane = true ∧ 0 ≤ o.display.layerFence layer
  · exact ⟨[.fenceIn plane], by simp [applyPlane, hfenced, hfence, hgem, hfb, hcrtc]⟩
  · refine ⟨[], ?_⟩
    have hfenced' : (o.display.propFenceIn plane && decide (o.display.layerFence layer ≥ 0)) = false := by
      simpa using hfenced
    simp [applyPlane, hfenced', hgem, hfb, hcrtc]

theorem mem_applyPlane {env : PlaneEnv} {layer : Layer} {plane : Nat} {prop : Property}
    (h : prop ∈ (o.applyPlane env layer plane pset).1) :
    prop ∈ pset ∨ prop = .fenceIn plane ∨ prop = .fbId plane (o.display.framebuffer layer) ∨
    (prop = .planeCrtc plane ∧ o.PlaneFits env layer plane) := by
  revert h
  simp only [applyPlane, PlaneFits]
  split_ifs <;> simp_all <;> tauto

theorem applyPlanes_client (env : Nat → PlaneEnv) :
    o.applyPlanes env [.client] 0 pset = (o.applyPlane (env 0) .client 0 pset).1 := by
  rw [applyPlanes]
  split <;> rename_i h <;> rw [h]
  rfl

def frame (o : Output) (env : ApplyEnv) : Request :=
  (o.applyPlane (env.plane 0) .client 0 [.outFence]).1

theorem modeId_frame (mode : ModeInfo) : .modeId mode ∉ o.frame env := by
  intro hin
  simpa using mem_applyPlane hin

theorem updateMode_fits (pset : Request) (h : o.ModeFits env) :
    ∃ props, o.updateMode env pset = (pset ++ props, .success) ∧
      (o.display.needModeSet = true →
        ∃ mode, o.modeBlock env = some mode ∧ .modeId mode ∈ props) := by
  by_cases hneed : o.display.needModeSet = true
  · obtain ⟨hmode, hactive, hid, hcrtc⟩ := h hneed
    obtain ⟨mode, hmode⟩ := isSome_iff_exists.mp hmode
    exact ⟨[.active, .modeId mode, .connectorCrtc],
      by simp [updateMode, hneed, hmode, hactive, hid, hcrtc], fun _ => ⟨mode, hmode, by simp⟩⟩
  · exact ⟨[], by simp [updateMode, hneed], fun h => absurd h hneed⟩

theorem updateMode_cases {pset' : Request} (h : o.updateMode env pset = (pset', .success)) :
    (pset' = pset ∧ (o.display.needModeSet = true → o.modeBlock env = none)) ∨
      ∃ mode, o.modeBlock env = some mode ∧ o.display.needModeSet = true ∧ o.ModeFits env ∧
        pset' = pset ++ [.active, .modeId mode, .connectorCrtc] := by
  rw [updateMode] at h
  by_cases hneed : o.display.needModeSet = true
  · cases hmode : o.modeBlock env with
    | none =>
      simp only [hneed, if_true, hmode] at h
      cases h
      exact .inl ⟨rfl, fun _ => rfl⟩
    | some mode =>
      simp only [hneed, if_true, hmode] at h
      cases hactive : env.active <;> cases hid : env.modeId <;> cases hcrtc : env.connectorCrtc <;>
        simp only [hactive, hid, hcrtc, Bool.not_true, Bool.not_false, Bool.false_eq_true, if_true,
          if_false, Prod.mk.injEq, reduceCtorEq, and_false, and_true] at h
      exact .inr ⟨mode, rfl, hneed, fun _ => ⟨by simp [hmode], hactive, hid, hcrtc⟩, h.symm⟩
  · rw [if_neg hneed] at h
    cases h
    exact .inl ⟨rfl, fun hset => absurd hset hneed⟩

def Opened (o : Output) (env : ApplyEnv) : Prop :=
  0 < o.display.planes ∧ env.atomicAlloc = true ∧ env.outFence = true

theorem apply_opened (h : o.Opened env) : o.apply env dup =
    match o.updateMode env (o.frame env) with
    | (pset, .success) => o.atomicCommit pset env.atomicCommit dup
    | _ => (o, .failure) := by
  obtain ⟨hplanes, halloc, hfence⟩ := h
  simp [apply, o.client, applyPlanes_client, frame, halloc, hfence,
    not_lt.mpr (Nat.succ_le_of_lt hplanes)]

theorem apply_not_opened (h : ¬ o.Opened env) : (o.apply env dup).1 = o := by
  rw [apply, o.client]
  split_ifs with h₁ h₂ h₃
  · rfl
  · rfl
  · rfl
  · refine absurd ⟨Nat.pos_of_ne_zero fun hzero => ?_, ?_, ?_⟩ h <;> simp_all

theorem composerCommit_cases (o : Output) (blits : List Bool) (env : ApplyEnv) (dup : Bool) :
    (o.composerCommit blits env dup).1 = o ∨
    (blits.all id = true ∧ o.Opened env ∧
     ∃ pset, o.updateMode env (o.frame env) = (pset, .success) ∧
      (o.composerCommit blits env dup).1 = (o.atomicCommit pset env.atomicCommit dup).1) := by
  rw [composerCommit]
  split_ifs with hblits
  · by_cases hopen : o.Opened env
    · rw [apply_opened hopen]
      split
      · rename_i pset hpset
        exact .inr ⟨hblits, hopen, pset, hpset, rfl⟩
      · exact .inl rfl
    · exact .inl (apply_not_opened hopen)
  · exact .inl rfl

theorem scanout_frame (o : Output) (env : ApplyEnv) :
    scanout (o.frame env) = (o.display.applyPlanes env.plane [.client] 0 []).lookup 0 := by
  simp only [frame, applyPlane, DrmDisplay.applyPlanes, DrmDisplay.applyPlane]
  split_ifs <;> simp_all [scanout]

/-- **The two models of `Apply` agree.** -/
theorem apply_display (o : Output) (env : ApplyEnv) (dup : Bool) :
    ((o.apply env dup).1.display, (o.apply env dup).2) =
      o.display.apply { env with modeBlock := (o.modeBlock env).isSome } := by
  have hret : (o.updateMode env (o.frame env)).2 =
      o.display.updateMode { env with modeBlock := (o.modeBlock env).isSome } := by
    simp only [updateMode, DrmDisplay.updateMode]
    cases o.modeBlock env <;> split_ifs <;> simp_all
  have hscreen : scanout (o.updateMode env (o.frame env)).1 = scanout (o.frame env) := by
    simp only [updateMode]
    cases o.modeBlock env <;> split_ifs <;> simp [scanout, findSome?_append]
  by_cases hopen : o.Opened env
  · rw [apply_opened hopen]
    obtain ⟨hplanes, halloc, hfence⟩ := hopen
    rw [DrmDisplay.apply, ← hret]
    simp only [o.client, length_singleton, halloc, hfence, ← scanout_frame, ← hscreen,
      not_lt.mpr (Nat.succ_le_of_lt hplanes), if_false, Bool.not_true, Bool.false_eq_true]
    generalize o.updateMode env (o.frame env) = built
    obtain ⟨pset, ret⟩ := built
    cases ret <;> cases env.atomicCommit <;> simp [atomicCommit, o.client]
  · simp only [apply, DrmDisplay.apply, o.client]
    split_ifs <;> first | rfl | exact absurd ⟨by simp_all; omega, by simp_all, by simp_all⟩ hopen

def Accepted (o o' : Output) (pset : Request) : Prop := o'.requests = o.requests ++ [(pset, true)]

structure Reported (o o' : Output) (ret : Ret) (fence : Option Nat) : Prop where
  reached : ret = .success → ∃ pset, Accepted o o' pset ∧ o.Sets pset
  complete : ∀ r ∈ o'.requests.drop o.requests.length, ∃ fb, .fbId 0 fb ∈ r.1
  fresh : ∀ k, fence = some k → o.requests.length ≤ k

def Succeeds (o : Output) (blits : List Bool) (env : ApplyEnv) : Prop :=
  blits.all id = true ∧ o.Opened env ∧ o.PlaneFits (env.plane 0) .client 0 ∧ o.ModeFits env ∧
    env.atomicCommit = true

theorem modeBlock_some {mode : ModeInfo} (h : o.modeBlock env = some mode) :
    o.connector.getModeFromId o.display.activeModeId = some mode ∧ env.modeBlock = true := by
  simpa [modeBlock, filter_eq_some_iff] using h

theorem Succeeds.request (h : o.Succeeds blits env) (dup : Bool) : ∃ pset, o.Sets pset ∧
    (o.composerCommit blits env dup).1 = (o.atomicCommit pset true dup).1 := by
  obtain ⟨hblits, hopen, hplane, hmode, hcommit⟩ := h
  obtain ⟨props, hframe⟩ := applyPlane_fits [.outFence] hplane
  obtain ⟨modeProps, hupdate, hmode⟩ := updateMode_fits (o.frame env) hmode
  refine ⟨o.frame env ++ modeProps, ⟨?_, ?_, fun hneed => ?_⟩, ?_⟩
  · simp [frame, hframe, DrmDisplay.framebuffer]
  · simp [frame, hframe]
  · obtain ⟨mode, hblock, hmem⟩ := hmode hneed
    exact ⟨mode, (modeBlock_some hblock).1, mem_append_right _ hmem⟩
  · rw [composerCommit, if_pos hblits, apply_opened hopen, hupdate, hcommit]

theorem succeeds_of_sets (h : Accepted o (o.composerCommit blits env dup).1 pset)
    (hsets : o.Sets pset) : o.Succeeds blits env := by
  rcases composerCommit_cases o blits env dup with hsame | ⟨hblits, hopen, pset', hupdate, heq⟩
  · simp [Accepted, hsame] at h
  rw [Accepted, heq, atomicCommit] at h
  by_cases hcommit : env.atomicCommit = true
  · obtain rfl : pset' = pset := by simpa [hcommit] using h
    obtain ⟨-, hcrtc, hmode⟩ := hsets
    refine ⟨hblits, hopen, ?_, ?_, hcommit⟩
    · have hin : .planeCrtc 0 ∈ o.frame env := by
        rcases updateMode_cases hupdate with ⟨rfl, -⟩ | ⟨mode, -, -, -, rfl⟩
        · exact hcrtc
        · simpa using hcrtc
      simpa using mem_applyPlane hin
    · intro hneed
      obtain ⟨mode, -, hin⟩ := hmode hneed
      rcases updateMode_cases hupdate with ⟨rfl, -⟩ | ⟨-, -, -, hfits, -⟩
      · exact absurd hin (modeId_frame mode)
      · exact hfits hneed
  · simp [hcommit] at h

/-- **What `Commit` reports.**  It is right exactly if all calls in it succeed, and the queue of
release fences does not begin with a fence of an earlier request. -/
theorem reported_iff (o : Output) (blits : List Bool) (env : ApplyEnv) (dup : Bool) :
    Reported o (o.commit blits env dup).1 (o.commit blits env dup).2.1
      (o.commit blits env dup).2.2 ↔
      o.Succeeds blits env ∧ o.releaseFences.head?.join = none := by
  constructor
  · rintro ⟨hreached, -, hfresh⟩
    obtain ⟨pset, haccepted, hsets⟩ := hreached rfl
    have hsucceeds : o.Succeeds blits env := succeeds_of_sets haccepted hsets
    refine ⟨hsucceeds, ?_⟩
    obtain ⟨pset, -, heq⟩ := hsucceeds.request dup
    by_contra hhead
    obtain ⟨k, hk⟩ := ne_none_iff_exists'.mp hhead
    obtain ⟨fences, hfences⟩ : ∃ fences, o.releaseFences = some k :: fences := by
      cases hq : o.releaseFences with
      | nil => simp [hq] at hk
      | cons f fences => exact ⟨fences, by simp_all⟩
    have hold := hfresh k (by simp [commit, heq, atomicCommit, hfences])
    exact absurd (o.earlier k (by simp [hfences])) (not_lt.mpr hold)
  · rintro ⟨hsucceeds, hhead⟩
    obtain ⟨pset, hsets, heq⟩ := hsucceeds.request dup
    refine ⟨fun _ => ⟨pset, by simp [Accepted, commit, heq, atomicCommit], hsets⟩, ?_,
      fun k hk => ?_⟩
    · simpa [commit, heq, atomicCommit] using ⟨_, hsets.1⟩
    · cases hq : o.releaseFences with
      | nil =>
        simp only [commit, heq, atomicCommit, hq] at hk
        cases dup <;> simp_all
      | cons f fences => simp_all [commit, atomicCommit]

/-- `SetDisplayMode` accepts the ids in the list and no others, the mode is read back, and the next
commit that the kernel accepts programs it. -/
structure RoundTrips (o : Output) (modeId : UInt32) (blits : List Bool) (next : ApplyEnv)
    (dup : Bool) : Prop where
  listed : (modeId.toNat : Int) ∈ o.connector.supportedIds →
    (o.setDisplayMode modeId).2 = .success ∧ (o.setDisplayMode modeId).1.getDisplayMode = modeId ∧
      ∀ pset, Accepted (o.setDisplayMode modeId).1
      ((o.setDisplayMode modeId).1.commit blits next dup).1 pset →
        ∃ mode, o.connector.getModeFromId modeId.toNat = some mode ∧ ∀ m, .modeId m ∈ pset ↔ m = mode
  unlisted : (modeId.toNat : Int) ∉ o.connector.supportedIds →
    (o.setDisplayMode modeId).2 ≠ .success ∧
    (o.setDisplayMode modeId).1.display.activeModeId = o.display.activeModeId

def preferred (o : Output) : Nat := (o.modes.findIdx? (·.preferred)).getD 0

def Selects (o : Output) (allocMem : Option Nat) (env : ApplyEnv) (dup : Bool) : Prop :=
  o.display.activeModeId = -1 → o.modes ≠ [] →
    (o.chosePreferenceMode allocMem env dup).1.display.activeModeId = o.preferred

theorem setDisplayMode_rejects (h : 0 < modeId.toNat ∧ modeId.toNat < 2 ^ 31) :
    o.setDisplayMode modeId = (o, .paramErr) := by
  refine if_pos ?_
  rw [toInt32_toInt, if_pos h.2]
  exact_mod_cast h.1

theorem setDisplayMode_accepts (h : modeId.toNat = 0 ∨ 2 ^ 31 ≤ modeId.toNat) :
    (o.setDisplayMode modeId).2 = .success ∧ (o.setDisplayMode modeId).1.modes = o.modes ∧
      (o.setDisplayMode modeId).1.display.activeModeId = modeId.toInt32.toInt := by
  have hle : ¬ modeId.toInt32.toInt > 0 := by
    have := modeId.toNat_lt
    rw [toInt32_toInt]
    split_ifs <;> omega
  simp [setDisplayMode, hle]

theorem opened_setDisplayMode (modeId : UInt32) :
    (o.setDisplayMode modeId).1.Opened env ↔ o.Opened env := by
  rw [setDisplayMode]
  split_ifs <;> exact Iff.rfl

theorem commit_activeModeId (o : Output) (blits : List Bool) :
    (o.commit blits env dup).1.display.activeModeId = o.display.activeModeId := by
  show (o.composerCommit blits env dup).1.display.activeModeId = _
  rcases composerCommit_cases o blits env dup with hsame | ⟨-, -, pset, -, heq⟩
  · rw [hsame]
  · rw [heq, atomicCommit]
    cases env.atomicCommit <;> rfl

/-- What the calls of a commit whose request the kernel accepts have answered. -/
theorem accepted_answers (h : Accepted o (o.commit blits env dup).1 pset) :
    blits.all id = true ∧ o.Opened env ∧ env.atomicCommit = true := by
  replace h : Accepted o (o.composerCommit blits env dup).1 pset := h
  rcases composerCommit_cases o blits env dup with hsame | ⟨hblits, hopen, pset', -, heq⟩
  · simp [Accepted, hsame] at h
  · refine ⟨hblits, hopen, ?_⟩
    rw [Accepted, heq, atomicCommit] at h
    by_contra hcommit
    simp [hcommit] at h

variable (dup) in
/-- Without the blob of its mode the request is made all the same. -/
theorem accepted_without_mode (hblits : blits.all id = true) (hopen : o.Opened env)
    (hcommit : env.atomicCommit = true) (hblock : env.modeBlock = false) :
    Accepted o (o.commit blits env dup).1 (o.frame env) := by
  have hnone : o.modeBlock env = none := by simp [modeBlock, hblock]
  have hupdate : o.updateMode env (o.frame env) = (o.frame env, .success) := by
    rw [updateMode, hnone]
    exact ite_self _
  simp [Accepted, commit, composerCommit, hblits, apply_opened hopen, hupdate, hcommit,
    atomicCommit]

theorem programs_iff {mode : ModeInfo} (hset : o.display.activeModeId = 0)
    (hmode : o.modes[0]? = some mode) (h : Accepted o (o.commit blits env dup).1 pset) :
    (∀ m, .modeId m ∈ pset ↔ m = mode) ↔ env.modeBlock = true := by
  have hneed : o.display.needModeSet = true := o.modeSet.resolve_left (by simp [hset])
  have hblock : o.modeBlock env = if env.modeBlock then some mode else none := by
    rw [modeBlock, hset, ← Int.natCast_zero, getModeFromId_eq, hmode]
    rfl
  replace h : Accepted o (o.composerCommit blits env dup).1 pset := h
  rcases composerCommit_cases o blits env dup with hsame | ⟨-, -, pset', hupdate, heq⟩
  · simp [Accepted, hsame] at h
  have hpset : pset' = pset := by
    rw [Accepted, heq, atomicCommit] at h
    cases hcommit : env.atomicCommit <;> simp_all
  subst hpset
  rcases updateMode_cases hupdate with ⟨rfl, hnone⟩ | ⟨m, hm, -, -, rfl⟩
  · have hoff : env.modeBlock = false := by simpa [hblock] using hnone hneed
    simpa [hoff] using ⟨mode, by simp [modeId_frame]⟩
  · have hon : env.modeBlock = true ∧ mode = m := by simpa [hblock] using hm
    simp [hon, modeId_frame]

theorem pushFirstFrame_activeModeId (allocMem : Option Nat) :
    (o.pushFirstFrame allocMem env dup).1.display.activeModeId = o.display.activeModeId := by
  unfold pushFirstFrame
  cases o.connector.getModeFromId o.display.activeModeId with
  | none => rfl
  | some mode =>
    cases allocMem with
    | none => rfl
    | some buffer =>
      exact commit_activeModeId { o with display := { o.display with clientBuffer := buffer } } []

theorem selects_iff (o : Output) (allocMem : Option Nat) (env : ApplyEnv) (dup : Bool) :
    o.Selects allocMem env dup ↔
      (o.display.activeModeId = -1 → o.modes ≠ [] → o.preferred = 0) := by
  refine forall_congr' fun hactive => forall_congr' fun hne => ?_
  have hlt : o.preferred < 2 ^ 31 := by
    rw [preferred]
    cases hidx : o.modes.findIdx? (·.preferred) with
    | none => simp
    | some n => exact (findIdx?_eq_some_iff_findIdx_eq.mp hidx).1.trans o.count
  have hmodeId : (if o.connector.mPreferenceId = -1 then 0 else o.connector.mPreferenceId) =
      o.preferred := by
    rw [connector, Connector.initModes, Connector.addModes_preference _ le_rfl, if_pos rfl,
      Connector.preferredFrom, preferred]
    cases o.modes.findIdx? (·.preferred) with
    | none => rfl
    | some n => simp [show (n : Int) ≠ -1 by omega]
  have htoNat : (UInt32.ofInt (o.preferred : Int)).toNat = o.preferred := by
    simp only [UInt32.ofInt, UInt32.toNat_ofNat']
    omega
  rw [chosePreferenceMode, hmodeId]
  by_cases hzero : o.preferred = 0
  · obtain ⟨hret, -, hid⟩ := setDisplayMode_accepts (o := o) (.inl (htoNat.trans hzero))
    rcases hset : o.setDisplayMode (UInt32.ofInt (o.preferred : Int)) with ⟨o₁, ret⟩
    rw [hset] at hret hid
    cases hret
    simp only [pushFirstFrame_activeModeId, hzero, iff_true]
    rw [hid, toInt32_toInt, htoNat, hzero]
    rfl
  · rw [setDisplayMode_rejects (by omega)]
    simp only [hzero, iff_false, hactive]
    omega

/-- The condition, on the list of modes and on what the calls of the next commit answer. -/
structure Fits (o : Output) (modeId : UInt32) (blits : List Bool) (next : ApplyEnv) : Prop where
  listed : modeId.toNat < o.modes.length → modeId.toNat = 0 ∧
    (blits.all id = true → o.Opened next → next.atomicCommit = true → next.modeBlock = true)
  unlisted : o.modes.length ≤ modeId.toNat → 0 < modeId.toNat ∧ modeId.toNat < 2 ^ 31
  preferred : o.display.activeModeId = -1 → o.modes ≠ [] → o.preferred = 0

/-- **Mode ids.** A listed id must be 0, and the blob of its mode be made; an id that is not listed
must be positive as an `int32_t`; and the first preferred mode must be the first of all. -/
theorem round_trips_iff (o : Output) (modeId : UInt32) (blits : List Bool) (first next : ApplyEnv)
    (dup : Bool) (allocMem : Option Nat) :
    o.RoundTrips modeId blits next dup ∧ o.Selects allocMem first dup ↔
      o.Fits modeId blits next := by
  have hcount := o.count
  rw [selects_iff]
  constructor
  · rintro ⟨⟨hlisted, hunlisted⟩, hselects⟩
    refine ⟨fun hlt => ?_, fun hle => ?_, hselects⟩
    · obtain ⟨hret, -, hprograms⟩ := hlisted (listed_iff.mpr hlt)
      have hzero : modeId.toNat = 0 := by
        by_contra hne
        rw [setDisplayMode_rejects ⟨Nat.pos_of_ne_zero hne, hlt.trans hcount⟩] at hret
        cases hret
      refine ⟨hzero, fun hblits hopen hcommit => ?_⟩
      by_contra hblock
      obtain ⟨-, hmodes, hid⟩ := setDisplayMode_accepts (o := o) (.inl hzero)
      have haccepted := accepted_without_mode dup hblits
        ((opened_setDisplayMode modeId).mpr hopen) hcommit (Bool.eq_false_of_not_eq_true hblock)
      obtain ⟨mode, hmode, hiff⟩ := hprograms _ haccepted
      rw [hzero, getModeFromId_eq] at hmode
      rw [toInt32_toInt, hzero] at hid
      exact hblock ((programs_iff hid (hmodes ▸ hmode) haccepted).mp hiff)
    · obtain ⟨hret, -⟩ := hunlisted (mt listed_iff.mp (not_lt.mpr hle))
      by_contra hnot
      exact hret (setDisplayMode_accepts (by omega)).1
  · rintro ⟨hlisted, hunlisted, hselects⟩
    refine ⟨⟨fun hin => ?_, fun hout => ?_⟩, hselects⟩
    · have hlt := listed_iff.mp hin
      obtain ⟨hzero, hblock⟩ := hlisted hlt
      obtain ⟨hret, hmodes, hid⟩ := setDisplayMode_accepts (o := o) (.inl hzero)
      refine ⟨hret, ?_, fun pset haccepted => ?_⟩
      · rw [getDisplayMode, hid, Int32.ofInt_toInt]
        rfl
      · rw [toInt32_toInt, hzero] at hid
        rw [hzero] at hlt
        have hmode : o.modes[0]? = some o.modes[0] := getElem?_eq_getElem hlt
        refine ⟨o.modes[0], by rw [hzero, getModeFromId_eq, hmode], ?_⟩
        obtain ⟨hblits, hopen, hcommit⟩ := accepted_answers haccepted
        refine (programs_iff hid (by rw [hmodes, hmode]) haccepted).mpr (hblock hblits ?_ hcommit)
        exact (opened_setDisplayMode modeId).mp hopen
    · rw [setDisplayMode_rejects (hunlisted (not_lt.mp (mt listed_iff.mpr hout)))]
      exact ⟨by simp, rfl⟩

def twoModes (second : Bool) : Output where
  display := { planes := 1, propFenceIn := fun _ => true, clientBuffer := 0, activeModeId := -1,
               needModeSet := false, screen := .nothing }
  modes := [⟨1024, 768, 60, !second⟩, ⟨1280, 800, 60, second⟩]
  count := by simp
  client := rfl
  earlier := by simp
  modeSet := .inl rfl

def booted : Output := ((twoModes false).chosePreferenceMode (some 1) {} true).1

theorem second_mode_rejected :
    (twoModes true).connector.supportedIds = [0, 1] ∧
    ((twoModes true).setDisplayMode 1).2 = .paramErr ∧
    (twoModes true).preferred = 1 ∧
    ((twoModes true).chosePreferenceMode (some 1) {} true).2 = .failure ∧
    ((twoModes true).chosePreferenceMode (some 1) {} true).1.display.activeModeId = -1 ∧
    (booted.setDisplayMode (2 ^ 31)).2 = .success ∧
    (booted.setDisplayMode (2 ^ 31)).1.display.activeModeId = -2 ^ 31 := by
  decide

theorem failure_unreported :
    (booted.commit [] { atomicCommit := false } true).2 = (.success, some 0) ∧
    (booted.commit [] { atomicCommit := false } true).1.requests.map Prod.snd = [true, false] ∧
    (booted.commit [] { plane := fun _ => { gemBuffer := false } } true).2 = (.success, some 0) ∧
    (booted.commit [] { plane := fun _ => { gemBuffer := false } } true).1.requests.tail =
      [([.outFence, .active, .modeId ⟨1024, 768, 60, true⟩, .connectorCrtc], true)] := by
  decide

end Output

end OniroSoc.Emulator.Atomic

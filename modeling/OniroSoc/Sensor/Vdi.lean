import OniroSoc.Support.Runs

/-!
# The sensor VDI: what the hub was asked to run

`Enable`, `Disable` and `SetBatch` remember what is enabled and with which intervals, and write
commands to the hub once its node could be opened.
-/

namespace OniroSoc.Sensors
open Support Function

/-- The sensors of `SENSOR_MAP`, in its order. -/
inductive Sensor where
  | accelerometer | gyroscope | magneticField | ambientLight | proximity
deriving DecidableEq

def sensorMap : List Sensor :=
  [.accelerometer, .gyroscope, .magneticField, .ambientLight, .proximity]

def Sensor.mtkType : Sensor → UInt8
  | .accelerometer => 1
  | .gyroscope => 4
  | .magneticField => 2
  | .ambientLight => 5
  | .proximity => 8

/-- A command for one type of sensor, with the sampling and the report interval of an enable. -/
inductive Cmd where
  | enable (delayNs latencyNs : Int)
  | disable
deriving DecidableEq

structure Batch where
  (samplingInterval reportInterval : Int)
deriving DecidableEq

def defaultSamplingNs : Int := 20000000

def sampling (interval : Int) : Int := if interval > 0 then interval else defaultSamplingNs

/-- What the node answers: `none` if it cannot be opened, else which sensors are ready. -/
abbrev Node := Option (Sensor → Bool)

structure Vdi where
  opened : Bool := false
  infoList : List Sensor := []
  batch : Sensor → Option Batch := fun _ => none
  enabled : Sensor → Bool := fun _ => false
  /-- The last command that the hub received for a type. -/
  hub : UInt8 → Option Cmd := fun _ => none

namespace Vdi

def enumerate (v : Vdi) (ready : Sensor → Bool) : Vdi :=
  { v with infoList := v.infoList ++ sensorMap.filter ready }

def ensureOpen (v : Vdi) (node : Node) : Vdi × Bool :=
  if v.opened then (v, true)
  else
    match node with
    | none => (v, false)
    | some ready =>
      let v := v.enumerate ready
      if v.infoList.isEmpty then (v, false) else ({ v with opened := true }, true)

/-- Writes succeed. -/
def sendCmd (v : Vdi) (e : Sensor) (cmd : Cmd) : Vdi × Bool :=
  if v.opened then ({ v with hub := update v.hub e.mtkType (some cmd) }, true) else (v, false)

def enable (v : Vdi) (e : Sensor) (node : Node) : Vdi × Bool :=
  let (v, opened) := v.ensureOpen node
  if !opened then (v, false)
  else
    let interval := match v.batch e with
      | some batch => sampling batch.samplingInterval
      | none => defaultSamplingNs
    let (v, sent) := v.sendCmd e (.enable interval 0)
    if sent then ({ v with enabled := update v.enabled e true }, true) else (v, false)

def disable (v : Vdi) (e : Sensor) : Vdi × Bool :=
  let v := { v with enabled := update v.enabled e false }
  if !v.opened then (v, true) else v.sendCmd e .disable

def setBatch (v : Vdi) (e : Sensor) (samplingInterval reportInterval : Int) : Vdi × Bool :=
  if samplingInterval < 0 ∨ reportInterval < 0 then (v, false)
  else
    let v := { v with batch := update v.batch e (some ⟨samplingInterval, reportInterval⟩) }
    if v.enabled e then v.sendCmd e (.enable (sampling samplingInterval) reportInterval)
      else (v, true)

end Vdi

inductive Call where
  | enable (e : Sensor) (node : Node)
  | disable (e : Sensor)
  | setBatch (e : Sensor) (samplingInterval reportInterval : Int)

/-- The VDI, whether the last successful `Enable` or `Disable` of a sensor was `Enable`, and the
intervals of its latest `SetBatch`. -/
structure System where
  vdi : Vdi := {}
  asked : Sensor → Bool := fun _ => false
  latest : Sensor → Batch := fun _ => ⟨0, 0⟩

namespace System

def step (s : System) : Call → Option System
  | .enable e node =>
    let (vdi, ok) := s.vdi.enable e node
    some { s with vdi, asked := if ok then update s.asked e true else s.asked }
  | .disable e =>
    let (vdi, ok) := s.vdi.disable e
    some { s with vdi, asked := if ok then update s.asked e false else s.asked }
  | .setBatch e samplingInterval reportInterval =>
    let (vdi, ok) := s.vdi.setBatch e samplingInterval reportInterval
    some { s with vdi, latest := if ok then update s.latest e ⟨samplingInterval, reportInterval⟩ else s.latest }

/-- The hub runs what was asked for. -/
def Obeyed (s : System) : Prop :=
  ∀ e, if s.asked e then s.vdi.hub e.mtkType =
      some (.enable (sampling (s.latest e).samplingInterval) (s.latest e).reportInterval)
    else s.vdi.hub e.mtkType = none ∨ s.vdi.hub e.mtkType = some .disable

/-- A sensor that can be enabled has no report interval set. -/
def Fits (s : System) : Call → Prop
  | .enable e node => (s.vdi.ensureOpen node).2 = true → (s.latest e).reportInterval = 0
  | _ => True

structure Inv (s : System) : Prop where
  enabled : ∀ e, s.vdi.enabled e = s.asked e
  batch : ∀ e, (s.vdi.batch e).getD ⟨0, 0⟩ = s.latest e
  opened : ∀ e, s.asked e = true → s.vdi.opened = true
  obeyed : s.Obeyed

variable {e e' : Sensor} {s s' : System} {c : Call}

theorem mtkType_inj : e.mtkType = e'.mtkType ↔ e = e' := by
  cases e <;> cases e' <;> decide

theorem ensureOpen_spec (v : Vdi) (node : Node) : ∃ opened infoList, v.ensureOpen node =
    ({ v with opened, infoList }, opened) ∧ (v.opened = true → opened = true) := by
  obtain ⟨_ | _, infoList, batch, enabled, hub⟩ := v
  · cases node with
    | none => exact ⟨false, infoList, rfl, nofun⟩
    | some ready =>
      by_cases hnone : (infoList ++ sensorMap.filter ready).isEmpty = true
      · exact ⟨false, _, if_pos hnone, nofun⟩
      · exact ⟨true, _, if_neg hnone, nofun⟩
  · exact ⟨true, infoList, rfl, fun _ => rfl⟩

theorem enable_spec (v : Vdi) (e : Sensor) (node : Node) : ∃ opened infoList, (v.ensureOpen node).2 = opened ∧
    (v.opened = true → opened = true) ∧ v.enable e node = ({ v with
      opened, infoList
      hub := if opened then update v.hub e.mtkType
        (some (.enable (sampling ((v.batch e).getD ⟨0, 0⟩).samplingInterval) 0)) else v.hub
      enabled := if opened then update v.enabled e true else v.enabled }, opened) := by
  obtain ⟨opened, infoList, heq, hkept⟩ := ensureOpen_spec v node
  refine ⟨opened, infoList, by rw [heq], hkept, ?_⟩
  rw [Vdi.enable, heq]
  cases opened with
  | false => rfl
  | true => cases hb : v.batch e <;> simp [Vdi.sendCmd, hb, sampling]

theorem disable_spec (v : Vdi) (e : Sensor) : v.disable e = ({ v with
    enabled := update v.enabled e false
    hub := if v.opened then update v.hub e.mtkType (some .disable) else v.hub }, true) := by
  cases hopened : v.opened <;> simp [Vdi.disable, Vdi.sendCmd, hopened]

theorem setBatch_spec {v : Vdi} {b : Batch} (hopened : v.enabled e = true → v.opened = true)
    (hb : ¬ (b.samplingInterval < 0 ∨ b.reportInterval < 0)) :
    v.setBatch e b.samplingInterval b.reportInterval = ({ v with
      batch := update v.batch e (some b)
      hub := if v.enabled e then update v.hub e.mtkType
        (some (.enable (sampling b.samplingInterval) b.reportInterval)) else v.hub }, true) := by
  rw [Vdi.setBatch, if_neg hb]
  cases hon : v.enabled e with
  | false => simp [hon]
  | true => simp [hon, Vdi.sendCmd, hopened hon]

theorem Inv.step (h : s.Inv) (hfits : s.Fits c) (hs : s.step c = some s') : s'.Inv := by
  obtain ⟨henabled, hbatch, hopened, hobeyed⟩ := h
  cases c with
  | enable e node =>
    obtain ⟨opened, infoList, hnode, hkept, heq⟩ := enable_spec s.vdi e node
    simp only [Fits] at hfits
    rw [System.step, heq] at hs
    cases hs
    constructor <;> grind [update_apply, mtkType_inj, Obeyed]
  | disable e =>
    rw [System.step, disable_spec] at hs
    cases hs
    constructor <;> grind [update_apply, mtkType_inj, Obeyed]
  | setBatch e samplingInterval reportInterval =>
    by_cases hneg : samplingInterval < 0 ∨ reportInterval < 0
    · rw [System.step, Vdi.setBatch, if_pos hneg] at hs
      cases hs
      exact ⟨henabled, hbatch, hopened, hobeyed⟩
    · rw [System.step, setBatch_spec (b := ⟨_, _⟩) (henabled e ▸ hopened e) hneg] at hs
      cases hs
      constructor <;> grind [update_apply, mtkType_inj, Obeyed]

theorem not_obeyed (hfits : ¬ s.Fits c) (hs : s.step c = some s') : ¬ s'.Obeyed := by
  cases c with
  | enable e node =>
    obtain ⟨hopen, hreport⟩ := Classical.not_imp.mp hfits
    obtain ⟨opened, infoList, hnode, -, heq⟩ := enable_spec s.vdi e node
    obtain rfl := hnode.symm.trans hopen
    rw [System.step, heq] at hs
    cases hs
    intro hobeyed
    have hsent := hobeyed e
    simp only [if_true, update_self, Option.some.injEq, Cmd.enable.injEq] at hsent
    exact hreport hsent.2.symm
  | disable | setBatch => exact absurd trivial hfits

/-- **The hub runs what was asked for** after each call, exactly if no sensor is enabled that has a
report interval set: `Enable` does not pass it on. -/
theorem obeyed_iff (calls : List Call) :
    Always step Obeyed {} calls ↔ Along step Fits {} calls := by
  have htotal : ∀ s c, True → True → ∃ s', step s c = some s' ∧ True := fun s c _ _ => by
    cases c <;> exact ⟨_, rfl, trivial⟩
  obtain ⟨s, hrun, -⟩ : ∃ s, run step {} calls = some s ∧ True :=
    run_of_along htotal (along_of_forall (fun _ _ _ => trivial) _) trivial
  exact always_iff_along (fun _ => Inv.obeyed) (fun _ _ _ => Inv.step)
    (fun _ _ _ _ => not_obeyed) hrun
    ⟨fun _ => rfl, fun _ => rfl, nofun, fun _ => .inl rfl⟩

theorem report_interval_lost : ∃ s, run step {} [.setBatch .accelerometer 10000000 5000000,
    .enable .accelerometer (some fun _ => true)] = some s ∧ s.asked .accelerometer = true ∧
    s.latest .accelerometer = ⟨10000000, 5000000⟩ ∧ s.vdi.hub 1 = some (.enable 10000000 0) :=
  ⟨_, rfl, rfl, rfl, rfl⟩

end System

end OniroSoc.Sensors

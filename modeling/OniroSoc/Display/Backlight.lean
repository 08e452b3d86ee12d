import OniroSoc.Support.Runs

/-!
# The backlight

`ProbeBacklightLocked` chooses a sysfs node, once, and scales its value to a level of 0 to 255.
`WriteBacklight` scales a level to the node's range.  Both multiply before they divide, in 32 bits.
-/

namespace OniroSoc.Display
open Support

/-- A path of `kBacklightProbePaths`: whether it opens for writing, and what `strtoul` finds in its
files. -/
structure Node where
  writable : Bool
  (maxBrightness brightness : Option Nat)

structure Backlight where
  (probed warned : Bool := false)
  path : Option Node := none
  (max last : Nat := 255)

namespace Backlight

def uint32 (n : Nat) : Nat := n % 2 ^ 32

def readSysfsUint (v : Option Nat) : Option Nat := v.map uint32

def toLevel (max raw : Nat) : Nat := min (uint32 (uint32 (raw * 255) + max / 2) / max) 255

def toRaw (max level : Nat) : Nat := min (uint32 (uint32 (level * max) + 127) / 255) max

variable (nodes : List Node) (s : Backlight)

def probeLocked : Backlight :=
  if s.probed then s else
  match nodes.find? (·.writable) with
  | none => { s with probed := true }
  | some node =>
    let max := match readSysfsUint node.maxBrightness with
      | some maxVal => if maxVal > 0 then maxVal else s.max
      | none => s.max
    let last := match readSysfsUint node.brightness with
      | some curRaw => toLevel max curRaw
      | none => s.last
    { s with probed := true, path := some node, max, last }

/-- The new state, what is written to the node, and whether the call succeeds. -/
def write (level : Nat) (opened written : Bool) : Backlight × Option Nat × Bool :=
  let level := min level 255
  let s := s.probeLocked nodes
  if s.path.isNone then ({ s with warned := true, last := level }, none, true)
  else if !opened then (s, none, false)
  else if !written then (s, some (toRaw s.max level), false)
  else ({ s with last := level }, some (toRaw s.max level), true)

inductive Call where
  | writeBacklight (level : Nat) (opened written : Bool)
  | getLastBacklight

def step : Call → Option Backlight
  | .writeBacklight level opened written => some (s.write nodes level opened written).1
  | .getLastBacklight => some (s.probeLocked nodes)

/-- Whatever was called before, `level` is written as `raw`. -/
def Sends (level raw : Nat) : Prop :=
  ∀ calls s written, run (step nodes) {} calls = some s → (s.write nodes level true written).2.1 =
    some raw

def Reports (max cur : Nat) : Prop :=
  ∃ node, nodes.find? (·.writable) = some node ∧ readSysfsUint node.maxBrightness = some max ∧
    readSysfsUint node.brightness = some cur

/-- `a * b + c` does not wrap. -/
def Exact (a b c : Nat) : Prop := a * b + c < 2 ^ 32

structure Scales (max cur : Nat) : Prop where
  le : ∀ level, ∃ raw ≤ max, Sends nodes level raw
  mono : ∀ level level' raw raw',
    level ≤ level' → Sends nodes level raw → Sends nodes level' raw' → raw ≤ raw'
  zero : Sends nodes 0 0
  full : ∀ level ≥ 255, Sends nodes level max
  back : max ≥ 255 → ∀ level ≤ 255, ∃ raw, Sends nodes level raw ∧ Exact raw 255 (max / 2) ∧
    toLevel max raw = level
  writes : ∀ level ≤ 255, Exact level max 127
  probes : Exact cur 255 (max / 2)

variable {nodes s} {s' : Backlight} {max cur level raw raw' : Nat}

theorem probed_probe : (s.probeLocked nodes).probed = true := by
  rw [probeLocked]
  split_ifs with h
  · exact h
  · split <;> rfl

theorem step_eq {call : Call} (h : step nodes s call = some s') :
    ∃ warned last, s' = { s.probeLocked nodes with warned, last } := by
  cases call with
  | getLastBacklight =>
    cases h
    exact ⟨_, _, rfl⟩
  | writeBacklight level opened written =>
    cases h
    rw [write]
    split_ifs <;> exact ⟨_, _, rfl⟩

/-- The calls keep what the first of them has probed. -/
theorem probe_run {calls : List Call} (h : run (step nodes) s calls = some s') :
    ∃ warned last, s'.probeLocked nodes = { s.probeLocked nodes with warned, last } := by
  refine run_invariant
    (I := fun s' => ∃ warned last, s'.probeLocked nodes = { s.probeLocked nodes with warned, last })
    (fun s₁ call s₂ hI hstep => ?_) h ⟨_, _, rfl⟩
  obtain ⟨_, _, hI⟩ := hI
  obtain ⟨warned, last, rfl⟩ := step_eq hstep
  have hkept : probeLocked nodes { s₁.probeLocked nodes with warned, last } =
      { s₁.probeLocked nodes with warned, last } := if_pos probed_probe
  exact ⟨warned, last, by rw [hkept, hI]⟩

theorem sends (h : Reports nodes max cur) (hmax : 0 < max) :
    Sends nodes level (toRaw max (min level 255)) := by
  intro calls s written hrun
  obtain ⟨node, hnode, hread, -⟩ := h
  obtain ⟨warned, last, hprobe⟩ := probe_run hrun
  have hfirst : (probeLocked nodes {}).path = some node ∧ (probeLocked nodes {}).max = max := by
    simp [probeLocked, hnode, hread, hmax]
  rw [write, hprobe, hfirst.1, hfirst.2]
  cases written <;> rfl

theorem Sends.unique (h : Sends nodes level raw) (h' : Sends nodes level raw') : raw = raw' :=
  Option.some.inj ((h [] {} true rfl).symm.trans (h' [] {} true rfl))

theorem Exact.uint32_eq {a b c : Nat} (h : Exact a b c) : uint32 (uint32 (a * b) + c) = a * b + c :=
  (Nat.mod_add_mod _ _ _).trans (Nat.mod_eq_of_lt h)

theorem toRaw_eq (hlevel : level ≤ 255) (h : Exact level max 127) :
    toRaw max level = (level * max + 127) / 255 := by
  have hprod : level * max ≤ 255 * max := Nat.mul_le_mul_right _ hlevel
  rw [toRaw, h.uint32_eq]
  omega

/-- Rounding into a range that is no smaller is undone by rounding back. -/
theorem round_back (hmax : 255 ≤ max) :
    ((level * max + 127) / 255 * 255 + max / 2) / max = level := by
  refine Nat.div_eq_of_lt_le ?_ ?_
  · omega
  · rw [Nat.add_mul]
    omega

/-- **The scaling is right** exactly if neither the node's maximum nor its value is so large that
the probe's formula wraps on it. -/
theorem scales_iff (h : Reports nodes max cur) (hpos : 0 < max) :
    Scales nodes max cur ↔ Exact max 255 (max / 2) ∧ Exact cur 255 (max / 2) := by
  have hsends : ∀ level, Sends nodes level (toRaw max (min level 255)) := fun _ => sends h hpos
  constructor
  · intro hscales
    refine ⟨?_, hscales.probes⟩
    by_cases hbig : 255 ≤ max
    · obtain ⟨raw, hraw, hexact, -⟩ := hscales.back hbig 255 le_rfl
      exact hraw.unique (hscales.full 255 le_rfl) ▸ hexact
    · show max * 255 + max / 2 < 2 ^ 32
      omega
  · rintro ⟨hmax, hcur⟩
    have hexact : ∀ {level}, level ≤ 255 → Exact level max 127 := by
      intro level hlevel
      have hprod : level * max ≤ 255 * max := Nat.mul_le_mul_right _ hlevel
      rw [Exact] at hmax ⊢
      omega
    have hraw : ∀ level, toRaw max (min level 255) = (min level 255 * max + 127) / 255 :=
      fun level => toRaw_eq (min_le_right _ _) (hexact (min_le_right _ _))
    refine ⟨fun level => ⟨_, min_le_right _ _, hsends level⟩,
      fun level level' raw raw' hle hsent hsent' => ?_,
      ?_, fun level hlevel => ?_, fun hbig level hlevel => ?_, fun _ => hexact, hcur⟩
    · rw [hsent.unique (hsends level), hsent'.unique (hsends level'), hraw, hraw]
      exact Nat.div_le_div_right (Nat.add_le_add_right (Nat.mul_le_mul_right _ (min_le_min_right _ hle)) _)
    · have hzero : Sends nodes 0 ((min 0 255 * max + 127) / 255) := hraw 0 ▸ hsends 0
      simpa using hzero
    · have hfull : toRaw max (min level 255) = max := by
        rw [hraw, min_eq_right hlevel]
        omega
      exact hfull ▸ hsends level
    · have hback : Exact (toRaw max (min level 255)) 255 (max / 2) :=
        (Nat.add_le_add_right (Nat.mul_le_mul_right _ (min_le_right _ _)) _).trans_lt hmax
      refine ⟨_, hsends level, hback, ?_⟩
      rw [toLevel, hback.uint32_eq, hraw, min_eq_left hlevel, round_back hbig, min_eq_left hlevel]

theorem scales_panel : Scales [⟨false, none, none⟩, ⟨true, some 4095, some 1024⟩] 4095 1024 :=
  (scales_iff ⟨_, rfl, rfl, rfl⟩ (by decide)).mpr ⟨by norm_num [Exact], by norm_num [Exact]⟩

theorem full_level_lost : Reports [⟨true, some 20000000, some 0⟩] 20000000 0 ∧
    ¬ Scales [⟨true, some 20000000, some 0⟩] 20000000 0 ∧
    (write [⟨true, some 20000000, some 0⟩] {} 255 true true).2.1 = some 3156991 := by
  have hsent : (write [⟨true, some 20000000, some 0⟩] {} 255 true true).2.1 = some 3156991 := by
    decide +kernel
  refine ⟨⟨_, rfl, rfl, rfl⟩, fun h => ?_, hsent⟩
  exact absurd (hsent.symm.trans (h.full 255 le_rfl [] {} true rfl)) (by decide)

end Backlight

end OniroSoc.Display

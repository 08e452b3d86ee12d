import OniroSoc.Support.Runs

/-!
# The vblank stream of the phone display

The hardware's vsync events and a thread that stands in for them feed one callback.  The thread
sleeps for the period of the mode, and calls back if the hardware was silent for 100 ms.  Only
sleeps take time.
-/

namespace OniroSoc.Display.Vblank

open Support List

structure HwcMode where
  id : Nat
  (width height vsyncPeriodNs : Int)
  deriving DecidableEq

structure Hal where
  configs : List HwcMode
  active : HwcMode
  listed : active ∈ configs

def hwcModes (hal : Hal) : List HwcMode :=
  if hal.active ∈ hal.configs then hal.configs else [hal.active]

def findMode (modes : List HwcMode) (modeId : Nat) : Option HwcMode :=
  modes.foldl (fun target m => if m.id = modeId then some m else target) none

inductive Loop where
  | top
  | asleep (wake period : Int)
  | woken
  | checking
  | ticking (now : Int) (recorded : List Int)
  deriving DecidableEq

def nanosleep (period : Int) : Int := if 0 ≤ period ∧ period < 1000000000 then period else 0

def kHwSilenceNs : Int := 100000000

/-- A display, its threads, and what is seen of them: the hardware events recorded, the sequence
numbers of the callbacks, the last callback or the enabling after it, and the longest sleep
since. -/
structure HybrisDisplay where
  (vsyncEnabled swVsyncRun : Bool := false)
  swPeriodNs : Int := 16666667
  lastHwVsyncNs : Int := 0
  vsyncSeq : Nat := 0
  hwcModesLoaded : Bool := false
  now : Int
  ensuring : Nat := 0
  delivering : Bool := false
  loops : List Loop := []
  recorded : List Int := []
  sent : List Nat := []
  (since longest : Int := 0)
  deriving DecidableEq

inductive Action where
  | pass (d : Nat)
  | setDisplayVsyncEnabled (enabled : Bool)
  | ensureSwVsyncThread
  | getDisplaySupportedModes
  | setDisplayMode (modeId : Nat) (err : Bool)
  | onVsync
  | deliver
  | loop (i : Nat)

def Loop.sleep : Loop → Int
  | .asleep _ period => nanosleep period
  | _ => 0

def sleeping (loops : List Loop) : Int := (loops.map Loop.sleep).foldr max 0

def await (s : HybrisDisplay) : HybrisDisplay :=
  { s with since := s.now, longest := sleeping s.loops }

def callback (s : HybrisDisplay) : HybrisDisplay :=
  { await s with vsyncSeq := (s.vsyncSeq + 1) % 2 ^ 32, sent := s.sent ++ [s.vsyncSeq] }

def loadHwcModes (hal : Hal) (s : HybrisDisplay) : HybrisDisplay :=
  if s.hwcModesLoaded then s
  else { s with hwcModesLoaded := true,
                swPeriodNs :=
                  if hal.active.vsyncPeriodNs > 0 then hal.active.vsyncPeriodNs else s.swPeriodNs }

def setDisplayMode (hal : Hal) (s : HybrisDisplay) (modeId : Nat) (err : Bool) : HybrisDisplay :=
  match findMode (hwcModes hal) modeId with
  | none => loadHwcModes hal s
  | some target =>
    if err then loadHwcModes hal s
    else { loadHwcModes hal s with swPeriodNs := target.vsyncPeriodNs }

def checked (s : HybrisDisplay) : Loop :=
  if s.now - s.lastHwVsyncNs < kHwSilenceNs then .top else .ticking s.now s.recorded

def stepLoop (s : HybrisDisplay) (i : Nat) : Loop → Option HybrisDisplay
  | .top => some { s with
      loops := s.loops.set i (.asleep (s.now + nanosleep s.swPeriodNs) s.swPeriodNs),
      longest := max s.longest (nanosleep s.swPeriodNs) }
  | .asleep wake _ => if wake ≤ s.now then some { s with loops := s.loops.set i .woken } else none
  | .woken => some { s with loops := s.loops.set i (if s.vsyncEnabled then .checking else .top) }
  | .checking => some { s with loops := s.loops.set i (checked s) }
  | .ticking _ _ => some (callback { s with loops := s.loops.set i .top })

def Loop.waits (t : Int) : Loop → Bool
  | .asleep wake _ => t ≤ wake
  | _ => false

def step (hal : Hal) (s : HybrisDisplay) : Action → Option HybrisDisplay
  | .pass d =>
    if s.ensuring = 0 ∧ s.delivering = false ∧ s.loops.all (Loop.waits (s.now + d)) then
      some { s with now := s.now + d }
    else none
  | .setDisplayVsyncEnabled enabled =>
    if enabled then
      let s₁ := if s.vsyncEnabled then s else await s
      some { s₁ with vsyncEnabled := true, ensuring := s.ensuring + 1 }
    else some { s with vsyncEnabled := false }
  | .ensureSwVsyncThread =>
    if s.ensuring = 0 then none
    else if s.swVsyncRun then some { s with ensuring := s.ensuring - 1 }
    else some { s with ensuring := s.ensuring - 1, swVsyncRun := true, loops := .top :: s.loops }
  | .getDisplaySupportedModes => some (loadHwcModes hal s)
  | .setDisplayMode modeId err => some (setDisplayMode hal s modeId err)
  | .onVsync =>
    if s.delivering then none
    else some { s with lastHwVsyncNs := s.now, recorded := s.now :: s.recorded, delivering := true }
  | .deliver => if s.delivering then some (callback { s with delivering := false }) else none
  | .loop i => s.loops[i]?.bind (stepLoop s i)

def Sleepable (period : Int) : Prop := 0 < period ∧ period < 1000000000

/-- **A good stream.** -/
structure Good (s : HybrisDisplay) : Prop where
  single : s.loops.length ≤ 1
  distinct : s.sent.length ≤ 2 ^ 32 → s.sent.Nodup
  silent : ∀ now recorded, .ticking now recorded ∈ s.loops → ∀ t ∈ recorded, t + kHwSilenceNs ≤ now
  period : ∀ wake period, .asleep wake period ∈ s.loops → Sleepable period
  gap : s.vsyncEnabled → s.now - s.since ≤ kHwSilenceNs + s.longest

/-- **The condition.**  `LoadHwcModes` guards one side of the range, `SetDisplayMode` neither. -/
def Reports (hal : Hal) : Prop :=
  hal.active.vsyncPeriodNs < 1000000000 ∧
    ∀ modeId target, findMode (hwcModes hal) modeId = some target → Sleepable target.vsyncPeriodNs

def anchor (s : HybrisDisplay) : Int := if s.delivering then s.now else s.since

def Loop.Placed (now : Int) : Loop → Prop
  | .asleep wake period => Sleepable period ∧ now ≤ wake ∧ wake ≤ now + period
  | .ticking now recorded => ∀ t ∈ recorded, t + kHwSilenceNs ≤ now
  | _ => True

def Loop.Due (s : HybrisDisplay) : Loop → Prop
  | .top => s.now ≤ anchor s + kHwSilenceNs
  | .asleep wake period => period ≤ s.longest ∧ wake ≤ anchor s + kHwSilenceNs + period
  | _ => True

structure Core (s : HybrisDisplay) : Prop where
  single : s.loops.length = if s.swVsyncRun then 1 else 0
  alive : s.vsyncEnabled → s.ensuring = 0 → s.swVsyncRun = true
  seq : s.vsyncSeq = s.sent.length % 2 ^ 32 ∧ s.sent = (List.range s.sent.length).map (· % 2 ^ 32)
  past : s.lastHwVsyncNs ≤ s.now ∧ ∀ t ∈ s.recorded, t ≤ s.lastHwVsyncNs
  period : Sleepable s.swPeriodNs
  placed : ∀ l ∈ s.loops, l.Placed s.now

structure Timely (s : HybrisDisplay) : Prop where
  fresh : s.loops = [] → s.now ≤ anchor s + kHwSilenceNs
  answered : s.lastHwVsyncNs ≤ anchor s
  gap : s.now ≤ s.since + kHwSilenceNs + s.longest
  since : s.since ≤ s.now
  due : ∀ l ∈ s.loops, l.Due s

def Inv (s : HybrisDisplay) : Prop := Core s ∧ (s.vsyncEnabled = true → Timely s)

section Invariant
variable {hal : Hal} {s s' : HybrisDisplay}

theorem nanosleep_eq {period : Int} (h : Sleepable period) : nanosleep period = period := if_pos ⟨h.1.le, h.2⟩

theorem Inv.good (h : Inv s) : Good s where
  single := by
    rw [h.1.single]
    split <;> simp
  distinct := by
    intro hlen
    rw [h.1.seq.2]
    refine Nodup.map_on (fun i hi j hj heq => ?_) nodup_range
    rw [mem_range] at hi hj
    rwa [Nat.mod_eq_of_lt (by omega), Nat.mod_eq_of_lt (by omega)] at heq
  silent := fun _ _ hmem => h.1.placed _ hmem
  period := fun _ _ hmem => (h.1.placed _ hmem).1
  gap := by
    intro hon
    have := (h.2 hon).gap
    omega

variable {l : Loop}

theorem sleep_le_sleeping {loops : List Loop} (hl : l ∈ loops) : l.sleep ≤ sleeping loops := by
  induction loops with
  | nil => cases hl
  | cons l' loops ih =>
    obtain rfl | hl := mem_cons.mp hl
    exacts [le_max_left _ _, (ih hl).trans (le_max_right _ _)]

theorem sleeping_nonneg (loops : List Loop) : 0 ≤ sleeping loops := by
  induction loops with
  | nil => exact le_rfl
  | cons l loops ih => exact ih.trans (le_max_right _ _)

theorem Core.timely (h : Core s) (hsince : s.since = s.now)
    (hlongest : s.longest = sleeping s.loops) : Timely s := by
  have hanchor : anchor s = s.now := by rw [anchor, hsince, ite_self]
  have hnonneg := sleeping_nonneg s.loops
  refine ⟨fun _ => ?_, hanchor ▸ h.past.1, ?_, hsince.le, fun l hl => ?_⟩
  · rw [hanchor, kHwSilenceNs]
    omega
  · rw [hsince, hlongest, kHwSilenceNs]
    omega
  · have hplaced := h.placed l hl
    have hle := sleep_le_sleeping hl
    cases l with
    | top =>
      rw [Loop.Due, hanchor, kHwSilenceNs]
      omega
    | asleep wake period =>
      obtain ⟨hp, -, hstart⟩ := hplaced
      rw [Loop.sleep, nanosleep_eq hp] at hle
      rw [Loop.Due, hanchor, hlongest, kHwSilenceNs]
      omega
    | _ => trivial

theorem Timely.mono (h : Timely s) (hnow : s'.now = s.now) (hsince : s'.since = s.since)
    (hanchor : anchor s ≤ anchor s') (hlongest : s.longest ≤ s'.longest)
    (hhw : s'.lastHwVsyncNs = s.lastHwVsyncNs ∨ s'.lastHwVsyncNs ≤ anchor s')
    (hloops : ∀ l ∈ s'.loops, l ∈ s.loops ∨ l.Due s') (hnil : s'.loops = [] → s.loops = []) :
    Timely s' := by
  obtain ⟨hfresh, hans, hgap, hle, hdue⟩ := h
  refine ⟨fun hl => ?_, ?_, by omega, by omega, fun l hl => (hloops l hl).elim (fun hl => ?_) id⟩
  · have := hfresh (hnil hl)
    omega
  · omega
  · have hdue := hdue l hl
    cases l with
    | top =>
      simp only [Loop.Due] at hdue ⊢
      omega
    | asleep wake period =>
      simp only [Loop.Due] at hdue ⊢
      omega
    | _ => trivial

theorem Core.loops_cases (h : Core s) :
    s.loops = [] ∧ s.swVsyncRun = false ∨ ∃ l, s.loops = [l] ∧ s.swVsyncRun = true := by
  have hlen := h.single
  cases hr : s.swVsyncRun with
  | false => exact .inl ⟨length_eq_zero_iff.mp (by simpa [hr] using hlen), rfl⟩
  | true =>
    obtain ⟨l, hl⟩ := length_eq_one_iff.mp (by simpa [hr] using hlen)
    exact .inr ⟨l, hl, rfl⟩

theorem Inv.pass (h : Inv s) {d : Nat} (hens : s.ensuring = 0) (hdel : s.delivering = false)
    (hwait : s.loops.all (Loop.waits (s.now + d))) : Inv { s with now := s.now + d } := by
  obtain ⟨hcore, htimely⟩ := h
  have hpast := hcore.past.1
  have hanchor : ∀ t, anchor { s with now := t } = s.since := fun t => by simp [anchor, hdel]
  have hasleep : ∀ l ∈ s.loops, ∃ wake period, l = .asleep wake period ∧ s.now + d ≤ wake := by
    intro l hl
    have hl := all_eq_true.mp hwait l hl
    cases l with
    | asleep wake period => exact ⟨wake, period, rfl, of_decide_eq_true hl⟩
    | _ => cases hl
  constructor
  · have hpast' : s.lastHwVsyncNs ≤ s.now + d := by omega
    refine { hcore with past := ⟨hpast', hcore.past.2⟩, placed := fun l hl => ?_ }
    obtain ⟨wake, period, rfl, hd⟩ := hasleep l hl
    obtain ⟨hp, -, hwake⟩ := hcore.placed _ hl
    exact ⟨hp, hd, by simp only; omega⟩
  · intro hon
    obtain ⟨-, hans, -, hle, hdue⟩ := htimely hon
    -- with vsync on there is a thread, so it is the one that sleeps
    obtain ⟨-, hrun⟩ | ⟨l, hl, -⟩ := hcore.loops_cases
    · simp [hcore.alive hon hens] at hrun
    · obtain ⟨wake, period, rfl, hd⟩ := hasleep l (by simp [hl])
      have hbound := hdue _ (by simp [hl] : Loop.asleep wake period ∈ s.loops)
      simp only [Loop.Due, show anchor s = s.since from hanchor s.now] at hbound hans
      refine ⟨by simp [hl], by rwa [hanchor], by simp only; omega, by simp only; omega, fun l' hl' => ?_⟩
      obtain rfl : l' = .asleep wake period := by simpa [hl] using hl'
      simp only [Loop.Due, hanchor]
      exact hbound

theorem Core.callback (h : Core s) : Core (callback s) := by
  refine { h with seq := ?_ }
  obtain ⟨hseq, hsent⟩ := h.seq
  simp only [Vblank.callback, length_append, length_singleton, range_succ, map_append, ← hsent]
  exact ⟨by omega, by simp [hseq]⟩

variable {i : Nat}

theorem Core.set (h : Core s) (hl : l.Placed s.now) : Core { s with loops := s.loops.set i l } := by
  refine { h with single := by simpa using h.single, placed := fun l' hl' => ?_ }
  obtain hl' | rfl := mem_or_eq_of_mem_set hl'
  exacts [h.placed l' hl', hl]

theorem load_eq (hal : Hal) (s : HybrisDisplay) : loadHwcModes hal s =
    { s with hwcModesLoaded := (loadHwcModes hal s).hwcModesLoaded,
             swPeriodNs := (loadHwcModes hal s).swPeriodNs } := by
  rw [loadHwcModes]
  split_ifs <;> rfl

theorem Core.load (h : Core s) (hrep : Reports hal) :
    Sleepable (loadHwcModes hal s).swPeriodNs := by
  rw [loadHwcModes]
  split_ifs with hloaded hpos
  exacts [h.period, ⟨hpos, hrep.1⟩, h.period]

theorem Inv.modes (h : Inv s)
    (hs' : s' = { s with hwcModesLoaded := s'.hwcModesLoaded, swPeriodNs := s'.swPeriodNs })
    (hperiod : Sleepable s'.swPeriodNs) : Inv s' := by
  obtain ⟨hcore, htimely⟩ := h
  rw [hs']
  refine ⟨{ hcore with period := hperiod }, fun hon => ?_⟩
  exact (htimely hon).mono rfl rfl le_rfl le_rfl (.inl rfl) (fun l hl => .inl hl) id

theorem Inv.enable (h : Inv s) :
    Inv { (if s.vsyncEnabled then s else await s) with
      vsyncEnabled := true, ensuring := s.ensuring + 1 } := by
  obtain ⟨hcore, htimely⟩ := h
  cases hon : s.vsyncEnabled with
  | true =>
    refine ⟨{ hcore with alive := nofun }, fun _ => ?_⟩
    exact (htimely hon).mono rfl rfl le_rfl le_rfl (.inl rfl) (fun l hl => .inl hl) id
  | false =>
    have hcore' : Core { await s with vsyncEnabled := true, ensuring := s.ensuring + 1 } :=
      { hcore with alive := nofun }
    exact ⟨hcore', fun _ => hcore'.timely rfl rfl⟩

theorem Inv.ensure (h : Inv s) (hrun : s.swVsyncRun = false) :
    Inv { s with ensuring := s.ensuring - 1, swVsyncRun := true, loops := .top :: s.loops } := by
  obtain ⟨hcore, htimely⟩ := h
  have hnil : s.loops = [] := by
    obtain ⟨hl, -⟩ | ⟨l, -, hrun'⟩ := hcore.loops_cases
    · exact hl
    · simp [hrun] at hrun'
  refine ⟨⟨by simp [hnil], fun _ _ => rfl, hcore.seq, hcore.past, hcore.period, ?_⟩, fun hon => ?_⟩
  · simp [hnil, Loop.Placed]
  · have hfresh := (htimely hon).fresh hnil
    refine (htimely hon).mono rfl rfl le_rfl le_rfl (.inl rfl) (fun l hl => ?_) nofun
    obtain rfl : l = .top := by simpa [hnil] using hl
    exact .inr hfresh

theorem Inv.onVsync (h : Inv s) :
    Inv { s with lastHwVsyncNs := s.now, recorded := s.now :: s.recorded, delivering := true } := by
  obtain ⟨hcore, htimely⟩ := h
  refine ⟨{ hcore with past := ⟨le_rfl, ?_⟩ }, fun hon => ?_⟩
  · intro t ht
    obtain rfl | ht := mem_cons.mp ht
    exacts [le_rfl, (hcore.past.2 t ht).trans hcore.past.1]
  · have hanchor : anchor s ≤ s.now := by
      rw [anchor]
      split_ifs
      exacts [le_rfl, (htimely hon).since]
    exact (htimely hon).mono rfl rfl hanchor le_rfl (.inr le_rfl) (fun l hl => .inl hl) id

theorem Inv.called (h : Core (callback s)) : Inv (callback s) := ⟨h, fun _ => h.timely rfl rfl⟩

theorem Inv.set (h : Inv s) (hl : l.Placed s.now)
    (hdue : s.vsyncEnabled = true → l.Due s) : Inv { s with loops := s.loops.set i l } := by
  refine ⟨h.1.set hl, fun hon => (h.2 hon).mono rfl rfl le_rfl le_rfl (.inl rfl) (fun l' hl' => ?_)
    (by simp)⟩
  obtain hl' | rfl := mem_or_eq_of_mem_set hl'
  exacts [.inl hl', .inr (hdue hon)]

theorem Inv.sleep (h : Inv s) (hi : s.loops[i]? = some .top) :
    Inv { s with loops := s.loops.set i (.asleep (s.now + nanosleep s.swPeriodNs) s.swPeriodNs),
                 longest := max s.longest (nanosleep s.swPeriodNs) } := by
  obtain ⟨hcore, htimely⟩ := h
  have hp := hcore.period
  rw [nanosleep_eq hp]
  have hplaced : (Loop.asleep (s.now + s.swPeriodNs) s.swPeriodNs).Placed s.now :=
    ⟨hp, by have := hp.1; omega, le_rfl⟩
  have hcore' := hcore.set (i := i) hplaced
  refine ⟨{ hcore' with period := hp }, fun hon => ?_⟩
  have htop : s.now ≤ anchor s + kHwSilenceNs := (htimely hon).due .top (mem_of_getElem? hi)
  refine (htimely hon).mono rfl rfl le_rfl (le_max_left _ _) (.inl rfl) (fun l' hl' => ?_) (by simp)
  obtain hl' | rfl := mem_or_eq_of_mem_set hl'
  · exact .inl hl'
  · exact .inr ⟨le_max_right _ _, Int.add_le_add_right htop _⟩

theorem Inv.loop (h : Inv s) (hi : s.loops[i]? = some l) (hs : stepLoop s i l = some s') :
    Inv s' := by
  cases l with
  | top =>
    cases hs
    exact h.sleep hi
  | asleep wake period =>
    simp only [stepLoop] at hs
    split_ifs at hs
    cases hs
    exact h.set trivial fun _ => trivial
  | woken =>
    cases hs
    refine h.set ?_ fun hon => ?_
    · split <;> trivial
    · rw [if_pos hon]
      trivial
  | checking =>
    cases hs
    refine h.set ?_ fun hon => ?_
    · rw [checked]
      split_ifs with hhw
      · trivial
      · intro t ht
        have := h.1.past.2 t ht
        omega
    · have hans := (h.2 hon).answered
      rw [checked]
      split_ifs with hhw
      · rw [Loop.Due]
        omega
      · trivial
  | ticking now recorded =>
    cases hs
    exact .called (h.1.set (l := .top) trivial).callback

theorem inv_step (hrep : Reports hal) {a : Action} (h : Inv s) (hs : step hal s a = some s') :
    Inv s' := by
  cases a with
  | pass d =>
    simp only [step] at hs
    split_ifs at hs with hc
    cases hs
    exact h.pass hc.1 hc.2.1 hc.2.2
  | setDisplayVsyncEnabled enabled =>
    cases enabled with
    | true =>
      cases hs
      exact h.enable
    | false =>
      cases hs
      obtain ⟨hcore, -⟩ := h
      exact ⟨{ hcore with alive := nofun }, nofun⟩
  | ensureSwVsyncThread =>
    simp only [step] at hs
    split_ifs at hs with hens hrun
    · cases hs
      obtain ⟨hcore, htimely⟩ := h
      refine ⟨{ hcore with alive := fun _ _ => hrun }, fun hon => ?_⟩
      exact (htimely hon).mono rfl rfl le_rfl le_rfl (.inl rfl) (fun l hl => .inl hl) id
    · cases hs
      exact h.ensure (by simpa using hrun)
  | getDisplaySupportedModes =>
    cases hs
    exact h.modes (load_eq hal s) (h.1.load hrep)
  | setDisplayMode modeId err =>
    cases hs
    rw [setDisplayMode]
    split
    · exact h.modes (load_eq hal s) (h.1.load hrep)
    · rename_i target htarget
      split_ifs
      · exact h.modes (load_eq hal s) (h.1.load hrep)
      · refine h.modes ?_ (hrep.2 modeId target htarget)
        nth_rewrite 1 [load_eq hal s]
        rfl
  | onVsync =>
    simp only [step] at hs
    split_ifs at hs
    cases hs
    exact h.onVsync
  | deliver =>
    simp only [step] at hs
    split_ifs at hs
    cases hs
    obtain ⟨hcore, -⟩ := h
    exact .called (Core.callback { hcore with })
  | loop i =>
    obtain ⟨l, hi, hs⟩ := Option.bind_eq_some_iff.mp hs
    exact h.loop hi hs

end Invariant

def boot (t₀ : Nat) : HybrisDisplay := { now := t₀ }

theorem inv_boot (t₀ : Nat) : Inv (boot t₀) := by
  have hperiod : Sleepable 16666667 := ⟨by decide, by decide⟩
  exact ⟨⟨rfl, nofun, ⟨rfl, rfl⟩, ⟨Int.natCast_nonneg t₀, nofun⟩, hperiod, nofun⟩, nofun⟩

def start : List Action := [.setDisplayVsyncEnabled true, .ensureSwVsyncThread, .loop 0]

theorem sleepable_of_good {hal : Hal} {a : Action} {period : Int} {loaded : Bool}
    (hgood : ∀ t₀ actions s, run (step hal) (boot t₀) actions = some s → Good s)
    (ha : step hal (boot 0) a =
    some { boot 0 with swPeriodNs := period, hwcModesLoaded := loaded }) :
    Sleepable period := by
  have hrun := hgood 0 (a :: start) _ (by rw [run_cons, ha]; rfl)
  exact hrun.period (0 + nanosleep period) period (mem_singleton.mpr rfl)

/-- **The vblank stream** is good in every timed interleaving of calls, hardware events and the
fallback's steps exactly if the HAL reports legal periods. -/
theorem stream_good_iff (hal : Hal) :
    (∀ t₀ actions s, run (step hal) (boot t₀) actions = some s → Good s) ↔ Reports hal := by
  constructor
  · intro hgood
    constructor
    · by_contra hlong
      have hpos : hal.active.vsyncPeriodNs > 0 := by omega
      have hload : step hal (boot 0) .getDisplaySupportedModes =
          some { boot 0 with swPeriodNs := hal.active.vsyncPeriodNs, hwcModesLoaded := true } := by
        simp [step, loadHwcModes, boot, hpos]
      exact hlong (sleepable_of_good hgood hload).2
    · intro modeId target htarget
      have hset : step hal (boot 0) (.setDisplayMode modeId false) =
          some { boot 0 with swPeriodNs := target.vsyncPeriodNs, hwcModesLoaded := true } := by
        simp [step, setDisplayMode, htarget, loadHwcModes, boot]
      exact sleepable_of_good hgood hset
  · intro hrep t₀ actions s hrun
    exact (run_invariant (fun s a s₁ hs => inv_step hrep hs) hrun (inv_boot t₀)).good

def still : Hal := ⟨[⟨0, 1080, 2400, 0⟩], ⟨0, 1080, 2400, 0⟩, by decide⟩

theorem no_period_slept :
    ∃ s, run (step still) (boot 0) (.setDisplayMode 0 false :: start) = some s ∧
      .asleep 0 0 ∈ s.loops :=
  ⟨_, rfl, mem_singleton.mpr rfl⟩

end OniroSoc.Display.Vblank

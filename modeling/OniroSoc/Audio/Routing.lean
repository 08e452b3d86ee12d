import OniroSoc.Support.Runs

/-!
# The audio adapter: streams, routing and mode

Routing is a parameter of a stream: the adapter keeps one output and one capture stream to send it
to.
-/

namespace OniroSoc.Audio.Routing
open Support List

inductive Mode where
  | normal | ringtone | inCall | inCommunication
deriving DecidableEq

inductive Direction where
  | render | capture
deriving DecidableEq

/-- The live streams of a direction, by their address; `slot` is `outRender` or `inCapture`. -/
structure Streams where
  (primary mmap : List Nat := [])
  slot : Option Nat := none

/-- The calls to the HAL: `set_parameters` of a stream and of the device, and `set_mode`. -/
inductive Event where
  | stream (r : Nat) (devices : Nat)
  | device (devices : Nat)
  | setMode (mode : Mode)

structure Adapter where
  streams : Direction → Streams := fun _ => {}
  /-- `ad->mode`, and the mode of the last `set_mode` that succeeded. -/
  (mode halMode : Mode := .normal)

/-- `devices` is 0 without a pin or sink, `stream` what the HAL opens, and `ok` whether its
`set_mode` succeeds. -/
inductive Call where
  | create (d : Direction) (mmap : Bool) (stream : Option Nat)
  | destroy (d : Direction) (r : Nat)
  | selectScene (d : Direction) (devices : Nat) (mode : Mode) (ok : Bool)
  | updateAudioRoute (devices : Nat)

namespace Streams

def create (s : Streams) (r : Nat) (primary : Bool) : Streams :=
  if primary then { s with primary := r :: s.primary, slot := some r }
    else { s with mmap := r :: s.mmap }

def destroy (s : Streams) (r : Nat) : Streams :=
  { primary := s.primary.erase r, mmap := s.mmap.erase r, slot := if s.slot = some r then none else s.slot }

def setRouting (s : Streams) (devices : Nat) : List Event :=
  if devices = 0 then [] else s.slot.toList.map (.stream · devices) ++ [.device devices]

/-- The slot holds a live stream whenever there is one. -/
def Routed (s : Streams) : Prop := s.slot.elim (s.primary = []) (· ∈ s.primary)

variable {s : Streams} {r : Nat}

theorem Routed.create (h : s.Routed) (primary : Bool) : (s.create r primary).Routed := by
  cases primary with
  | true => exact mem_cons_self
  | false => exact h

theorem routed_destroy (h : s.Routed) :
    (s.destroy r).Routed ↔ (s.slot = some r → s.primary.erase r = []) := by
  rw [Routed] at h ⊢
  cases hslot : s.slot with
  | none => simp_all [destroy]
  | some x =>
    by_cases hx : x = r
    · simp [destroy, hslot, hx]
    · simp_all [destroy, mem_erase_of_ne hx]

theorem Routed.head (h : s.Routed) {devices : Nat} (hd : devices ≠ 0) (hlive : s.primary ≠ []) :
    ∃ r ∈ s.primary, (s.setRouting devices).head? = some (.stream r devices) := by
  rw [Routed] at h
  cases hslot : s.slot with
  | none => simp_all
  | some r => exact ⟨r, by simpa [hslot] using h, by simp [setRouting, hd, hslot]⟩

end Streams

namespace Adapter

def target : Call → Option (Direction × Nat)
  | .selectScene d devices _ _ => some (d, devices)
  | .updateAudioRoute devices => some (.render, devices)
  | _ => none

/-- The `set_mode` of `ApplyOutputScene`, and whether it succeeds. -/
def setsMode (s : Adapter) : Call → Option (Mode × Bool)
  | .selectScene .render _ mode ok => if mode = s.mode then none else some (mode, ok)
  | _ => none

def events (s : Adapter) (c : Call) : List Event :=
  (target c).elim [] (fun (d, devices) => (s.streams d).setRouting devices) ++
    (s.setsMode c).toList.map (.setMode ·.1)

def update (s : Adapter) : Call → Direction → Streams
  | .create d mmap (some r) =>
    Function.update s.streams d ((s.streams d).create r (d = .capture || !mmap))
  | .destroy d r => Function.update s.streams d ((s.streams d).destroy r)
  | _ => s.streams

def step (s : Adapter) (c : Call) : Option Adapter :=
  let succeeded := (s.setsMode c).bind fun (mode, ok) => if ok then some mode else none
  some { streams := s.update c, mode := succeeded.getD s.mode, halMode := succeeded.getD s.halMode }

def Routed (s : Adapter) : Prop := ∀ d, (s.streams d).Routed

/-- A scene or route with a device is told to a live stream if there is one, before anything
else. -/
def Delivered (s : Adapter) (c : Call) : Prop :=
  ∀ d devices, target c = some (d, devices) → devices ≠ 0 → (s.streams d).primary ≠ [] →
    ∃ r ∈ (s.streams d).primary, (s.events c).head? = some (.stream r devices)

def NewMode (s : Adapter) (c : Call) : Prop :=
  s.mode = s.halMode ∧ ∀ mode ok, s.setsMode c = some (mode, ok) → mode ≠ s.halMode

/-- No stream in a slot is destroyed before the others of its direction. -/
def Fits (s : Adapter) : Call → Prop
  | .destroy d r => (s.streams d).slot = some r → (s.streams d).primary.erase r = []
  | _ => True

variable {s s' : Adapter} {c : Call}

theorem routed_update (h : s.Routed) : (∀ d, (s.update c d).Routed) ↔ s.Fits c := by
  have hothers : ∀ {d t}, t.Routed → ∀ e, (Function.update s.streams d t e).Routed := by
    intro d t ht e
    by_cases he : e = d
    · simpa [he] using ht
    · simpa [he] using h e
  cases c with
  | create d mmap stream =>
    cases stream with
    | none => exact iff_of_true h trivial
    | some r => exact iff_of_true (hothers ((h d).create _)) trivial
  | destroy d r =>
    refine Iff.trans ⟨fun hall => ?_, hothers⟩ (Streams.routed_destroy (h d))
    simpa [update] using hall d
  | _ => exact iff_of_true h trivial

theorem delivered_of_routed (h : s.Routed) : s.Delivered c := by
  intro d devices htarget hd hlive
  obtain ⟨r, hr, hhead⟩ := (h d).head hd hlive
  exact ⟨r, hr, by simp [events, htarget, hhead]⟩

theorem newMode_of_mode (h : s.mode = s.halMode) : s.NewMode c := by
  refine ⟨h, fun mode ok hset => ?_⟩
  rw [setsMode.eq_def] at hset
  split at hset
  · split_ifs at hset with hne
    cases hset
    exact h ▸ hne
  · cases hset

/-- **The slots hold live streams**, and scenes and routes reach one before any change of the mode,
exactly if no stream in a slot is destroyed before the others; and the HAL is never told the mode it
is in. -/
theorem routed_iff (calls : List Call) :
    (Always step Routed {} calls ∧ Along step Delivered {} calls ↔ Along step Fits {} calls) ∧
      Along step NewMode {} calls := by
  have hany : Along step (fun _ _ => True) {} calls := along_of_forall (fun _ _ _ => trivial) _
  obtain ⟨s, hrun, -⟩ : ∃ s, run step {} calls = some s ∧ True :=
    run_of_along (fun _ _ _ _ => ⟨_, rfl, trivial⟩) hany trivial
  have hkeep : ∀ s c s', Routed s → Fits s c → step s c = some s' → Routed s' := by
    rintro s c _ h hfits ⟨⟩
    exact (routed_update h).mpr hfits
  have hiff : Always step Routed {} calls ↔ Along step Fits {} calls := by
    refine always_iff_along (fun _ h => h) hkeep ?_ hrun fun _ => rfl
    rintro s c _ h hfits ⟨⟩ hroute
    exact hfits ((routed_update h).mp hroute)
  refine ⟨⟨fun h => hiff.mp h.1, fun h => ⟨hiff.mpr h, ?_⟩⟩, ?_⟩
  · exact along_of_along hkeep (fun _ _ h _ => delivered_of_routed h) h fun _ => rfl
  · refine along_of_along (J := fun s => s.mode = s.halMode) ?_
      (fun _ _ h _ => newMode_of_mode h) hany rfl
    rintro s c _ h - ⟨⟩
    exact congrArg (Option.getD _) h

def lastDestroyed : List Call :=
  [.create .render false (some 1), .create .render false (some 2), .destroy .render 2]

theorem slot_lost :
    ∃ s, run step {} lastDestroyed = some s ∧ (s.streams .render).primary = [1] ∧ ¬ s.Routed ∧
      s.events (.selectScene .render 2 .inCall true) = [.device 2, .setMode .inCall] := by
  refine ⟨_, rfl, rfl, fun h => ?_, rfl⟩
  exact cons_ne_nil 1 [] (h .render)

end Adapter

end OniroSoc.Audio.Routing

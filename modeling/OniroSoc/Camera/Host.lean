import OniroSoc.Support.Pool
import Mathlib.Data.List.AList

/-!
# The camera host: one client per camera, and the torch

`OpenCamera` checks under `lock_` whether the camera is taken, opens the device without it, and
registers the device under it again.  Each instruction is one critical section.
-/

namespace OniroSoc.Camera.Host
open Support List Option

inductive Span where
  | opening
  | opened
  | closed
deriving DecidableEq

def Span.rank : Span → Nat
  | .opening => 0
  | .opened => 1
  | .closed => 2

def Span.close : Span → Span
  | .opening => .opening
  | _ => .closed

structure HybrisCameraDevice (Id : Type) where
  camera : Id
  span : Span := .opening
  device : Bool := false
  lens : Nat := 0
  refs : Nat := 1
  returned : Bool := false
deriving DecidableEq

structure CameraInfo where
  flashAvailable : Bool
  lenses : Nat

structure HybrisCameraHost (Id : Type) where
  devices : List (HybrisCameraDevice Id) := []
  openDevices : AList (fun _ : Id => Nat) := ∅
  torchOn : Bool := false
  opening : Nat := 0
  admitted : Bool := false
  lit : Bool := false
  finished : List (List Nat) := []

inductive Call (Id : Type) where
  | openCamera (cameraId : Id)
  | close (d : Nat)
  | drop (d : Nat)
  | switchLens (d lens : Nat)
  | setFlashlight (cameraId : Id) (isEnable : Bool)
  | closeAllCameras

inductive Instr (Id : Type) where
  | check (cameraId : Id)
  | openDevice (cameraId : Id) (d : Nat)
  | register (cameraId : Id) (d : Nat)
  | close (d : Nat)
  | release (d : Nat)
  | switchLens (d lens : Nat)
  | reopen (d lens previous : Nat)
  | setFlashlight (cameraId : Id) (isEnable : Bool)
  | swap (atStart : List Nat)
  | closeEach (rest atStart : List Nat)
  | closeLive (d : Nat) (rest atStart : List Nat)

structure Env where
  (allocated opened reopened access written : Bool := true)

namespace HybrisCameraHost

variable {Id : Type} [DecidableEq Id] (s : HybrisCameraHost Id)
  (findCamera : Id → Option CameraInfo)

def update (d : Nat) (f : HybrisCameraDevice Id → HybrisCameraDevice Id) : HybrisCameraHost Id :=
  { s with devices := s.devices.modify d f }

def isLive (d : Nat) : Bool := s.devices[d]?.any fun v => 0 < v.refs && v.device

def busy (cameraId : Id) : Bool := (s.openDevices.lookup cameraId).any s.isLive

def hasOpened (cameraId : Id) : Bool :=
  s.devices.any fun v => v.camera = cameraId && v.span = .opened

def hasFlash (cameraId : Id) : Bool := (findCamera cameraId).any (·.flashAvailable)

def flashOpened : Bool := s.devices.any fun v => v.span = .opened && hasFlash findCamera v.camera

def openNow : List Nat :=
  (List.range s.devices.length).filter fun d => s.devices[d]?.any fun v =>
    v.span = .opened || v.device

def opensReturn : HybrisCameraHost Id := { s with opening := s.opening - 1 }

def letIn (cameraId : Id) (info : CameraInfo) (written : Bool) : HybrisCameraHost Id :=
  { s with
    openDevices := s.openDevices.erase cameraId
    torchOn := if info.flashAvailable && s.torchOn then !written else s.torchOn
    admitted := s.admitted || s.hasOpened cameraId }

def create (cameraId : Id) : HybrisCameraHost Id :=
  { s with devices := s.devices ++ [{ camera := cameraId }] }

def closeDevice (d : Nat) : HybrisCameraHost Id :=
  s.update d fun v => { v with device := false, span := v.span.close }

end HybrisCameraHost

section Model
variable {Id : Type} [DecidableEq Id] (findCamera : Id → Option CameraInfo)

def perform (s : HybrisCameraHost Id) (env : Env) : Instr Id → HybrisCameraHost Id × List (Instr Id)
  | .check cameraId =>
    match findCamera cameraId with
    | none => (s.opensReturn, [])
    | some info =>
      if s.busy cameraId then (s.opensReturn, [])
      else if env.allocated then
        ((s.letIn cameraId info env.written).create cameraId, [.openDevice cameraId s.devices.length])
      else ((s.letIn cameraId info env.written).opensReturn, [])
  | .openDevice cameraId d =>
    if env.opened then
      (s.update d fun v => { v with device := true, lens := 0, span := .opened }, [.register cameraId d])
    else ((s.update d fun v => { v with span := .closed, refs := 0 }).opensReturn, [])
  | .register cameraId d =>
    ({ (s.update d fun v => { v with returned := true }).opensReturn with
        openDevices := s.openDevices.insert cameraId d }, [])
  | .close d => (s.closeDevice d, [])
  | .release d =>
    -- the last reference runs the destructor
    (s.update d fun v => { v with refs := v.refs - 1 },
      if s.devices[d]?.any (·.refs = 1) then [.close d] else [])
  | .switchLens d lens =>
    match s.devices[d]? with
    | none => (s, [])
    | some v =>
      if (findCamera v.camera).all (·.lenses ≤ lens) || (lens = v.lens && v.device) then (s, [])
      else (s.update d fun v => { v with device := false }, [.reopen d lens v.lens])
  | .reopen d lens previous =>
    (s.update d fun v => { v with
      device := env.opened || env.reopened
      lens := if env.opened then lens else previous }, [])
  | .setFlashlight cameraId isEnable =>
    if HybrisCameraHost.hasFlash findCamera cameraId && !s.busy cameraId &&
      env.access then ({ s with
          torchOn := if env.written then isEnable else s.torchOn
          lit := s.lit || (isEnable && s.flashOpened findCamera) }, [])
    else (s, [])
  | .swap atStart =>
    ({ s with openDevices := ∅ }, [.closeEach (s.openDevices.entries.map Sigma.snd) atStart])
  | .closeEach [] atStart => ({ s with finished := atStart :: s.finished }, [])
  | .closeEach (d :: rest) atStart =>
    if s.devices[d]?.any (0 < ·.refs) then
      (s.update d fun v => { v with refs := v.refs + 1 }, [.closeLive d rest atStart])
    else (s, [.closeEach rest atStart])
  | .closeLive d rest atStart => (s.closeDevice d, [.release d, .closeEach rest atStart])

def held (s : HybrisCameraHost Id) (d : Nat) : Bool :=
  s.devices[d]?.any fun v => v.returned && 0 < v.refs

/-- A `CloseAllCameras` that begins during an `OpenCamera` promises nothing. -/
def start (s : HybrisCameraHost Id) : Call Id → Option (HybrisCameraHost Id × List (Instr Id))
  | .openCamera cameraId => some ({ s with opening := s.opening + 1 }, [.check cameraId])
  | .close d => if held s d then some (s, [.close d]) else none
  | .drop d =>
    if held s d then some (s.update d fun v => { v with returned := false }, [.release d]) else none
  | .switchLens d lens =>
    if held s d && s.devices[d]?.any (·.span = .opened) then some (s, [.switchLens d lens])
      else none
  | .setFlashlight cameraId isEnable => some (s, [.setFlashlight cameraId isEnable])
  | .closeAllCameras => some (s, [.swap (if s.opening = 0 then s.openNow else [])])

def machine : Machine (HybrisCameraHost Id) (Instr Id) (Call Id) Env :=
  ⟨start, fun s env instr => some (perform findCamera s env instr)⟩

end Model

/-! ### What is asked of the schedule -/

namespace Instr

variable {Id : Type}

def opens : Instr Id → Option Nat
  | .openDevice _ d => some d
  | _ => none

def switched : Instr Id → Option Nat
  | .switchLens d _ | .reopen d _ _ => some d
  | _ => none

end Instr

section Conditions
variable {Id : Type} [DecidableEq Id] (findCamera : Id → Option CameraInfo)

structure Good (s : HybrisCameraHost Id) : Prop where
  one : ∀ (d d' : Nat) (v v' : HybrisCameraDevice Id), s.devices[d]? = some v → s.devices[d']? =
    some v' → v.span = .opened → v'.span = .opened → v.camera = v'.camera → d = d'
  refused : s.admitted = false
  dark : s.lit = false
  closed : ∀ atStart ∈ s.finished, ∀ d ∈ atStart, ∀ v, s.devices[d]? = some v →
    v.span = .closed ∧ v.device = false

def Fits (s : HybrisCameraHost Id) (rest : List (Instr Id)) (_ : Env) : Instr Id → Prop
  -- no other `OpenCamera` of the camera is under way, and the device it has is registered, has a client and
  -- is not between two lenses
  | .check cameraId =>
    ∀ (d : Nat) v, s.devices[d]? = some v → v.camera = cameraId → v.span ≠ .closed →
      s.openDevices.lookup cameraId = some d ∧ s.isLive d = true
  | .setFlashlight cameraId true => HybrisCameraHost.hasFlash findCamera cameraId = true →
      s.flashOpened findCamera = true → s.busy cameraId = true
  | .close d | .closeLive d _ _ => ∀ instr ∈ rest, instr.switched ≠ some d
  | .swap atStart => ∀ d ∈ atStart, ∀ v, s.devices[d]? = some v → v.span ≠ .closed →
      s.openDevices.lookup v.camera = some d
  -- a departed client has closed its device by now
  | .closeEach (d :: _) atStart =>
    d ∈ atStart → ∀ v, s.devices[d]? = some v → v.span ≠ .closed → 0 < v.refs
  | _ => True

def FitsStep : Pool (HybrisCameraHost Id) (Instr Id) → PoolAction (Call Id) Env → Prop :=
  Machine.Allowed (fun _ _ _ => True) (Fits findCamera)

end Conditions

section Invariant
variable {Id : Type}

structure Sound (s : HybrisCameraHost Id) : Prop where
  one : ∀ (d d' : Nat) (v v' : HybrisCameraDevice Id), s.devices[d]? = some v → s.devices[d']? =
    some v' → v.span ≠ .closed → v'.span ≠ .closed → v.camera = v'.camera → d = d'
  device : ∀ (d : Nat) (v : HybrisCameraDevice Id),
    s.devices[d]? = some v → v.device = true → v.span = .opened
  admitted : s.admitted = false
  lit : s.lit = false
  finished : ∀ atStart ∈ s.finished, ∀ d ∈ atStart, ∃ v, s.devices[d]? = some v ∧ v.span = .closed

def Left (devices : List (HybrisCameraDevice Id)) (left atStart : List Nat) : Prop :=
  ∀ d ∈ atStart, ∃ v, devices[d]? = some v ∧ v.span ≠ .opening ∧ (v.span ≠ .closed → d ∈ left)

def Pending (devices : List (HybrisCameraDevice Id)) : Instr Id → Prop
  | .openDevice _ d => ∃ v, devices[d]? = some v ∧ v.span = .opening
  | .switchLens d _ | .reopen d _ _ => ∃ v, devices[d]? = some v ∧ v.span = .opened
  | .swap atStart => ∀ d ∈ atStart, ∃ v, devices[d]? = some v ∧ v.span ≠ .opening
  | .closeEach rest atStart => Left devices rest atStart
  | .closeLive d rest atStart => Left devices (d :: rest) atStart
  | _ => True

structure Inv (s : HybrisCameraHost Id) (work : List (Instr Id)) : Prop where
  sound : Sound s
  pending : ∀ instr ∈ work, Pending s.devices instr
  opens : (work.filterMap Instr.opens).Nodup

theorem Sound.good {s : HybrisCameraHost Id} (h : Sound s) : Good s where
  one d d' v v' hv hv' hopen hopen' :=
    h.one d d' v v' hv hv' (by rw [hopen]; decide) (by rw [hopen']; decide)
  refused := h.admitted
  dark := h.lit
  closed a ha d hd v hv := by
    obtain ⟨w, hw, hclosed⟩ := h.finished a ha d hd
    obtain rfl : w = v := Option.mem_unique hw hv
    refine ⟨hclosed, Bool.eq_false_iff.mpr fun hdevice => ?_⟩
    exact absurd (hclosed.symm.trans (h.device d w hw hdevice)) (by decide)

variable {s s' : HybrisCameraHost Id} {work work' rest todo : List (Instr Id)} {instr : Instr Id}
  {d : Nat} {devices devices' : List (HybrisCameraDevice Id)}
  {f : HybrisCameraDevice Id → HybrisCameraDevice Id}

theorem Inv.perm (h : Inv s work) (hp : work.Perm work') : Inv s work' where
  sound := h.sound
  pending i hi := h.pending i (hp.mem_iff.mpr hi)
  opens := (hp.filterMap Instr.opens).nodup_iff.mp h.opens

theorem Inv.tail (h : Inv s (instr :: rest)) : Inv s rest where
  sound := h.sound
  pending i hi := h.pending i (.tail _ hi)
  opens := h.opens.sublist ((sublist_cons_self instr rest).filterMap Instr.opens)

theorem Inv.more (h : Inv s work) (hpending : ∀ i ∈ todo, Pending s.devices i)
    (hopens : todo.filterMap Instr.opens = []) : Inv s (todo ++ work) where
  sound := h.sound
  pending i hi := (mem_append.mp hi).elim (hpending i) (h.pending i)
  opens := by rw [filterMap_append, hopens]; exact h.opens

/-! ### Spans move forward -/

theorem Span.closed_of_rank_le {a b : Span} (h : a.rank ≤ b.rank) (ha : a = .closed) :
    b = .closed := by
  subst ha
  cases b with
  | opening | opened => exact absurd h (by decide)
  | closed => rfl

theorem Span.opening_of_rank_le {a b : Span} (h : a.rank ≤ b.rank) (hb : b = .opening) :
    a = .opening := by
  subst hb
  cases a with
  | opening => rfl
  | opened | closed => exact absurd h (by decide)

theorem Span.rank_le_close (a : Span) : a.rank ≤ a.close.rank := by
  cases a <;> decide

def Later (devices devices' : List (HybrisCameraDevice Id)) : Prop :=
  ∀ (d : Nat) v, devices[d]? = some v → ∃ v', devices'[d]? = some v' ∧ v.span.rank ≤ v'.span.rank

theorem Later.closed (h : Later devices devices')
    (hd : ∃ v, devices[d]? = some v ∧ v.span = .closed) :
    ∃ v, devices'[d]? = some v ∧ v.span = .closed := by
  obtain ⟨v, hv, hclosed⟩ := hd
  obtain ⟨v', hv', hrank⟩ := h d v hv
  exact ⟨v', hv', Span.closed_of_rank_le hrank hclosed⟩

theorem Left.later {left atStart : List Nat} (hleft : Left devices left atStart)
    (h : Later devices devices') : Left devices' left atStart := by
  intro d hd
  obtain ⟨v, hv, hopening, hmem⟩ := hleft d hd
  obtain ⟨v', hv', hrank⟩ := h d v hv
  refine ⟨v', hv', hopening ∘ Span.opening_of_rank_le hrank,
    fun hopen => hmem fun hclosed => hopen ?_⟩
  exact Span.closed_of_rank_le hrank hclosed

theorem Pending.later (hpending : Pending devices instr) (h : Later devices devices')
    (hsame : ∀ (d : Nat) v, instr.opens = some d ∨ instr.switched = some d → devices[d]? = some v →
      ∃ v', devices'[d]? = some v' ∧ v'.span = v.span) : Pending devices' instr := by
  have hspan : ∀ {d : Nat} {span : Span}, instr.opens = some d ∨ instr.switched = some d →
      (∃ v, devices[d]? = some v ∧ v.span = span) → ∃ v, devices'[d]? = some v ∧ v.span = span := by
    rintro d span hd ⟨v, hv, rfl⟩
    exact hsame d v hd hv
  cases instr with
  | openDevice cameraId d => exact hspan (.inl rfl) hpending
  | switchLens d lens | reopen d lens previous => exact hspan (.inr rfl) hpending
  | swap atStart =>
    intro d hd
    obtain ⟨v, hv, hopening⟩ := hpending d hd
    obtain ⟨v', hv', hrank⟩ := h d v hv
    exact ⟨v', hv', hopening ∘ Span.opening_of_rank_le hrank⟩
  | closeEach left atStart | closeLive c left atStart => exact Left.later hpending h
  | _ => trivial

/-! ### Changes to one device -/

structure Forward (v v' : HybrisCameraDevice Id) : Prop where
  camera : v'.camera = v.camera
  span : v.span.rank ≤ v'.span.rank
  device : v'.device = true → v'.span = .opened

theorem getElem?_update (s : HybrisCameraHost Id) (d e : Nat) :
    (s.update d f).devices[e]? = s.devices[e]?.map fun v => if d = e then f v else v :=
  getElem?_modify f d s.devices e

theorem later_update (hf : ∀ v, s.devices[d]? = some v → Forward v (f v)) :
    Later s.devices (s.update d f).devices := by
  intro e v hv
  refine ⟨if d = e then f v else v, by rw [getElem?_update, hv]; rfl, ?_⟩
  split_ifs with hde
  · subst hde
    exact (hf v hv).span
  · exact le_rfl

variable {e : Nat}

theorem of_update {v' : HybrisCameraDevice Id} (h : (s.update d f).devices[e]? = some v') :
    s.devices[e]? = some v' ∨ (d = e ∧ ∃ v, s.devices[e]? = some v ∧ f v = v') := by
  rw [getElem?_update] at h
  obtain ⟨v, hv, heq⟩ := map_eq_some_iff.mp h
  split_ifs at heq with hde
  · exact .inr ⟨hde, v, hv, heq⟩
  · exact .inl (hv.trans (congrArg some heq))

theorem Sound.update (h : Sound s) (hf : ∀ v, s.devices[d]? = some v → Forward v (f v)) :
    Sound (s.update d f) := by
  have hbefore : ∀ (e : Nat) w, (s.update d f).devices[e]? = some w → w.span ≠ .closed →
      ∃ v, s.devices[e]? = some v ∧ v.span ≠ .closed ∧ v.camera = w.camera := by
    intro e w hw hopen
    rcases of_update hw with hv | ⟨rfl, v, hv, rfl⟩
    · exact ⟨w, hv, hopen, rfl⟩
    · exact ⟨v, hv, hopen ∘ Span.closed_of_rank_le (hf v hv).span, (hf v hv).camera.symm⟩
  refine ⟨fun e e' w w' hw hw' hopen hopen' hcamera => ?_, fun e w hw hdevice => ?_, h.admitted,
    h.lit, fun a ha e he => (later_update hf).closed (h.finished a ha e he)⟩
  · obtain ⟨v, hv, hvs, hvc⟩ := hbefore e w hw hopen
    obtain ⟨v', hv', hvs', hvc'⟩ := hbefore e' w' hw' hopen'
    exact h.one e e' v v' hv hv' hvs hvs' (hvc.trans (hcamera.trans hvc'.symm))
  · rcases of_update hw with hv | ⟨rfl, v, hv, rfl⟩
    · exact h.device e w hv hdevice
    · exact (hf v hv).device hdevice

theorem Inv.update (h : Inv s work) (hf : ∀ v, s.devices[d]? = some v → Forward v (f v))
    (hd : (∀ i ∈ work, i.opens ≠ some d ∧ i.switched ≠ some d) ∨
      ∀ v, s.devices[d]? = some v → (f v).span = v.span) : Inv (s.update d f) work where
  sound := h.sound.update hf
  pending i hi := by
    refine (h.pending i hi).later (later_update hf) fun e v he hv => ?_
    refine ⟨if d = e then f v else v, by rw [getElem?_update, hv]; rfl, ?_⟩
    split_ifs with hde
    · subst hde
      refine hd.elim (fun hne => ?_) fun hsame => hsame v hv
      exact absurd he (not_or.mpr (hne i hi))
    · rfl
  opens := h.opens

theorem Inv.touch (h : Inv s work) (hcamera : ∀ v, (f v).camera = v.camera)
    (hspan : ∀ v, (f v).span = v.span) (hdevice : ∀ v, (f v).device = true → v.device = true) :
    Inv (s.update d f) work := by
  refine h.update (fun v hv => ⟨hcamera v, (congrArg Span.rank (hspan v)).ge, fun hopen => ?_⟩)
    (.inr fun v _ => hspan v)
  rw [hspan v]
  exact h.sound.device d v hv (hdevice v hopen)

theorem Inv.closeDevice (h : Inv s work) (hfits : ∀ i ∈ work, i.switched ≠ some d) :
    Inv (s.closeDevice d) work := by
  have hf : ∀ v, s.devices[d]? = some v →
      Forward v { v with device := false, span := v.span.close } :=
    fun v _ => ⟨rfl, Span.rank_le_close _, nofun⟩
  refine ⟨h.sound.update hf, fun i hi => ?_, h.opens⟩
  refine (h.pending i hi).later (later_update hf) fun e v he hv => ?_
  by_cases hde : d = e
  · subst hde
    have hopens := he.resolve_right (hfits i hi)
    cases i with
    | openDevice cameraId d' =>
      -- a device that is being opened is not the client's yet, and stays as it is
      obtain rfl : d' = d := Option.some.inj hopens
      obtain ⟨w, hw, hopening⟩ := h.pending _ hi
      obtain rfl : w = v := Option.mem_unique hw hv
      refine ⟨{ w with device := false, span := w.span.close }, ?_, ?_⟩
      · rw [HybrisCameraHost.closeDevice, getElem?_update, hv, map_some, if_pos rfl]
      · show w.span.close = w.span
        rw [hopening]
        rfl
    | _ => cases hopens
  · refine ⟨v, ?_, rfl⟩
    rw [HybrisCameraHost.closeDevice, getElem?_update, hv, map_some, if_neg hde]

/-! ### A new device -/

variable {cameraId : Id}

theorem getElem?_create_of {v : HybrisCameraDevice Id}
    (h : s.devices[e]? = some v) : (s.create cameraId).devices[e]? = some v :=
  (getElem?_append_left (List.getElem?_eq_some_iff.mp h).1).trans h

theorem of_create {v : HybrisCameraDevice Id} (h : (s.create cameraId).devices[e]? = some v) :
    s.devices[e]? = some v ∨ (e = s.devices.length ∧ v = { camera := cameraId }) := by
  have happend : (s.devices ++ [{ camera := cameraId }])[e]? = some v := h
  rcases lt_trichotomy e s.devices.length with hlt | rfl | hgt
  · exact .inl ((getElem?_append_left hlt).symm.trans happend)
  · rw [getElem?_concat_length] at happend
    exact .inr ⟨rfl, (Option.some.inj happend).symm⟩
  · have hlength := (List.getElem?_eq_some_iff.mp happend).1
    rw [length_append, length_singleton] at hlength
    omega

theorem Inv.create (h : Inv s work)
    (hnone : ∀ (d : Nat) v, s.devices[d]? = some v → v.camera = cameraId → v.span = .closed) :
    Inv (s.create cameraId) (.openDevice cameraId s.devices.length :: work) where
  sound := by
    refine ⟨fun e e' w w' hw hw' hopen hopen' hcamera => ?_, fun e w hw hdevice => ?_,
      h.sound.admitted, h.sound.lit, fun a ha e he => ?_⟩
    · rcases of_create hw with hv | ⟨rfl, rfl⟩ <;> rcases of_create hw' with hv' | ⟨rfl, rfl⟩
      · exact h.sound.one e e' w w' hv hv' hopen hopen' hcamera
      · exact absurd (hnone e w hv hcamera) hopen
      · exact absurd (hnone e' w' hv' hcamera.symm) hopen'
      · rfl
    · rcases of_create hw with hv | ⟨-, rfl⟩
      · exact h.sound.device e w hv hdevice
      · cases hdevice
    · obtain ⟨v, hv, hclosed⟩ := h.sound.finished a ha e he
      exact ⟨v, getElem?_create_of hv, hclosed⟩
  pending i hi := by
    rcases mem_cons.mp hi with rfl | hi
    · exact ⟨_, getElem?_concat_length, rfl⟩
    · refine (h.pending i hi).later (fun e v hv => ⟨v, getElem?_create_of hv, le_rfl⟩) fun e v _ hv => ?_
      exact ⟨v, getElem?_create_of hv, rfl⟩
  opens := by
    refine nodup_cons.mpr ⟨fun hmem => ?_, h.opens⟩
    obtain ⟨i, hi, hopens⟩ := mem_filterMap.mp hmem
    cases i with
    | openDevice cameraId' d =>
      obtain rfl : d = s.devices.length := Option.some.inj hopens
      obtain ⟨v, hv, -⟩ := h.pending _ hi
      exact absurd (List.getElem?_eq_some_iff.mp hv).1 (lt_irrefl _)
    | _ => cases hopens

theorem opened_of_mem_openNow (h : Sound s) {d : Nat} (hd : d ∈ s.openNow) :
    ∃ v, s.devices[d]? = some v ∧ v.span ≠ .opening := by
  obtain ⟨-, hany⟩ := mem_filter.mp hd
  obtain ⟨v, hv, hopen⟩ := (Option.any_eq_true _ _).mp hany
  refine ⟨v, hv, fun hopening => ?_⟩
  rcases Bool.or_eq_true_iff.mp hopen with hspan | hdevice
  · exact absurd (hopening.symm.trans (of_decide_eq_true hspan)) (by decide)
  · exact absurd (hopening.symm.trans (h.device d v hv hdevice)) (by decide)

theorem inv_start {call : Call Id} (h : Inv s work) (hstart : start s call = some (s', todo)) :
    Inv s' (todo ++ work) := by
  cases call with
  | openCamera cameraId =>
    cases hstart
    have hmore : Inv s ([.check cameraId] ++ work) := h.more (forall_mem_singleton.mpr trivial) rfl
    exact { hmore with sound := { hmore.sound with } }
  | close d =>
    rw [start] at hstart
    split_ifs at hstart
    cases hstart
    exact h.more (forall_mem_singleton.mpr trivial) rfl
  | drop d =>
    rw [start] at hstart
    split_ifs at hstart
    cases hstart
    have htouch : Inv (s.update d fun v => { v with returned := false }) work :=
      h.touch (fun _ => rfl) (fun _ => rfl) fun _ h => h
    exact htouch.more (forall_mem_singleton.mpr trivial) rfl
  | switchLens d lens =>
    rw [start] at hstart
    split_ifs at hstart with hheld
    cases hstart
    obtain ⟨v, hv, hopened⟩ := (Option.any_eq_true _ _).mp (Bool.and_eq_true_iff.mp hheld).2
    exact h.more (forall_mem_singleton.mpr ⟨v, hv, of_decide_eq_true hopened⟩) rfl
  | setFlashlight cameraId isEnable =>
    cases hstart
    exact h.more (forall_mem_singleton.mpr trivial) rfl
  | closeAllCameras =>
    cases hstart
    refine h.more (forall_mem_singleton.mpr fun d hd => ?_) rfl
    split_ifs at hd
    · exact opened_of_mem_openNow h.sound hd
    · exact absurd hd not_mem_nil

end Invariant

section Steps
variable {Id : Type} [DecidableEq Id] {findCamera : Id → Option CameraInfo}
  {s s' : HybrisCameraHost Id}
  {work rest todo : List (Instr Id)} {instr : Instr Id} {env : Env} {cameraId : Id}

theorem closed_of_not_busy (hfits : Fits findCamera s rest env (.check cameraId))
    (hbusy : ¬ s.busy cameraId = true) (d : Nat) (v : HybrisCameraDevice Id)
    (hv : s.devices[d]? = some v) (hcamera : v.camera = cameraId) : v.span = .closed := by
  by_contra hopen
  obtain ⟨hlookup, hlive⟩ := hfits d v hv hcamera hopen
  refine hbusy ?_
  rw [HybrisCameraHost.busy, hlookup]
  exact hlive

theorem Inv.letIn (h : Inv s work) (info : CameraInfo) (written : Bool)
    (hnone : ∀ (d : Nat) v, s.devices[d]? = some v → v.camera = cameraId → v.span = .closed) :
    Inv (s.letIn cameraId info written) work := by
  refine { h with sound := { h.sound with admitted := ?_ } }
  have hopened : s.hasOpened cameraId = false := by
    refine List.any_eq_false.mpr fun v hmem hopen => ?_
    obtain ⟨d, hv⟩ := mem_iff_getElem?.mp hmem
    obtain ⟨hcamera, hspan⟩ := Bool.and_eq_true_iff.mp hopen
    have hclosed := hnone d v hv (of_decide_eq_true hcamera)
    exact absurd (hclosed.symm.trans (of_decide_eq_true hspan)) (by decide)
  rw [HybrisCameraHost.letIn, h.sound.admitted, hopened]
  rfl

/-- What `instr` makes of the host, with what it leaves to do before `rest`, is sound again. -/
def Keeps (findCamera : Id → Option CameraInfo) (s : HybrisCameraHost Id) (rest : List (Instr Id))
    (env : Env) (instr : Instr Id) : Prop :=
  Inv (perform findCamera s env instr).1 ((perform findCamera s env instr).2 ++ rest)

theorem inv_check (h : Inv s (.check cameraId :: rest))
    (hfits : Fits findCamera s rest env (.check cameraId)) :
    Keeps findCamera s rest env (.check cameraId) := by
  have hrest := h.tail
  rw [Keeps, perform]
  split
  · exact { hrest with sound := { hrest.sound with } }
  · rename_i info _
    split_ifs with hbusy
    · exact { hrest with sound := { hrest.sound with } }
    · have hnone := closed_of_not_busy hfits hbusy
      exact (hrest.letIn info env.written hnone).create hnone
    · have hletIn := hrest.letIn info env.written (closed_of_not_busy hfits hbusy)
      exact { hletIn with sound := { hletIn.sound with } }

variable {d : Nat}

theorem inv_openDevice (h : Inv s (.openDevice cameraId d :: rest)) :
    Keeps findCamera s rest env (.openDevice cameraId d) := by
  have hrest := h.tail
  obtain ⟨v, hv, hopening⟩ := h.pending _ (.head _)
  have halone : ∀ i ∈ rest, i.opens ≠ some d ∧ i.switched ≠ some d := by
    intro i hi
    refine ⟨fun hopens => ?_, fun hswitched => ?_⟩
    · have hnot := (nodup_cons.mp h.opens).1
      exact hnot (mem_filterMap.mpr ⟨i, hi, hopens⟩)
    · have hpending := hrest.pending i hi
      cases i with
      | switchLens d' lens | reopen d' lens previous =>
        obtain rfl : d' = d := Option.some.inj hswitched
        obtain ⟨w, hw, hopened⟩ := hpending
        obtain rfl : w = v := Option.mem_unique hw hv
        exact absurd (hopened.symm.trans hopening) (by decide)
      | _ => cases hswitched
  have hrank : ∀ w, s.devices[d]? = some w → w.span = .opening := by
    intro w hw
    rwa [Option.mem_unique hw hv]
  rw [Keeps, perform]
  split_ifs
  · have hopened : Inv (s.update d fun w => { w with device := true, lens := 0, span := .opened }) rest :=
      hrest.update (fun w hw => ⟨rfl, (congrArg Span.rank (hrank w hw)).trans_le (Nat.zero_le _), fun _ => rfl⟩)
        (.inl halone)
    exact hopened.more (forall_mem_singleton.mpr trivial) rfl
  · have hfailed : Inv (s.update d fun w => { w with span := .closed, refs := 0 }) rest := by
      refine hrest.update (fun w hw => ⟨rfl, ?_, fun hdevice => ?_⟩) (.inl halone)
      · exact (congrArg Span.rank (hrank w hw)).trans_le (Nat.zero_le _)
      · exact absurd ((hrank w hw).symm.trans (h.sound.device d w hw hdevice)) (by decide)
    exact { hfailed with sound := { hfailed.sound with } }

theorem inv_switchLens {lens : Nat} (h : Inv s (.switchLens d lens :: rest)) :
    Keeps findCamera s rest env (.switchLens d lens) := by
  obtain ⟨v, hv, hopened⟩ := h.pending _ (.head _)
  rw [Keeps, perform, hv]
  dsimp only
  split_ifs
  · exact h.tail
  · have hcleared : Inv (s.update d fun v => { v with device := false }) rest :=
      h.tail.touch (fun _ => rfl) (fun _ => rfl) nofun
    refine hcleared.more (forall_mem_singleton.mpr ⟨{ v with device := false }, ?_, hopened⟩) rfl
    rw [getElem?_update, hv, map_some, if_pos rfl]

theorem inv_reopen {lens previous : Nat} (h : Inv s (.reopen d lens previous :: rest)) :
    Keeps findCamera s rest env (.reopen d lens previous) := by
  obtain ⟨v, hv, hopened⟩ := h.pending _ (.head _)
  refine h.tail.update (fun w hw => ⟨rfl, le_rfl, fun _ => ?_⟩) (.inr fun _ _ => rfl)
  obtain rfl : w = v := Option.mem_unique hw hv
  exact hopened

theorem inv_setFlashlight {isEnable : Bool} (h : Inv s (.setFlashlight cameraId isEnable :: rest))
    (hfits : Fits findCamera s rest env (.setFlashlight cameraId isEnable)) :
    Keeps findCamera s rest env (.setFlashlight cameraId isEnable) := by
  have hrest := h.tail
  rw [Keeps, perform]
  split
  · rename_i hwrite
    refine { hrest with sound := { hrest.sound with lit := ?_ } }
    obtain ⟨⟨hflash, hbusy⟩, -⟩ : (_ ∧ _) ∧ _ := by simpa only [Bool.and_eq_true] using hwrite
    cases isEnable with
    | false => simpa using h.sound.lit
    | true =>
      have hdark : s.flashOpened findCamera = false := by
        refine Bool.eq_false_iff.mpr fun hopen => ?_
        rw [hfits hflash hopen] at hbusy
        cases hbusy
      rw [h.sound.lit, hdark]
      rfl
  · exact hrest

variable {atStart : List Nat}

theorem inv_swap (h : Inv s (.swap atStart :: rest))
    (hfits : Fits findCamera s rest env (.swap atStart)) :
    Keeps findCamera s rest env (.swap atStart) := by
  have hrest := h.tail
  have hleft : Left s.devices (s.openDevices.entries.map Sigma.snd) atStart := by
    intro d hd
    obtain ⟨v, hv, hopening⟩ := h.pending _ (.head _) d hd
    refine ⟨v, hv, hopening, fun hopen => ?_⟩
    have hentry := AList.mem_lookup_iff.mp (hfits d hd v hv hopen)
    exact List.mem_map.mpr ⟨_, hentry, rfl⟩
  refine ⟨{ hrest.sound with }, ?_, hrest.opens⟩
  exact forall_mem_cons.mpr ⟨hleft, hrest.pending⟩

theorem inv_closeEach {left : List Nat} (h : Inv s (.closeEach left atStart :: rest))
    (hfits : Fits findCamera s rest env (.closeEach left atStart)) :
    Keeps findCamera s rest env (.closeEach left atStart) := by
  have hrest := h.tail
  have hleft : Left s.devices left atStart := h.pending _ (.head _)
  cases left with
  | nil =>
    refine { hrest with sound := { hrest.sound with finished := ?_ } }
    refine forall_mem_cons.mpr ⟨fun d hd => ?_, hrest.sound.finished⟩
    obtain ⟨v, hv, -, hmem⟩ := hleft d hd
    exact ⟨v, hv, by_contra fun hopen => not_mem_nil (hmem hopen)⟩
  | cons c left =>
    rw [Keeps, perform]
    split_ifs with halive
    · have htouch : Inv (s.update c fun v => { v with refs := v.refs + 1 }) rest :=
        hrest.touch (fun _ => rfl) (fun _ => rfl) fun _ h => h
      refine htouch.more (forall_mem_singleton.mpr ?_) rfl
      exact Left.later hleft (later_update fun v hv => ⟨rfl, le_rfl, h.sound.device c v hv⟩)
    · refine hrest.more (forall_mem_singleton.mpr fun d hd => ?_) rfl
      obtain ⟨v, hv, hopening, hmem⟩ := hleft d hd
      refine ⟨v, hv, hopening, fun hopen => (mem_cons.mp (hmem hopen)).resolve_left ?_⟩
      rintro rfl
      have hrefs := hfits hd v hv hopen
      rw [hv] at halive
      exact halive (decide_eq_true hrefs)

theorem inv_closeLive {c : Nat} {left : List Nat} (h : Inv s (.closeLive c left atStart :: rest))
    (hfits : Fits findCamera s rest env (.closeLive c left atStart)) :
    Keeps findCamera s rest env (.closeLive c left atStart) := by
  have hclosed := h.tail.closeDevice hfits
  have hleft : Left s.devices (c :: left) atStart := h.pending _ (.head _)
  refine hclosed.more (forall_mem_cons.mpr ⟨trivial, forall_mem_singleton.mpr fun d hd => ?_⟩) rfl
  obtain ⟨v, hv, hopening, hmem⟩ := hleft d hd
  by_cases hcd : c = d
  · subst hcd
    have hspan : v.span.close = .closed := by
      cases hs : v.span with
      | opening => exact absurd hs hopening
      | opened | closed => rfl
    refine ⟨{ v with device := false, span := v.span.close }, ?_, ?_,
      fun hopen => absurd hspan hopen⟩
    · rw [HybrisCameraHost.closeDevice, getElem?_update, hv, map_some, if_pos rfl]
    · show v.span.close ≠ .opening
      rw [hspan]
      decide
  · refine ⟨v, ?_, hopening, fun hopen => (mem_cons.mp (hmem hopen)).resolve_left (Ne.symm hcd)⟩
    rw [HybrisCameraHost.closeDevice, getElem?_update, hv, map_some, if_neg hcd]

theorem inv_perform (h : Inv s (instr :: rest)) (hfits : Fits findCamera s rest env instr) :
    Keeps findCamera s rest env instr := by
  cases instr with
  | check cameraId => exact inv_check h hfits
  | openDevice cameraId d => exact inv_openDevice h
  | register cameraId d =>
    have htouch : Inv (s.update d fun v => { v with returned := true }) rest :=
      h.tail.touch (fun _ => rfl) (fun _ => rfl) fun _ h => h
    exact { htouch with sound := { htouch.sound with } }
  | close d => exact h.tail.closeDevice hfits
  | release d =>
    have htouch : Inv (s.update d fun v => { v with refs := v.refs - 1 }) rest :=
      h.tail.touch (fun _ => rfl) (fun _ => rfl) fun _ h => h
    rw [Keeps, perform]
    split_ifs
    · exact htouch.more (forall_mem_singleton.mpr trivial) rfl
    · exact htouch
  | switchLens d lens => exact inv_switchLens h
  | reopen d lens previous => exact inv_reopen h
  | setFlashlight cameraId isEnable => exact inv_setFlashlight h hfits
  | swap atStart => exact inv_swap h hfits
  | closeEach left atStart => exact inv_closeEach h hfits
  | closeLive c left atStart => exact inv_closeLive h hfits

end Steps

/-- **One client per camera, and the torch yields to it**, in every run whose steps all fit. -/
theorem one_client {Id : Type} [DecidableEq Id] {findCamera : Id → Option CameraInfo}
    {actions : List (PoolAction (Call Id) Env)} {p : Pool (HybrisCameraHost Id) (Instr Id)}
    (hok : Along (machine findCamera).step (FitsStep findCamera) ⟨{}, []⟩ actions)
    (hrun : run (machine findCamera).step ⟨{}, []⟩ actions = some p) : Good p.shared := by
  have hinv : Inv p.shared p.work := by
    refine Machine.run_invariant (I := Inv) Inv.perm ?_ ?_ hok hrun ?_
    · intro s work call s' program h _ hstart
      exact inv_start h hstart
    · intro s rest env instr s' todo h hfits hexec
      have hpair : perform findCamera s env instr = (s', todo) := Option.some.inj hexec
      have hperform := inv_perform h hfits
      rwa [Keeps, hpair] at hperform
    · exact ⟨⟨nofun, nofun, rfl, rfl, nofun⟩, nofun, nodup_nil⟩
  exact hinv.sound.good

def flashCameras (cameraId : Nat) : Option CameraInfo :=
  if cameraId < 2 then some ⟨true, 2⟩ else none

def session : List (PoolAction (Call Nat) Env) :=
  [.start (.openCamera 0), .run 0 {}, .run 0 {}, .run 0 {}, .start (.openCamera 0), .run 1 {},
   .start (.setFlashlight 0 true), .run 2 {}, .start (.switchLens 0 1), .run 3 {}, .run 3 {},
   .start .closeAllCameras, .run 4 {}, .run 4 {}, .run 4 {}, .run 4 {}, .run 4 {}]

theorem one_client_session :
    ∃ p, run (machine flashCameras).step ⟨{}, []⟩ session = some p ∧ Good p.shared ∧
      p.shared.finished = [[0]] := by
  obtain ⟨p, hrun, hfinished⟩ : ∃ p, run (machine flashCameras).step ⟨{}, []⟩ session = some p ∧
      p.shared.finished = [[0]] := ⟨_, rfl, rfl⟩
  refine ⟨p, hrun, one_client ?_ hrun, hfinished⟩
  have hdevice : ∀ {v w : HybrisCameraDevice Nat} {d : Nat}, [v][d]? = some w → d = 0 := by
    intro v w d h
    cases d with
    | zero => rfl
    | succ d => cases h
  -- each alternative is one kind of step; the last ones are the check with a device there and the swap
  repeat first
    | exact trivial
    | refine along_cons trivial rfl ?_
    | refine along_cons (Machine.allowed_run rfl trivial) rfl ?_
    | refine along_cons (Machine.allowed_run rfl fun _ _ => rfl) rfl ?_
    | refine along_cons (Machine.allowed_run rfl fun _ hmem => absurd hmem not_mem_nil) rfl ?_
    | refine along_cons (Machine.allowed_run rfl fun _ v hv _ => by cases hv; decide) rfl ?_
    | refine along_cons (Machine.allowed_run rfl fun d v hv _ _ => by
      cases hdevice hv; exact ⟨rfl, rfl⟩) rfl ?_
    | refine along_cons (Machine.allowed_run rfl fun d hd v hv _ => by
      cases mem_singleton.mp hd; cases hv; rfl) rfl ?_
    | refine along_cons (Machine.allowed_run rfl fun _ _ hv => by cases hv) rfl ?_

def overlapping : List (PoolAction (Call Nat) Env) :=
  [.start (.openCamera 0), .start (.openCamera 0), .run 0 {}, .run 1 {}, .run 0 {}, .run 1 {},
   .run 0 {}, .run 1 {}, .start .closeAllCameras, .run 2 {}, .run 2 {}, .run 2 {}, .run 2 {},
   .run 2 {}]

def betweenLenses : List (PoolAction (Call Nat) Env) :=
  [.start (.openCamera 0), .run 0 {}, .run 0 {}, .run 0 {}, .start (.switchLens 0 1), .run 1 {},
   .start (.openCamera 0), .run 2 {}, .run 1 {}, .run 2 {}, .run 2 {}]

def otherFlash : List (PoolAction (Call Nat) Env) :=
  [.start (.openCamera 0), .run 0 {}, .run 0 {}, .run 0 {}, .start (.setFlashlight 1 true),
   .run 1 {}]

def closedBetweenLenses : List (PoolAction (Call Nat) Env) :=
  [.start (.openCamera 0), .run 0 {}, .run 0 {}, .run 0 {}, .start (.switchLens 0 1), .run 1 {},
   .start .closeAllCameras, .run 2 {}, .run 2 {}, .run 2 {}, .run 2 {}, .run 2 {}, .run 1 {}]

theorem two_clients :
    (∃ p, run (machine flashCameras).step ⟨{}, []⟩ overlapping = some p ∧ p.work = [] ∧
       ¬ Good p.shared ∧ p.shared.finished = [[0, 1]] ∧ p.shared.openNow = [0]) ∧
    (∃ p, run (machine flashCameras).step ⟨{}, []⟩ betweenLenses = some p ∧ p.work = [] ∧
       ¬ Good p.shared ∧ p.shared.openNow = [0, 1]) ∧
    (∃ p, run (machine flashCameras).step ⟨{}, []⟩ otherFlash = some p ∧ p.work = [] ∧
       ¬ Good p.shared ∧ p.shared.torchOn = true) ∧
    (∃ p, run (machine flashCameras).step ⟨{}, []⟩ closedBetweenLenses = some p ∧ p.work = [] ∧
       ¬ Good p.shared ∧ p.shared.finished = [[0]] ∧ p.shared.openNow = [0]) := by
  refine ⟨⟨_, rfl, rfl, fun h => ?_, rfl, rfl⟩, ⟨_, rfl, rfl, fun h => ?_, rfl⟩,
    ⟨_, rfl, rfl, fun h => ?_, rfl⟩, ⟨_, rfl, rfl, fun h => ?_, rfl, rfl⟩⟩
  · exact absurd (h.closed _ (.head _) 0 (.head _) _ rfl).1 (by decide)
  · exact absurd (h.one 0 1 _ _ rfl rfl rfl rfl rfl) (by decide)
  · exact absurd h.dark (by decide)
  · exact absurd (h.closed _ (.head _) 0 (.head _) _ rfl).2 (by decide)

end OniroSoc.Camera.Host

import OniroSoc.Compositor.Told

/-!
# Enter and leave

`SendSurfaceOnOutput` sends enter or leave for the surface a toplevel presents on, to every
`wl_output` of its client, and remembers in `ToplevelRec.entered` what it sent last.  The flag
belongs to the toplevel, the events to a surface and an output.
-/

namespace OniroSoc.Compositor
open Support List Option

namespace Display

/-! ### What was sent -/

/-- The enters (`true`) and leaves sent for a surface on an output, the newest first. -/
def history (sent : List DisplayEvent) (surface output : Nat) : List Bool :=
  sent.filterMap fun
    | .onOutput x o shown => if x = surface ∧ o = output then some shown else none
    | .configure .. => none

def Alternates : List Bool → Prop
  | [] => True
  | b :: bs => b = !bs.headD false ∧ Alternates bs

def lastShown (sent : List DisplayEvent) (surface : Nat) : Option Bool :=
  sent.findSome? fun
    | .onOutput x _ shown => if x = surface then some shown else none
    | .configure .. => none

/-- **Enter and leave as they should be.** -/
structure Presented (s : Display) : Prop where
  alternates : ∀ x o, Alternates (history s.sent x o)
  entered : ∀ t ∈ s.toplevels, ∀ x,
    t.surface = some x → (t.entered = true ↔ lastShown s.sent x = some true)

def showing (edge : Bool) (active : Text) (t : ToplevelRec) : Bool :=
  changes edge active t && want active t.toToplevel || pulses edge active t

structure Unshown (s : Display) (x : Nat) : Prop where
  last : lastShown s.sent x ≠ some true
  now : ∀ o ∈ s.outputsOf x, (history s.sent x o.id).headD false = false

/-- The flags and the events stay together.

* A surface is given to a toplevel only if no toplevel presents on it and it was not left shown, and
  only while the toplevel itself is not shown on another.
* An output is bound only while nothing of its client is shown, and the last one is not released
  then.
* A toplevel is shown only when its client has an output. -/
def Tidy (s : Display) : Action → Prop
  | .request (.getToplevel surface) => ∀ x, surface = some x →
      (∀ t ∈ s.toplevels, t.surface ≠ some x) ∧ s.Unshown x
  | .request (.commit surface) => ∀ x, s.surface surface = some x → ∀ t ∈ s.toplevels,
      t.id = x.toplevelId → t.surface ≠ some surface →
        t.entered = false ∧ (∀ t' ∈ s.toplevels, t'.surface ≠ some surface) ∧ s.Unshown surface
  | .request (.bindOutput client) => ∀ t ∈ s.toplevels, t.entered = true →
      ∀ x, t.surface = some x → (s.surface x).map Surface.client ≠ some client
  | .request (.releaseOutput id) => ∀ t ∈ s.toplevels, t.entered = true →
      ∀ x, t.surface = some x → ∃ o ∈ s.outputsOf x, o.id ≠ id
  | .proceed =>
    ∀ edge active size, s.wayland = some (.activate edge active size) → ∀ t ∈ s.toplevels, showing
      edge active t = true → t.entered = false → ∀ x, t.surface = some x → s.outputsOf x ≠ []
  | _ => True

/-! ### Where the toplevels are -/

structure Place where
  id : Nat
  surface : Option Nat
  entered : Bool

def place (t : ToplevelRec) : Place := ⟨t.id, t.surface, t.entered⟩

def places (s : Display) : List Place := s.toplevels.map place

def clientOf (s : Display) (surface : Nat) : Option Nat := (s.surface surface).map Surface.client

structure ShownAs (s : Display) (x : Nat) (shown : Bool) : Prop where
  last : shown = true ↔ lastShown s.sent x = some true
  now : ∀ o ∈ s.outputsOf x, (history s.sent x o.id).headD false = shown
  outputs : shown = true → s.outputsOf x ≠ []

structure Presence (s : Display) : Prop where
  outputs : (s.outputResources.map Resource.id).Nodup
  oldOutputs : ∀ o ∈ s.outputResources, o.id < s.nextObject
  oldSurfaces : ∀ x, (s.clientOf x).isSome → x < s.nextObject
  oldEvents : ∀ x o b, .onOutput x o b ∈ s.sent → x < s.nextObject ∧ o < s.nextObject
  alternates : ∀ x o, Alternates (history s.sent x o)
  alive : ∀ p ∈ s.places, ∀ x, p.surface = some x → (s.clientOf x).isSome
  alone : ∀ p ∈ s.places, ∀ p' ∈ s.places, ∀ x, p.surface = some x → p'.surface = some x → p = p'
  shownAs : ∀ p ∈ s.places, ∀ x, p.surface = some x → s.ShownAs x p.entered

section
variable {s s' : Display} {a : Action}

theorem Presence.presented (h : s.Presence) : s.Presented :=
  ⟨h.alternates, fun t ht x hx => (h.shownAs (place t) (List.mem_map_of_mem ht) x hx).last⟩

variable {x : Nat} {b : Bool} {sent : List DisplayEvent} {id : Nat}

theorem Unshown.shownAs (h : s.Unshown x) : s.ShownAs x false :=
  ⟨⟨fun hb => absurd hb Bool.false_ne_true, fun hl => absurd hl h.last⟩, h.now,
    fun hb => absurd hb Bool.false_ne_true⟩

theorem outputsOf_eq (ho : s'.outputResources = s.outputResources)
    (hc : s'.clientOf x = s.clientOf x) : s'.outputsOf x = s.outputsOf x := by
  unfold Display.clientOf at hc
  unfold outputsOf
  rw [ho, hc]

theorem ShownAs.of_eq (h : s.ShownAs x b) (hl : lastShown s'.sent x = lastShown s.sent x)
    (hh : ∀ o, history s'.sent x o = history s.sent x o) (ho : s'.outputsOf x = s.outputsOf x) :
    s'.ShownAs x b := by
  obtain ⟨h₁, h₂, h₃⟩ := h
  exact ⟨hl ▸ h₁, fun o hm => (hh o.id).symm ▸ h₂ o (ho ▸ hm), ho ▸ h₃⟩

theorem Presence.of_eq (h : s.Presence) (hp : s'.places = s.places)
    (hc : ∀ x, s'.clientOf x = s.clientOf x) (ho : s'.outputResources = s.outputResources)
    (hn : s'.nextObject = s.nextObject)
    (he : ∀ x o b, .onOutput x o b ∈ s'.sent → .onOutput x o b ∈ s.sent)
    (hh : ∀ x o, history s'.sent x o = history s.sent x o)
    (hl : ∀ x, lastShown s'.sent x = lastShown s.sent x) : s'.Presence where
  outputs := ho ▸ h.outputs
  oldOutputs := by rw [ho, hn]; exact h.oldOutputs
  oldSurfaces x hx := by rw [hn]; exact h.oldSurfaces x (hc x ▸ hx)
  oldEvents x o b hm := by rw [hn]; exact h.oldEvents x o b (he x o b hm)
  alternates x o := by rw [hh]; exact h.alternates x o
  alive p hm x hx := by rw [hc]; exact h.alive p (hp ▸ hm) x hx
  alone := hp ▸ h.alone
  shownAs p hm x hx :=
    (h.shownAs p (hp ▸ hm) x hx).of_eq (hl x) (hh x) (outputsOf_eq ho (hc x))

/-! ### Configure changes nothing here -/

theorem append_configure {β : Type*} {f : List DisplayEvent → β} {l : List ToplevelRec}
    {size : Size} (hf : ∀ id sent, f (.configure id size b :: sent) = f sent) :
    f ((l.map fun t => .configure t.id size b).reverse ++ sent) = f sent := by
  rw [← map_reverse]
  induction l.reverse with
  | nil => rfl
  | cons t l ih => exact (hf _ _).trans ih

theorem Presence.configureToplevel (h : s.Presence) (id : Nat) (size : Size) (b : Bool) :
    (s.configureToplevel id size b).Presence := by
  refine h.of_eq ?_ (fun _ => rfl) rfl rfl (fun x o b' hm => ?_)
    (fun x o => append_configure (f := (history · x o)) fun _ _ => rfl)
    fun x => append_configure (f := (lastShown · x)) fun _ _ => rfl
  · exact map_kept fun _ => rfl
  · rcases mem_append.mp hm with hm | hm
    · obtain ⟨t, -, ht⟩ := List.mem_map.mp (mem_reverse.mp hm)
      cases ht
    · exact hm

/-! ### One toplevel is shown or hidden -/

theorem history_cons_onOutput (x o : Nat) (b : Bool) (sent : List DisplayEvent) (x' o' : Nat) :
    history (.onOutput x o b :: sent) x' o' =
      if x = x' ∧ o = o' then b :: history sent x' o' else history sent x' o' := by
  simp only [history, filterMap_cons]
  split_ifs <;> rfl

theorem history_append_onOutput {l : List Resource} (hl : (l.map Resource.id).Nodup) (x' o : Nat) :
    history ((l.map fun r => .onOutput x r.id b) ++ sent) x' o =
      if x = x' ∧ o ∈ l.map Resource.id then b :: history sent x' o else history sent x' o := by
  induction l with
  | nil => simp
  | cons r l ih =>
    obtain ⟨hr, hl⟩ := nodup_cons.mp hl
    rw [map_cons, cons_append, history_cons_onOutput, ih hl]
    by_cases hx : x = x'
    · by_cases ho : r.id = o
      · subst ho
        rw [if_pos ⟨hx, rfl⟩, if_neg (fun hc => hr hc.2), if_pos ⟨hx, .head _⟩]
      · simp only [hx, ho, and_false, if_false, map_cons, mem_cons, Ne.symm ho, false_or]
    · simp only [hx, false_and, if_false]

theorem lastShown_append_onOutput {l : List Resource} (x' : Nat) :
    lastShown ((l.map fun r => .onOutput x r.id b) ++ sent) x' =
      if x = x' ∧ l ≠ [] then some b else lastShown sent x' := by
  induction l with
  | nil => simp
  | cons r l ih =>
    simp only [lastShown] at ih
    by_cases hx : x = x'
    · simp [lastShown, hx]
    · simp [lastShown, hx, ih]

inductive Sends (s : Display) (id : Nat) (shown : Bool) : Display → Prop
  | nothing : Sends s id shown s
  | sends {t : ToplevelRec} {x : Nat} (ht : t ∈ s.toplevels) (hid : t.id = id)
      (hx : t.surface = some x) (he : t.entered = !shown) :
      Sends s id shown
        { s.modifyToplevel id fun t => { t with entered := shown } with
          sent := ((s.outputsOf x).map fun o => .onOutput x o.id shown).reverse ++ s.sent }

theorem sendSurfaceOnOutput_sends (s : Display) (id : Nat) (shown : Bool) :
    Sends s id shown (s.sendSurfaceOnOutput id shown) := by
  unfold sendSurfaceOnOutput
  split
  case h_1 => exact .nothing
  case h_2 t ht =>
    split
    case h_1 => exact .nothing
    case h_2 x hx =>
      split_ifs with he
      · exact .nothing
      · refine .sends (mem_of_find?_eq_some ht) (by simpa using find?_some ht) hx ?_
        cases shown <;> cases hb : t.entered <;> simp_all

theorem places_map {f : ToplevelRec → ToplevelRec} {g : Place → Place}
    (h : ∀ t, place (f t) = g (place t)) (ts : List ToplevelRec) :
    (ts.map f).map place = (ts.map place).map g := by
  rw [List.map_map, List.map_map]
  exact map_congr_left fun t _ => h t

theorem modifyEntered_places (s : Display) (id : Nat) (b : Bool) :
    (s.modifyToplevel id fun t => { t with entered := b }).places =
      s.places.map fun p => if p.id = id then { p with entered := b } else p := by
  refine places_map (fun t => ?_) s.toplevels
  by_cases he : t.id = id <;> simp [place, he]

theorem mem_modifyEntered {ps : List Place} {p' : Place}
    (h : p' ∈ ps.map fun p => if p.id = id then { p with entered := b } else p) :
    ∃ p ∈ ps, p' = { p with entered := if p.id = id then b else p.entered } := by
  obtain ⟨p, hp, rfl⟩ := List.mem_map.mp h
  refine ⟨p, hp, ?_⟩
  split_ifs <;> rfl

theorem Keyed.place_eq (hk : s.Keyed) {p p' : Place} (hp : p ∈ s.places) (hp' : p' ∈ s.places)
    (he : p.id = p'.id) : p = p' := by
  obtain ⟨t, ht, rfl⟩ := List.mem_map.mp hp
  obtain ⟨t', ht', rfl⟩ := List.mem_map.mp hp'
  rw [hk.eq_of_id ht ht' he]

def HasOutput (s : Display) (id : Nat) : Prop :=
  ∀ t ∈ s.toplevels, t.id = id → ∀ x, t.surface = some x → s.outputsOf x ≠ []

theorem Presence.history_outputs (h : s.Presence) (x : Nat) (shown : Bool) (x' o : Nat) :
    history (((s.outputsOf x).map fun o => .onOutput x o.id shown).reverse ++ s.sent) x' o =
      if x = x' ∧ o ∈ (s.outputsOf x).map Resource.id then shown :: history s.sent x' o
      else history s.sent x' o := by
  have hsub : Sublist ((s.outputsOf x).map Resource.id) (s.outputResources.map Resource.id) :=
    filter_sublist.map _
  rw [← map_reverse, history_append_onOutput]
  · simp
  · rw [map_reverse]
    exact nodup_reverse.mpr (h.outputs.sublist hsub)

theorem lastShown_outputs (hne : s.outputsOf x ≠ []) (shown : Bool) (x' : Nat) :
    lastShown (((s.outputsOf x).map fun o => .onOutput x o.id shown).reverse ++ s.sent) x' =
      if x = x' then some shown else lastShown s.sent x' := by
  rw [← map_reverse, lastShown_append_onOutput]
  simp [hne]

theorem Presence.sends {shown : Bool} (h : s.Presence) (hk : s.Keyed)
    (hs : Sends s id shown s') (hout : shown = true → s.HasOutput id) : s'.Presence := by
  cases hs with
  | nothing => exact h
  | @sends t x ht hid hx he =>
    subst hid
    have hp : place t ∈ s.places := List.mem_map_of_mem ht
    have hwas : s.ShownAs x (!shown) := he ▸ h.shownAs (place t) hp x hx
    -- There is an output: to be shown on, or the one it is shown on.
    have hne : s.outputsOf x ≠ [] := by
      cases hb : shown with
      | true => exact hout hb t ht rfl x hx
      | false => exact hwas.outputs (by simp [hb])
    have hhist := h.history_outputs x shown
    have hlast := lastShown_outputs hne shown
    have hplaces := modifyEntered_places s t.id shown
    refine ⟨h.outputs, h.oldOutputs, h.oldSurfaces, ?oldEvents, ?alternates, ?alive, ?alone,
      ?shownAs⟩
    case oldEvents =>
      intro x' o b hm
      rcases mem_append.mp hm with hm | hm
      · obtain ⟨r, hr, hre⟩ := List.mem_map.mp (mem_reverse.mp hm)
        cases hre
        exact ⟨h.oldSurfaces x (h.alive (place t) hp x hx), h.oldOutputs r (mem_of_mem_filter hr)⟩
      · exact h.oldEvents x' o b hm
    case alternates =>
      intro x' o
      rw [hhist]
      split_ifs with hc
      · obtain ⟨rfl, ho⟩ := hc
        obtain ⟨r, hr, rfl⟩ := List.mem_map.mp ho
        exact ⟨by rw [hwas.now r hr, Bool.not_not], h.alternates x r.id⟩
      · exact h.alternates x' o
    case alive =>
      intro p' hp' x' hx'
      obtain ⟨p, hpm, rfl⟩ := mem_modifyEntered (hplaces ▸ hp')
      exact h.alive p hpm x' hx'
    case alone =>
      intro p' hp' q' hq' x' hx' hy'
      obtain ⟨p, hpm, rfl⟩ := mem_modifyEntered (hplaces ▸ hp')
      obtain ⟨q, hqm, rfl⟩ := mem_modifyEntered (hplaces ▸ hq')
      rw [h.alone p hpm q hqm x' hx' hy']
    case shownAs =>
      intro p' hp' x' hx'
      obtain ⟨p, hpm, rfl⟩ := mem_modifyEntered (hplaces ▸ hp')
      dsimp only at hx' ⊢
      split_ifs with hid
      · obtain rfl := hk.place_eq hpm hp hid
        obtain rfl : x = x' := Option.mem_unique hx hx'
        refine ⟨?_, fun o ho => ?_, fun _ => hne⟩
        · rw [hlast, if_pos rfl, Option.some.injEq]
        · rw [hhist, if_pos ⟨rfl, List.mem_map_of_mem ho⟩]
          rfl
      · have hxx : x ≠ x' := by
          rintro rfl
          exact hid (congrArg Place.id (h.alone p hpm (place t) hp x hx' hx))
        refine (h.shownAs p hpm x' hx').of_eq ?_ (fun o => ?_) rfl
        · rw [hlast, if_neg hxx]
        · rw [hhist, if_neg (fun hc => hxx hc.1)]

/-! ### `ApplyActivation` -/

structure Round (s s' : Display) : Prop where
  keyed : s'.Keyed
  presence : s'.Presence
  touches : Touches s s'
  surfaces : s'.toplevels.map (fun t => (t.id, t.surface)) = s.toplevels.map fun t =>
    (t.id, t.surface)

theorem Round.hasOutput (h : Round s s') (hout : s.HasOutput id) : s'.HasOutput id := by
  intro t' ht' hid x hx
  have hm : (t'.id, t'.surface) ∈ s'.toplevels.map fun t => (t.id, t.surface) :=
    List.mem_map_of_mem ht'
  rw [h.surfaces] at hm
  obtain ⟨t, ht, he⟩ := List.mem_map.mp hm
  rw [Prod.mk.injEq] at he
  rw [h.touches.field (fun s => s.outputsOf x) fun _ _ _ => rfl]
  exact hout t ht (he.1.trans hid) x (he.2.trans hx)

theorem Round.sends {shown : Bool} (h : Round s s')
    (hout : shown = true → s.HasOutput id) : Round s (s'.sendSurfaceOnOutput id shown) := by
  have hview := sendSurfaceOnOutput_view s' id shown
  refine ⟨h.keyed.touches ?_ (sendSurfaceOnOutput_touches s' id shown),
    h.presence.sends h.keyed (sendSurfaceOnOutput_sends s' id shown) fun hb =>
    h.hasOutput (hout hb), h.touches.trans (sendSurfaceOnOutput_touches s' id shown), ?_⟩
  · rw [ids_eq_view, ids_eq_view, hview]
  · have hs := congrArg (List.map fun p => (p.1.id, p.1.surface)) hview
    simp only [view, List.map_map] at hs
    exact hs.trans h.surfaces

theorem Round.configures (h : Round s s') (id : Nat) (size : Size) (b : Bool) :
    Round s (s'.configureToplevel id size b) := by
  have hkeep : (s'.configureToplevel id size b).toplevels.map (fun t => (t.id, t.surface)) =
      s'.toplevels.map fun t => (t.id, t.surface) := map_kept fun _ => rfl
  refine ⟨h.keyed.touches ?_ rfl, h.presence.configureToplevel id size b, h.touches.trans rfl,
    hkeep.trans h.surfaces⟩
  have hs := congrArg (List.map Prod.fst) hkeep
  simpa [ids, Function.comp_def] using hs

theorem Presence.noteChanges (h : s.Presence) (edge : Bool) (active : Text) :
    (s.noteChanges edge active).Presence := by
  refine h.of_eq ?_ (fun _ => rfl) rfl rfl (fun _ _ _ hm => hm) (fun _ _ => rfl) fun _ => rfl
  exact map_kept fun _ => rfl

theorem Round.noteChanges (hk : s.Keyed) (h : s.Presence) (edge : Bool) (active : Text) :
    Round s (s.noteChanges edge active) := by
  exact ⟨hk.noteChanges edge active, h.noteChanges edge active, rfl, map_kept fun _ => rfl⟩

namespace Presence
variable (h : s.Presence)
include h

theorem activate {edge : Bool} {active : Text} (hk : s.Keyed)
    (size : Size) (hout : ∀ t ∈ s.toplevels, showing edge active t = true → s.HasOutput t.id) :
    (s.activate edge active size).Presence := by
  have hid : ∀ p : ToplevelRec → Bool, (∀ t, p t = true → showing edge active t = true) →
      ∀ id ∈ s.idsOf p, s.HasOutput id := by
    intro p hp id hm
    obtain ⟨t, ht, rfl⟩ := List.mem_map.mp hm
    obtain ⟨ht, hpt⟩ := mem_filter.mp ht
    exact hout t ht (hp t hpt)
  have hon :=
    foldlRecOn (s.idsOf fun t => changes edge active t && want active t.toToplevel) (turnOn size)
    (motive := Round s) (Round.noteChanges hk h edge active) fun s₁ h₁ id hm =>
      (h₁.sends fun _ => hid _ (fun t ht => by simp [showing, ht]) id hm).configures id size true
  have hoff :=
    foldlRecOn (s.idsOf fun t => changes edge active t && !want active t.toToplevel) (turnOff size)
    (motive := Round s) hon fun s₁ h₁ id _ =>
      (h₁.configures id size false).sends fun hb => absurd hb Bool.false_ne_true
  have hpulse := foldlRecOn (s.idsOf (pulses edge active)) (pulse size)
    (motive := Round s) hoff fun s₁ h₁ id hm =>
      ((h₁.sends fun _ => hid _ (fun t ht => by simp [showing, ht]) id hm).configures id size
        false).configures id size true
  exact hpulse.presence

theorem hasOutput {t : ToplevelRec} (hk : s.Keyed)
    (ht : t ∈ s.toplevels)
    (hout : t.entered = false → ∀ x, t.surface = some x → s.outputsOf x ≠ []) :
    s.HasOutput t.id := by
  intro t' ht' he x hx
  obtain rfl := hk.eq_of_id ht' ht he
  cases hb : t'.entered with
  | false => exact hout hb x hx
  | true =>
    have hp : place t' ∈ s.places := List.mem_map_of_mem ht
    exact (h.shownAs _ hp x hx).outputs hb

theorem configureAll (size : Size) : (s.configureAll size).Presence :=
  foldlRecOn s.toplevels (fun s t => s.configureToplevel t.id size t.activated)
    (motive := Presence) h fun _ h₁ t _ => h₁.configureToplevel t.id size t.activated

/-! ### The requests -/

theorem of_places (hsent : s'.sent = s.sent) (ho : s'.outputResources =
    s.outputResources) (hn : s'.nextObject = s.nextObject)
    (hc : ∀ x, (s'.clientOf x).isSome → s'.clientOf x =
    s.clientOf x) (halive : ∀ p ∈ s'.places, ∀ x, p.surface = some x → (s'.clientOf x).isSome)
      (halone : ∀ p ∈
    s'.places, ∀ p' ∈ s'.places, ∀ x, p.surface = some x → p'.surface = some x → p = p')
      (hshown : ∀ p ∈
    s'.places, ∀ x, p.surface = some x → s.ShownAs x p.entered) : s'.Presence where
  outputs := ho ▸ h.outputs
  oldOutputs := by rw [ho, hn]; exact h.oldOutputs
  oldSurfaces x hx := by rw [hn]; exact h.oldSurfaces x (hc x hx ▸ hx)
  oldEvents := by rw [hsent, hn]; exact h.oldEvents
  alternates := hsent ▸ h.alternates
  alive := halive
  alone := halone
  shownAs p hp x hx :=
    (hshown p hp x hx).of_eq (by rw [hsent]) (fun o => by rw [hsent])
      (outputsOf_eq ho (hc x (halive p hp x hx)))

theorem of_objects (hsent : s'.sent = s.sent)
    (hp : s'.places = s.places) (hn : s.nextObject ≤ s'.nextObject)
    (hout : (s'.outputResources.map Resource.id).Nodup)
    (hold : ∀ o ∈ s'.outputResources, o.id < s'.nextObject)
    (holdSurfaces : ∀ x, (s'.clientOf x).isSome → x < s'.nextObject)
    (hc : ∀ x, (s.clientOf x).isSome → (s'.clientOf x).isSome)
    (hshown : ∀ p ∈ s.places, ∀ x, p.surface = some x → s'.ShownAs x p.entered) : s'.Presence where
  outputs := hout
  oldOutputs := hold
  oldSurfaces := holdSurfaces
  oldEvents x o b hm := by
    obtain ⟨hx, ho⟩ := h.oldEvents x o b (hsent ▸ hm)
    exact ⟨hx.trans_le hn, ho.trans_le hn⟩
  alternates := hsent ▸ h.alternates
  alive p hm x hx := hc x (h.alive p (hp ▸ hm) x hx)
  alone := hp ▸ h.alone
  shownAs := hp ▸ hshown

end Presence

theorem clientOf_map {f : Surface → Surface} (hid : ∀ x, (f x).id = x.id)
    (hclient : ∀ x, (f x).client = x.client) (hs : s'.surfaces = s.surfaces.map f) (x : Nat) :
    s'.clientOf x = s.clientOf x := by
  unfold clientOf Display.surface
  rw [hs, find?_map, Option.map_map]
  simp only [Function.comp_def, hid, hclient]

theorem history_eq_nil {x o : Nat} (h : ∀ b, .onOutput x o b ∉ sent) : history sent x o = [] := by
  rw [history, filterMap_eq_nil_iff]
  intro e he
  cases e with
  | configure => rfl
  | onOutput x' o' b =>
    refine if_neg ?_
    rintro ⟨rfl, rfl⟩
    exact h b he

namespace Presence
variable (h : s.Presence)
include h

theorem createSurface (client : Nat) :
    (s.request (.createSurface client)).Presence := by
  have hclient : ∀ x, (s.request (.createSurface client)).clientOf x =
      (s.clientOf x).or (if s.nextObject = x then some client else none) := by
    intro x
    simp only [clientOf, Display.surface, request, find?_append, map_or]
    by_cases hx : s.nextObject = x <;> simp [hx]
  refine h.of_objects rfl rfl (Nat.le_succ _) h.outputs (fun o ho => (h.oldOutputs o ho).trans
    (Nat.lt_succ_self _)) (fun x hx => ?_) (fun x hx => ?_) (fun p hp x hx => ?_)
  · show x < s.nextObject + 1
    rw [hclient, isSome_or, Bool.or_eq_true] at hx
    rcases hx with hx | hx
    · exact (h.oldSurfaces x hx).trans (Nat.lt_succ_self _)
    · split_ifs at hx with he
      · exact he ▸ Nat.lt_succ_self _
      · cases hx
  · rw [hclient, isSome_or, hx, Bool.true_or]
  · have hne : s.nextObject ≠ x := (h.oldSurfaces x (h.alive p hp x hx)).ne'
    have hsame : (s.request (.createSurface client)).clientOf x = s.clientOf x := by
      rw [hclient, if_neg hne, or_none]
    have ho : (s.request (.createSurface client)).outputResources = s.outputResources := rfl
    exact (h.shownAs p hp x hx).of_eq rfl (fun _ => rfl) (outputsOf_eq ho hsame)

theorem bindOutput {client : Nat}
    (hok : s.Tidy (.request (.bindOutput client))) : (s.request (.bindOutput client)).Presence := by
  have hout : ∀ x, (s.request (.bindOutput client)).outputsOf x = s.outputsOf x ++
      if s.clientOf x = some client then [⟨s.nextObject, client⟩] else [] := by
    intro x
    have hsame : (s.request (.bindOutput client)).surface x = s.surface x := rfl
    simp only [outputsOf, clientOf, hsame]
    simp only [request, filter_append, filter_cons, filter_nil, decide_eq_true_eq]
    exact congrArg _ (if_congr eq_comm rfl rfl)
  refine h.of_objects rfl rfl (Nat.le_succ _) ?_ (fun o ho => ?_)
    (fun x hx => (h.oldSurfaces x hx).trans
    (Nat.lt_succ_self _)) (fun _ hx => hx) (fun p hp x hx => ?_)
  · show ((s.outputResources ++ [_]).map Resource.id).Nodup
    rw [map_append, nodup_append]
    refine ⟨h.outputs, by simp, fun i hi j hj => ?_⟩
    obtain ⟨o, ho, rfl⟩ := List.mem_map.mp hi
    rw [mem_singleton.mp hj]
    exact (h.oldOutputs o ho).ne
  · show o.id < s.nextObject + 1
    rcases mem_append.mp ho with ho | ho
    · exact (h.oldOutputs o ho).trans (Nat.lt_succ_self _)
    · rw [mem_singleton.mp ho]
      exact Nat.lt_succ_self _
  · obtain ⟨hlast, hnow, houts⟩ := h.shownAs p hp x hx
    refine ⟨hlast, fun o ho => ?_, fun hb => ?_⟩
    · rw [hout] at ho
      rcases mem_append.mp ho with ho | ho
      · exact hnow o ho
      · -- Nothing was sent to an output that is new, and nothing of its client is shown.
        split_ifs at ho with hc
        · obtain ⟨t, ht, rfl⟩ := List.mem_map.mp hp
          have hoff : (place t).entered = false := by
            rw [← Bool.not_eq_true]
            exact fun he => hok t ht he x hx hc
          rw [hoff, mem_singleton.mp ho]
          show (history s.sent x s.nextObject).headD false = false
          rw [history_eq_nil fun b hm => (h.oldEvents _ _ _ hm).2.false]
          rfl
        · cases ho
    · rw [hout]
      exact append_ne_nil_of_left_ne_nil (houts hb) _

theorem releaseOutput
    (hok : s.Tidy (.request (.releaseOutput id))) : (s.request (.releaseOutput id)).Presence := by
  have hsub : Sublist (s.outputResources.filter fun o => o.id ≠ id) s.outputResources :=
    filter_sublist
  have hout : ∀ x o, o ∈ (s.request (.releaseOutput id)).outputsOf x ↔ o ∈ s.outputsOf x ∧
      o.id ≠ id := by
    intro x o
    show o ∈ List.filter _ (List.filter _ _) ↔ _
    rw [filter_comm, mem_filter, decide_eq_true_eq]
    rfl
  refine h.of_objects rfl rfl le_rfl (h.outputs.sublist (hsub.map _))
    (fun o ho => h.oldOutputs o (hsub.subset ho)) h.oldSurfaces (fun _ hx => hx)
    (fun p hp x hx => ?_)
  obtain ⟨hlast, hnow, -⟩ := h.shownAs p hp x hx
  refine ⟨hlast, fun o ho => hnow o ((hout x o).mp ho).1, fun hb => ?_⟩
  obtain ⟨t, ht, rfl⟩ := List.mem_map.mp hp
  obtain ⟨o, ho, hne⟩ := hok t ht hb x hx
  exact ne_nil_of_mem ((hout x o).mpr ⟨ho, hne⟩)

theorem getToplevel {surface surface' : Option Nat}
    (hok : s.Tidy (.request (.getToplevel surface)))
    (hx : ∀ x, surface' = some x → (s.surface x).isSome)
    (hs : ∀ x, surface' = some x → surface = some x) : (s.getToplevel surface').Presence := by
  have hplaces : (s.getToplevel surface').places =
    s.places ++ [⟨s.nextToplevelId, surface', false⟩] := map_append
  have hclient : ∀ x, (s.getToplevel surface').clientOf x = s.clientOf x := by
    refine clientOf_map (f := fun x => if some x.id = surface' then
      { x with toplevelId := s.nextToplevelId } else x) (fun x => ?_) (fun x => ?_) rfl
    · split_ifs <;> rfl
    · split_ifs <;> rfl
  have hfree : ∀ x, surface' = some x → ∀ p ∈ s.places, p.surface ≠ some x := by
    intro x hx' p hp
    obtain ⟨t, ht, rfl⟩ := List.mem_map.mp hp
    exact (hok x (hs x hx')).1 t ht
  refine h.of_places rfl rfl rfl (fun x _ => hclient x) (fun p hp x hpx => ?_)
    (fun p hp p' hp' x hpx hpx' => ?_) (fun p hp x hpx => ?_)
  · rw [hclient]
    rw [hplaces] at hp
    rcases mem_append.mp hp with hp | hp
    · exact h.alive p hp x hpx
    · rw [mem_singleton.mp hp] at hpx
      rw [clientOf, isSome_map]
      exact hx x hpx
  · rw [hplaces] at hp hp'
    rcases mem_append.mp hp with hp | hp <;> rcases mem_append.mp hp' with hp' | hp'
    · exact h.alone p hp p' hp' x hpx hpx'
    · rw [mem_singleton.mp hp'] at hpx'
      exact absurd hpx (hfree x hpx' p hp)
    · rw [mem_singleton.mp hp] at hpx
      exact absurd hpx' (hfree x hpx p' hp')
    · rw [mem_singleton.mp hp, mem_singleton.mp hp']
  · rw [hplaces] at hp
    rcases mem_append.mp hp with hp | hp
    · exact h.shownAs p hp x hpx
    · rw [mem_singleton.mp hp] at hpx ⊢
      exact (hok x (hs x hpx)).2.shownAs

theorem destroyToplevel (id : Nat) :
    (s.request (.destroyToplevel id)).Presence := by
  have hsub : ∀ p ∈ (s.request (.destroyToplevel id)).places, p ∈ s.places := by
    intro p hp
    obtain ⟨t, ht, rfl⟩ := List.mem_map.mp hp
    exact List.mem_map_of_mem (mem_of_mem_filter ht)
  exact h.of_places rfl rfl rfl (fun _ _ => rfl) (fun p hp => h.alive p (hsub p hp))
    (fun p hp p' hp' => h.alone p (hsub p hp) p' (hsub p' hp')) fun p hp => h.shownAs p (hsub p hp)

theorem commit {surface : Nat} {y : Surface} (hk : s.Keyed)
    (hok : s.Tidy (.request (.commit surface))) (hy : s.surface surface = some y) :
    (s.noteToplevelSurface y.toplevelId surface).Presence := by
  have hplaces : (s.noteToplevelSurface y.toplevelId surface).places = s.places.map fun p =>
      if p.id = y.toplevelId then { p with surface := some surface } else p := by
    refine places_map (fun t => ?_) s.toplevels
    by_cases he : t.id = y.toplevelId <;> simp [place, he]
  -- The toplevel stays where it is, or moves to where nobody is, with nothing to take along.
  have hmove : ∀ p ∈ s.places, p.id = y.toplevelId → p.surface = some surface ∨
      p.entered = false ∧ (∀ p' ∈ s.places, p'.surface ≠ some surface) ∧ s.Unshown surface := by
    intro p hp hid
    obtain ⟨t, ht, rfl⟩ := List.mem_map.mp hp
    by_cases hs : t.surface = some surface
    · exact .inl hs
    · obtain ⟨hoff, hfree, hun⟩ := hok y hy t ht hid hs
      refine .inr ⟨hoff, fun p' hp' => ?_, hun⟩
      obtain ⟨t', ht', rfl⟩ := List.mem_map.mp hp'
      exact hfree t' ht'
  refine h.of_places rfl rfl rfl (fun _ _ => rfl) (fun p' hp' x hx => ?_)
    (fun p' hp' q' hq' x hpx hqx => ?_) (fun p' hp' x hx => ?_)
  · rw [hplaces] at hp'
    obtain ⟨p, hp, rfl⟩ := List.mem_map.mp hp'
    split_ifs at hx with hid
    · cases hx
      show ((s.surface surface).map Surface.client).isSome
      rw [hy]
      rfl
    · exact h.alive p hp x hx
  · rw [hplaces] at hp' hq'
    obtain ⟨p, hp, rfl⟩ := List.mem_map.mp hp'
    obtain ⟨q, hq, rfl⟩ := List.mem_map.mp hq'
    have hcross : ∀ p ∈ s.places, ∀ q ∈ s.places, p.id = y.toplevelId → q.surface = some surface → p = q := by
      intro p hp q hq hid hqs
      rcases hmove p hp hid with hps | ⟨-, hfree, -⟩
      · exact h.alone p hp q hq surface hps hqs
      · exact absurd hqs (hfree q hq)
    by_cases hpid : p.id = y.toplevelId <;> by_cases hqid : q.id = y.toplevelId
    · rw [hk.place_eq hp hq (hpid.trans hqid.symm)]
    · simp only [if_pos hpid, if_neg hqid] at hpx hqx
      rw [hcross p hp q hq hpid (hqx.trans hpx.symm)]
    · simp only [if_neg hpid, if_pos hqid] at hpx hqx
      rw [hcross q hq p hp hqid (hpx.trans hqx.symm)]
    · simp only [if_neg hpid, if_neg hqid] at hpx hqx ⊢
      exact h.alone p hp q hq x hpx hqx
  · rw [hplaces] at hp'
    obtain ⟨p, hp, rfl⟩ := List.mem_map.mp hp'
    split_ifs at hx ⊢ with hid
    · cases hx
      rcases hmove p hp hid with hs | ⟨hoff, -, hun⟩
      · exact h.shownAs p hp surface hs
      · exact hoff ▸ hun.shownAs
    · exact h.shownAs p hp x hx

theorem dropSurface (surface : Nat) :
    (s.dropSurface surface).Presence := by
  have hplaces : (s.dropSurface surface).places = s.places.map fun p =>
      if p.surface = some surface then { p with surface := none, entered := false } else p := by
    refine places_map (fun t => ?_) s.toplevels
    by_cases he : t.surface = some surface <;> simp [place, he]
  have hclient : ∀ x, (s.dropSurface surface).clientOf x =
      if x = surface then none else s.clientOf x := by
    intro x
    unfold clientOf Display.surface
    simp only [Display.dropSurface, find?_filter]
    split_ifs with he
    · subst he
      simp
    · refine congrArg _ (find?_congr fun y _ => ?_)
      by_cases hy : y.id = x <;> simp [hy, he]
  have hback : ∀ p' ∈ (s.dropSurface surface).places, ∀ x, p'.surface = some x →
      p' ∈ s.places ∧ x ≠ surface := by
    intro p' hp' x hx
    rw [hplaces] at hp'
    obtain ⟨p, hp, rfl⟩ := List.mem_map.mp hp'
    split_ifs at hx ⊢ with he
    refine ⟨hp, ?_⟩
    rintro rfl
    exact he hx
  refine h.of_places rfl rfl rfl (fun x hx => ?_) (fun p hp x hx => ?_)
    (fun p hp p' hp' x hx hx' => h.alone p (hback p hp x hx).1 p' (hback p' hp' x hx').1 x hx hx')
    (fun p hp x hx => h.shownAs p (hback p hp x hx).1 x hx)
  · rw [hclient] at hx ⊢
    split_ifs at hx ⊢ with he
    · cases hx
    · rfl
  · obtain ⟨hp, hne⟩ := hback p hp x hx
    rw [hclient, if_neg hne]
    exact h.alive p hp x hx

theorem request {r : Request} (hk : s.Keyed) (hok : s.Tidy (.request r))
    (hr : Requested s r s') : s'.Presence := by
  cases hr with
  | nothing => exact h
  | createSurface client => exact h.createSurface client
  | @getSubsurface child parent p hp =>
    refine h.of_eq rfl ?_ rfl rfl (fun _ _ _ hm => hm) (fun _ _ => rfl) fun _ => rfl
    refine clientOf_map (f := fun x => if x.id = child then { x with toplevelId := p.toplevelId }
      else x) (fun x => ?_) (fun x => ?_) rfl
    · split_ifs <;> rfl
    · split_ifs <;> rfl
  | getToplevel hx hs => exact h.getToplevel hok hx hs
  | destroyToplevel id => exact h.destroyToplevel id
  | @setAppId i appId t ht hne =>
    refine h.of_eq ?_ (fun _ => rfl) rfl rfl (fun _ _ _ hm => hm) (fun _ _ => rfl) fun _ => rfl
    refine (places_map (g := id) (fun t => ?_) s.toplevels).trans (List.map_id _)
    by_cases he : t.id = i <;> simp [place, he]
  | commit hx => exact h.commit hk hok hx
  | destroySurface surface => exact h.dropSurface surface
  | bindOutput client => exact h.bindOutput hok
  | releaseOutput id => exact h.releaseOutput hok

/-! ### The run -/

theorem same (hp : s'.places = s.places) (hx : s'.surfaces = s.surfaces)
    (ho : s'.outputResources = s.outputResources) (hn : s'.nextObject = s.nextObject)
    (hs : s'.sent = s.sent) : s'.Presence :=
  h.of_eq hp (fun x => by rw [clientOf, Display.surface, hx]; rfl) ho hn (hs ▸ fun _ _ _ hm => hm)
    (fun _ _ => by rw [hs]) fun _ => by rw [hs]

theorem after_step (hk : s.Keyed) (hok : s.Tidy a)
    (hs : s.step a = some s') : s'.Presence := by
  cases step_reaches hs with
  | request hr => exact h.request hk hok hr
  | work w ws =>
    have h' : ({ s with posted := ws } : Display).Presence := h.same rfl rfl rfl rfl rfl
    cases w with
    | attachWindow size resized =>
      simp only [Display.work]
      split_ifs
      · exact h'.configureAll size
      · exact h'
    | detachWindow | setWindowActive => exact h'.same rfl rfl rfl rfl rfl
  | @proceed i hw =>
    cases i with
    | activate edge active size =>
      have hout : ∀ t ∈ s.toplevels, showing edge active t = true → s.HasOutput t.id :=
        fun t ht hsh => h.hasOutput hk ht (hok edge active size hw t ht hsh)
      exact (h.activate hk size hout).same rfl rfl rfl rfl rfl
    | configureNew =>
      exact h.of_eq rfl (fun _ => rfl) rfl rfl (fun x o b hm => by simpa [exec] using hm)
        (fun _ _ => rfl) fun _ => rfl
    | readActive | readAttached | readSize => exact h.same rfl rfl rfl rfl rfl
  | host => exact h.same rfl rfl rfl rfl rfl

end Presence

theorem started_presence (size : Size) (legacy : Bool) : (started size legacy).Presence where
  outputs := nodup_nil
  oldOutputs := by simp [started]
  oldSurfaces := by simp [started, clientOf, Display.surface]
  oldEvents := by simp [started]
  alternates _ _ := trivial
  alive := by simp [started, places]
  alone := by simp [started, places]
  shownAs := by simp [started, places]

end

/-- **Enter and leave alternate, and the flag says what was sent last**, in every state a run of
tidy steps reaches. -/
theorem presence_alternates {size : Size} {legacy : Bool} {as : List Action} {s : Display}
    (hok : Along step Tidy (started size legacy) as)
    (h : run step (started size legacy) as = some s) : s.Presented := by
  have hs : s.Keyed ∧ s.Presence := by
    refine run_invariant_along (I := fun s => s.Keyed ∧ s.Presence)
      (fun s a s₁ hs hok h₁ => ?_) hok h
      ⟨started_keyed size legacy, started_presence size legacy⟩
    exact ⟨hs.1.after_step h₁, hs.2.after_step hs.1 hok h₁⟩
  exact hs.2.presented

def shownOnce : List Action :=
  [.request (.createSurface 7), .request (.bindOutput 7), .request (.getToplevel (some 1)),
    .proceed, .proceed, .request (.setAppId 1 "Waydroid".toList), .proceed, .proceed, .proceed]

theorem presence_alternates_shownOnce :
    ∃ s, run step (started (1080, 2400) false) shownOnce = some s ∧ history s.sent 1 2 = [true] ∧
      s.Presented := by
  refine ⟨_, rfl, by decide, @presence_alternates (1080, 2400) false shownOnce _ ?_ rfl⟩
  refine along_cons trivial rfl
    (along_cons nofun rfl (along_cons ?_ rfl (along_cons nofun rfl (along_cons nofun
    rfl (along_cons trivial rfl
    (along_cons nofun rfl (along_cons nofun rfl (along_cons ?_ rfl trivial))))))))
  · intro x hx
    cases hx
    exact ⟨nofun, by decide, by decide⟩
  · intro edge active size hw t ht hsh he x hx
    cases mem_singleton.mp ht
    cases hx
    decide

def movedOff : List Action :=
  shownOnce ++ [.request (.createSurface 7), .request (.getSubsurface 3 1), .request (.commit 3),
    .request (.setAppId 1 "waydroid.app".toList), .proceed, .proceed, .proceed]

theorem leave_without_enter :
    ∃ s, run step (started (1080, 2400) false) movedOff = some s ∧ history s.sent 3 2 = [false] ∧
      ¬ s.Presented ∧ history s.sent 1 2 = [true] := by
  refine ⟨_, rfl, by decide, fun hp => ?_, by decide⟩
  have ha := (hp.alternates 3 2).1
  revert ha
  decide

end Display

end OniroSoc.Compositor

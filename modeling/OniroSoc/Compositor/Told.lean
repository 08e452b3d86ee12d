import OniroSoc.Compositor.Display

/-!
# What one operation tells the toplevels

Spec lemmas for the operations of the wayland thread that send a configure.  A toplevel is seen
through `view`: what it is, and what it was last noted to be activated as.
-/

namespace OniroSoc.Compositor
open Support List
open Server (packageOfAppId isHomePackage)

namespace Display

def ids (s : Display) : List Nat := s.toplevels.map fun t => t.id

def view (s : Display) : List (Toplevel × Bool) :=
  s.toplevels.map fun t => (t.toToplevel, t.activated)

theorem ids_eq_view (s : Display) : s.ids = s.view.map fun p => p.1.id := by
  simp [ids, view, Function.comp_def]

structure Keyed (s : Display) : Prop where
  nodup : s.ids.Nodup
  pos : ∀ id ∈ s.ids, 0 < id
  lt : ∀ id ∈ s.ids, id < s.nextToplevelId
  next : 0 < s.nextToplevelId

section
variable {s s' : Display}

theorem Keyed.of_ids (h : s.Keyed) (hi : s'.ids = s.ids)
    (hn : s'.nextToplevelId = s.nextToplevelId) : s'.Keyed := by
  obtain ⟨h₁, h₂, h₃, h₄⟩ := h
  exact ⟨hi ▸ h₁, hi ▸ h₂, hi ▸ hn ▸ h₃, hn ▸ h₄⟩

theorem Keyed.eq_of_id (h : s.Keyed) {t t' : ToplevelRec} (ht : t ∈ s.toplevels)
    (ht' : t' ∈ s.toplevels) (he : t.id = t'.id) : t = t' :=
  inj_on_of_nodup_map h.nodup ht ht' he

theorem Keyed.mem_idsOf (h : s.Keyed) {t : ToplevelRec} (ht : t ∈ s.toplevels)
    (p : ToplevelRec → Bool) : t.id ∈ s.idsOf p ↔ p t = true := by
  constructor
  · intro hm
    obtain ⟨t', ht', he⟩ := mem_map.mp hm
    obtain ⟨ht', hp⟩ := mem_filter.mp ht'
    rwa [← h.eq_of_id ht' ht he]
  · intro hp
    exact mem_map.mpr ⟨t, mem_filter.mpr ⟨ht, hp⟩, rfl⟩

theorem Keyed.idsOf_ne_zero (h : s.Keyed) {p : ToplevelRec → Bool} : ∀ id ∈ s.idsOf p, id ≠ 0 := by
  intro id hm
  obtain ⟨t, ht, rfl⟩ := mem_map.mp hm
  exact (h.pos t.id (mem_map_of_mem (mem_of_mem_filter ht))).ne'

end

theorem lastConfigure_append_onOutput {es sent : List DisplayEvent} {id : Nat}
    (h : ∀ e ∈ es, ∃ x o b, e = .onOutput x o b) :
    lastConfigure (es ++ sent) id = lastConfigure sent id := by
  induction es with
  | nil => rfl
  | cons e es ih =>
    obtain ⟨⟨x, o, b, rfl⟩, hes⟩ := forall_mem_cons.mp h
    exact ih hes

theorem lastConfigure_append_configure {l : List ToplevelRec} {sent : List DisplayEvent} {id : Nat}
    {size : Size} {b : Bool} : lastConfigure (l.map (fun t => .configure t.id size b) ++ sent) id =
      if ∃ t ∈ l, t.id = id then some (size, b) else lastConfigure sent id := by
  induction l with
  | nil => simp
  | cons t l ih =>
    by_cases ht : t.id = id
    · simp [lastConfigure, ht]
    · simp only [lastConfigure] at ih
      simp [lastConfigure, ht, ih]

theorem map_kept {β : Type} {l : List ToplevelRec} {c : ToplevelRec → Prop} [DecidablePred c]
    {f : ToplevelRec → ToplevelRec} {g : ToplevelRec → β} (hf : ∀ t, g (f t) = g t) :
    (l.map fun t => if c t then f t else t).map g = l.map g := by
  rw [map_map]
  refine map_congr_left fun t _ => ?_
  dsimp only [Function.comp_apply]
  split_ifs
  · exact hf t
  · rfl

section
variable (s : Display) (id : Nat) (size : Size) (b : Bool)

@[simp] theorem sendSurfaceOnOutput_view : (s.sendSurfaceOnOutput id b).view = s.view := by
  unfold sendSurfaceOnOutput
  split
  · rfl
  · split
    · rfl
    · split_ifs
      · rfl
      · exact map_kept fun _ => rfl

@[simp] theorem sendSurfaceOnOutput_last (id' : Nat) :
    lastConfigure (s.sendSurfaceOnOutput id b).sent id' = lastConfigure s.sent id' := by
  unfold sendSurfaceOnOutput
  split
  · rfl
  · split
    · rfl
    · split_ifs
      · rfl
      · refine lastConfigure_append_onOutput fun e he => ?_
        obtain ⟨o, -, rfl⟩ := mem_map.mp (mem_reverse.mp he)
        exact ⟨_, _, _, rfl⟩

structure Tells (s : Display) (ids : List Nat) (size : Size) (b : Bool) (s' : Display) : Prop where
  view : s'.view = s.view.map fun p => if p.1.id ∈ ids then (p.1, b) else p
  last : ∀ id, lastConfigure s'.sent id =
    if id ∈ ids ∧ id ∈ s.ids then some (size, b) else lastConfigure s.sent id

variable {s id size b} {is : List Nat}

theorem Tells.ids {s' : Display} (h : Tells s is size b s') : s'.ids = s.ids := by
  rw [ids_eq_view, ids_eq_view, h.view, map_map]
  refine map_congr_left fun p _ => ?_
  dsimp only [Function.comp_apply]
  split_ifs <;> rfl

theorem configureToplevel_tells (h : id ≠ 0) :
    Tells s [id] size b (s.configureToplevel id size b) := by
  constructor
  · simp only [Display.view, configureToplevel, map_map, mem_singleton]
    refine map_congr_left fun t _ => ?_
    by_cases ht : t.id = id <;> simp [Targets, h, ht]
  · intro id'
    have : (s.configureToplevel id size b).sent =
        (s.toplevels.filter fun t => Targets id t).reverse.map (fun t =>
          .configure t.id size b) ++ s.sent := by
      rw [map_reverse]
      rfl
    rw [this, lastConfigure_append_configure]
    refine if_congr ?_ rfl rfl
    simp only [mem_reverse, mem_filter, Targets, h, false_or, decide_eq_true_eq,
      mem_singleton, Display.ids, mem_map]
    constructor
    · rintro ⟨t, ⟨ht, rfl⟩, rfl⟩
      exact ⟨rfl, t, ht, rfl⟩
    · rintro ⟨rfl, t, ht, rfl⟩
      exact ⟨t, ⟨ht, rfl⟩, rfl⟩

variable {s₁ s₂ : Display}

theorem Tells.again {b' : Bool} (h₁ : Tells s is size b' s₁)
    (h₂ : Tells s₁ is size b s₂) : Tells s is size b s₂ := by
  constructor
  · rw [h₂.view, h₁.view, map_map]
    refine map_congr_left fun p _ => ?_
    by_cases hp : p.1.id ∈ is <;> simp [hp]
  · intro id
    rw [h₂.last, h₁.last, h₁.ids]
    by_cases hc : id ∈ is ∧ id ∈ s.ids <;> simp [hc]

theorem Tells.trans {js : List Nat} (h₁ : Tells s is size b s₁)
    (h₂ : Tells s₁ js size b s₂) : Tells s (is ++ js) size b s₂ := by
  constructor
  · rw [h₂.view, h₁.view, map_map]
    refine map_congr_left fun p _ => ?_
    by_cases hi : p.1.id ∈ is <;> by_cases hj : p.1.id ∈ js <;> simp [hi, hj]
  · intro id
    rw [h₂.last, h₁.last, h₁.ids]
    by_cases hi : id ∈ is <;> by_cases hj : id ∈ js <;> by_cases hm : id ∈ s.ids <;>
      simp [hi, hj, hm]

theorem Tells.of_eq {s' : Display} (h : Tells s₁ is size b s₂) (hv : s₁.view = s.view)
    (hl : ∀ id, lastConfigure s₁.sent id = lastConfigure s.sent id) (hv' : s'.view = s₂.view)
    (hl' : ∀ id, lastConfigure s'.sent id = lastConfigure s₂.sent id) : Tells s is size b s' := by
  have hi : s₁.ids = s.ids := by rw [ids_eq_view, ids_eq_view, hv]
  exact ⟨by rw [hv', h.view, hv], fun id => by rw [hl', h.last, hl, hi]⟩

theorem turnOn_tells (h : id ≠ 0) : Tells s [id] size true (turnOn size s id) :=
  (configureToplevel_tells h).of_eq (sendSurfaceOnOutput_view s id true)
    (sendSurfaceOnOutput_last s id true) rfl fun _ => rfl

theorem turnOff_tells (h : id ≠ 0) : Tells s [id] size false (turnOff size s id) :=
  (configureToplevel_tells h).of_eq rfl (fun _ => rfl) (sendSurfaceOnOutput_view _ id false)
    (sendSurfaceOnOutput_last _ id false)

theorem pulse_tells (h : id ≠ 0) : Tells s [id] size true (pulse size s id) :=
  ((configureToplevel_tells h).again (configureToplevel_tells (b := true) h)).of_eq
    (sendSurfaceOnOutput_view s id true) (sendSurfaceOnOutput_last s id true) rfl fun _ => rfl

theorem tells_nil : Tells s [] size b s := ⟨by simp, by simp⟩

theorem foldl_tells {f : Display → Nat → Display}
    (hf : ∀ s id, id ≠ 0 → Tells s [id] size b (f s id)) (h : ∀ id ∈ is, id ≠ 0) :
    Tells s is size b (is.foldl f s) := by
  induction is generalizing s with
  | nil => exact tells_nil
  | cons id is ih =>
    obtain ⟨h₀, his⟩ := forall_mem_cons.mp h
    exact (hf s id h₀).trans (ih his)

end

section
variable {s : Display} {edge : Bool} {active : Text} {size : Size} {t : ToplevelRec}

theorem pulses_want (h : pulses edge active t = true) : want active t.toToplevel = true := by
  simp only [pulses, Bool.and_eq_true] at h
  exact h.1.1.1.2

theorem pulses_activated (h : pulses edge active t = true) : t.activated = true := by
  simp only [pulses, Bool.and_eq_true] at h
  exact h.1.2

theorem changes_named (h : changes edge active t = true) : t.appId ≠ [] := by
  simp only [changes, Bool.and_eq_true, decide_eq_true_eq] at h
  exact h.1.1

theorem activated_of_not_changes (ht : t.appId ≠ []) (hc : changes edge active t = false) :
    t.activated = want active t.toToplevel := by
  by_cases hp : pulses edge active t = true
  · rw [pulses_activated hp, pulses_want hp]
  · simp only [changes, Bool.and_eq_false_iff, decide_eq_false_iff_not, not_not, ht, false_or,
      Bool.not_eq_false', hp, bne_eq_false_iff_eq] at hc
    exact (hc.resolve_left Bool.false_ne_true).symm

theorem noteChanges_ids (s : Display) (edge : Bool) (active : Text) :
    (s.noteChanges edge active).ids = s.ids := map_kept fun _ => rfl

section
variable (h : s.Keyed)
include h

theorem Keyed.noteChanges (edge : Bool) (active : Text) :
    (s.noteChanges edge active).Keyed :=
  h.of_ids (noteChanges_ids s edge active) rfl

theorem activate_rounds (edge : Bool) (active : Text) (size : Size) :
    ∃ s₁ s₂, Tells (s.noteChanges edge active)
        (s.idsOf fun t => changes edge active t && want active t.toToplevel) size true s₁ ∧
      Tells s₁ (s.idsOf fun t => changes edge active t && !want active t.toToplevel) size false s₂ ∧
      Tells s₂ (s.idsOf (pulses edge active)) size true (s.activate edge active size) :=
  ⟨_, _, foldl_tells (fun _ _ h => turnOn_tells h) h.idsOf_ne_zero,
    foldl_tells (fun _ _ h => turnOff_tells h)
    h.idsOf_ne_zero, foldl_tells (fun _ _ h => pulse_tells h) h.idsOf_ne_zero⟩

theorem activate_view (edge : Bool) (active : Text) (size : Size) :
    (s.activate edge active size).view =
      s.view.map fun p => if p.1.appId ≠ [] then (p.1, want active p.1) else p := by
  obtain ⟨s₁, s₂, h₁, h₂, h₃⟩ := activate_rounds h edge active size
  rw [h₃.view, h₂.view, h₁.view]
  simp only [view, noteChanges, map_map]
  refine map_congr_left fun t ht => ?_
  by_cases hc : changes edge active t = true
  · have hp : pulses edge active t = false := by
      by_contra hp
      simp [changes, Bool.not_eq_false _ ▸ hp] at hc
    cases hw : want active t.toToplevel <;>
      simp [h.mem_idsOf ht, hc, hp, hw, changes_named hc]
  · rw [Bool.not_eq_true] at hc
    by_cases hn : t.appId = []
    · have hp : pulses edge active t = false := by simp [pulses, hn]
      simp [h.mem_idsOf ht, hc, hp, hn]
    · cases hp : pulses edge active t with
      | true => simp [h.mem_idsOf ht, hc, hp, hn, pulses_want hp]
      | false => simp [h.mem_idsOf ht, hc, hp, hn, activated_of_not_changes hn hc]

theorem activate_last (edge : Bool) (active : Text) (size : Size)
    (ht : t ∈ s.toplevels) :
    lastConfigure (s.activate edge active size).sent t.id =
      if changes edge active t || pulses edge active t then some (size, want active t.toToplevel)
        else lastConfigure s.sent t.id := by
  obtain ⟨s₁, s₂, h₁, h₂, h₃⟩ := activate_rounds h edge active size
  have hm : t.id ∈ s.ids := mem_map_of_mem ht
  rw [h₃.last, h₂.last, h₁.last, h₂.ids, h₁.ids, noteChanges_ids]
  simp only [h.mem_idsOf ht, hm, and_true]
  cases hp : pulses edge active t with
  | true => simp [pulses_want hp]
  | false =>
    cases hc : changes edge active t with
    | false => simp [noteChanges]
    | true => cases hw : want active t.toToplevel <;> simp

theorem activate_ids (edge : Bool) (active : Text) (size : Size) :
    (s.activate edge active size).ids = s.ids := by
  obtain ⟨s₁, s₂, h₁, h₂, h₃⟩ := activate_rounds h edge active size
  rw [h₃.ids, h₂.ids, h₁.ids, noteChanges_ids]

theorem configureToplevel_self (ht : t ∈ s.toplevels) :
    (s.configureToplevel t.id size t.activated).toplevels = s.toplevels := by
  have h₀ : t.id ≠ 0 := (h.pos t.id (mem_map_of_mem ht)).ne'
  refine (map_congr_left fun t' ht' => ?_).trans (map_id _)
  by_cases he : t'.id = t.id
  · obtain rfl := h.eq_of_id ht' ht he
    simp [Targets]
  · simp [Targets, h₀, he]

theorem configureAll_spec (size : Size) :
    (s.configureAll size).toplevels = s.toplevels ∧
    ∀ t ∈ s.toplevels,
      lastConfigure (s.configureAll size).sent t.id = some (size, t.activated) := by
  -- The fold runs over a list of its own: the toplevels not yet reached keep what they had.
  suffices hfold : ∀ (l : List ToplevelRec) (s' : Display),
    s'.toplevels = s.toplevels → (∀ t ∈ l, t ∈
      s.toplevels) → (l.foldl (fun s t => s.configureToplevel t.id size t.activated) s').toplevels =
      s.toplevels
      ∧ ∀ t ∈ s.toplevels, t ∈ l ∨ lastConfigure s'.sent t.id = some (size, t.activated) → lastConfigure
      (l.foldl (fun s t => s.configureToplevel t.id size t.activated) s').sent t.id =
      some (size, t.activated) by
    obtain ⟨h₁, h₂⟩ := hfold s.toplevels s rfl fun _ ht => ht
    exact ⟨h₁, fun t ht => h₂ t ht (.inl ht)⟩
  intro l
  induction l with
  | nil =>
    intro s' hs' _
    exact ⟨hs', fun t _ hl => hl.resolve_left (by simp)⟩
  | cons t l ih =>
    intro s' hs' hl
    obtain ⟨ht, hl⟩ := forall_mem_cons.mp hl
    have h₀ : t.id ≠ 0 := (h.pos t.id (mem_map_of_mem ht)).ne'
    have htold : Tells s' [t.id] size t.activated _ := configureToplevel_tells h₀
    have hsame : (s'.configureToplevel t.id size t.activated).toplevels = s.toplevels := by
      refine Eq.trans ?_ (configureToplevel_self h ht : (s.configureToplevel _ size _).toplevels = _)
      simp only [configureToplevel, hs']
    obtain ⟨h₁, h₂⟩ := ih _ hsame hl
    refine ⟨h₁, fun t' ht' hc => h₂ t' ht' ?_⟩
    by_cases he : t'.id = t.id
    · obtain rfl := h.eq_of_id ht' ht he
      right
      rw [htold.last, if_pos]
      exact ⟨mem_singleton_self _, by rw [ids, hs']; exact mem_map_of_mem ht⟩
    · rcases hc with hc | hc
      · left
        rcases mem_cons.mp hc with rfl | hc
        · exact absurd rfl he
        · exact hc
      · right
        rw [htold.last, if_neg (by simp [he]), hc]

end

end

def Touches (s s' : Display) : Prop := s' = { s with toplevels := s'.toplevels, sent := s'.sent }

section
variable {s s₁ s' : Display}

theorem Touches.trans (h₁ : Touches s s₁) (h₂ : Touches s₁ s') : Touches s s' := by
  unfold Touches at h₁ h₂ ⊢
  rw [h₁] at h₂
  exact h₂

theorem sendSurfaceOnOutput_touches (s : Display) (id : Nat) (b : Bool) :
    Touches s (s.sendSurfaceOnOutput id b) := by
  unfold sendSurfaceOnOutput
  split
  · rfl
  · split
    · rfl
    · split_ifs <;> rfl

theorem turnOn_touches (size : Size) (s : Display) (id : Nat) : Touches s (turnOn size s id) :=
  (sendSurfaceOnOutput_touches s id true).trans rfl

theorem turnOff_touches (size : Size) (s : Display) (id : Nat) : Touches s (turnOff size s id) :=
  (show Touches s (s.configureToplevel id size false) from rfl).trans
    (sendSurfaceOnOutput_touches _ id false)

theorem pulse_touches (size : Size) (s : Display) (id : Nat) : Touches s (pulse size s id) :=
  ((sendSurfaceOnOutput_touches s id true).trans
    (show Touches _ ((s.sendSurfaceOnOutput id true).configureToplevel id size false)
    from rfl)).trans rfl

theorem foldl_touches {β : Type*} {f : Display → β → Display} (hf : ∀ s x, Touches s (f s x))
    (l : List β) (s : Display) : Touches s (l.foldl f s) := by
  induction l generalizing s with
  | nil => rfl
  | cons x l ih => exact (hf s x).trans (ih (f s x))

theorem activate_touches (s : Display) (edge : Bool) (active : Text) (size : Size) :
    Touches s (s.activate edge active size) :=
  (((show Touches s (s.noteChanges edge active) from rfl).trans
    (foldl_touches (turnOn_touches size) _ _)).trans
    (foldl_touches (turnOff_touches size) _ _)).trans (foldl_touches (pulse_touches size) _ _)

theorem configureAll_touches (s : Display) (size : Size) : Touches s (s.configureAll size) :=
  foldl_touches (f := fun s (t : ToplevelRec) => s.configureToplevel t.id size t.activated)
    (fun _ _ => rfl) _ _

theorem Touches.field (h : Touches s s') {β : Type*} (f : Display → β)
    (hf : ∀ (s : Display) ts es, f { s with toplevels := ts, sent := es } = f s) : f s' = f s := by
  rw [h, hf]

theorem Touches.shared (h : Touches s s') :
    s'.calls = s.calls ∧ s'.posted = s.posted ∧ s'.wayland = s.wayland := by
  rw [h]
  exact ⟨rfl, rfl, rfl⟩

end

theorem modifyToplevel_ids (s : Display) (id : Nat) {f : ToplevelRec → ToplevelRec}
    (hf : ∀ t, (f t).id = t.id) : (s.modifyToplevel id f).ids = s.ids := map_kept hf

section
variable {s s' : Display} {a : Action}

theorem Keyed.getToplevel (h : s.Keyed) (surface : Option Nat) : (s.getToplevel surface).Keyed := by
  have hids : (s.getToplevel surface).ids = s.ids ++ [s.nextToplevelId] := by
    simp [ids, Display.getToplevel]
  obtain ⟨hnd, hpos, hlt, hnext⟩ := h
  refine ⟨?_, ?_, ?_, Nat.succ_pos _⟩
  · rw [hids]
    refine nodup_append.mpr ⟨hnd, by simp, ?_⟩
    intro id hid id' hid'
    rw [mem_singleton.mp hid']
    exact (hlt id hid).ne
  · rw [hids]
    intro id hid
    rcases mem_append.mp hid with hid | hid
    · exact hpos id hid
    · rw [mem_singleton.mp hid]
      exact hnext
  · rw [hids]
    intro id hid
    show id < s.nextToplevelId + 1
    rcases mem_append.mp hid with hid | hid
    · exact (hlt id hid).trans (Nat.lt_succ_self _)
    · rw [mem_singleton.mp hid]
      exact Nat.lt_succ_self _

theorem mem_modifyToplevel {s : Display} {id : Nat} {f : ToplevelRec → ToplevelRec}
    {t' : ToplevelRec} (h : t' ∈ (s.modifyToplevel id f).toplevels) :
    ∃ t ∈ s.toplevels, t' = f t ∧ t.id = id ∨ t' = t ∧ t.id ≠ id := by
  obtain ⟨t, ht, rfl⟩ := mem_map.mp h
  refine ⟨t, ht, ?_⟩
  split_ifs with he
  · exact .inl ⟨rfl, he⟩
  · exact .inr ⟨rfl, he⟩

theorem nameToplevel_ids (s : Display) (id : Nat) (appId : Text) :
    (s.nameToplevel id appId).ids = s.ids :=
  modifyToplevel_ids s id fun _ => rfl

theorem noteToplevelSurface_ids (s : Display) (id surface : Nat) :
    (s.noteToplevelSurface id surface).ids = s.ids :=
  modifyToplevel_ids s id fun _ => rfl

theorem dropSurface_ids (s : Display) (surface : Nat) : (s.dropSurface surface).ids = s.ids :=
  map_kept fun _ => rfl

theorem Keyed.request {r : Request} (h : s.Keyed) (hr : Requested s r s') : s'.Keyed := by
  cases hr with
  | nothing => exact h
  | createSurface | getSubsurface | bindOutput | releaseOutput => exact h.of_ids rfl rfl
  | getToplevel => exact h.getToplevel _
  | destroyToplevel id =>
    have hsub : Sublist ((s.toplevels.filter fun t => t.id ≠ id).map fun t => t.id) s.ids :=
      filter_sublist.map _
    exact ⟨h.nodup.sublist hsub, fun i hi => h.pos i (hsub.subset hi),
      fun i hi => h.lt i (hsub.subset hi), h.next⟩
  | @setAppId id appId => exact h.of_ids (nameToplevel_ids s id appId) rfl
  | commit => exact h.of_ids (noteToplevelSurface_ids s _ _) rfl
  | destroySurface surface => exact h.of_ids (dropSurface_ids s surface) rfl

theorem Keyed.touches (h : s.Keyed) (hi : s'.ids = s.ids) (ht : Touches s s') : s'.Keyed :=
  h.of_ids hi (ht.field Display.nextToplevelId fun _ _ _ => rfl)

theorem Keyed.configureAll (h : s.Keyed) (size : Size) : (s.configureAll size).Keyed :=
  h.touches (by rw [ids, (configureAll_spec h size).1]; rfl) (configureAll_touches s size)

theorem Keyed.activate (h : s.Keyed) (edge : Bool) (active : Text) (size : Size) :
    (s.activate edge active size).Keyed :=
  h.touches (activate_ids h edge active size) (activate_touches s edge active size)

theorem clearActive_frame (s : Display) (window : Nat) :
    ∃ w p, s.clearActive window = { s with activeWindow := w, activePackage := p } := by
  unfold Display.clearActive
  split_ifs
  · exact ⟨_, _, rfl⟩
  · exact ⟨_, _, rfl⟩

theorem calls_split {i : Nat} {c : Call} (hi : s.calls[i]? = some c) :
    s.calls = s.calls.take i ++ c :: s.calls.drop (i + 1) := by
  obtain ⟨hlt, rfl⟩ := List.getElem?_eq_some_iff.mp hi
  rw [getElem_cons_drop, take_append_drop]

/-- The steps by what they can reach: what the host calls writes neither the toplevels, the surfaces
and the outputs nor what was sent. -/
inductive Reaches (s : Display) : Action → Display → Prop
  | request {r : Request} {s' : Display} (hr : Requested s r s') : Reaches s (.request r) s'
  | work (w : Work) (ws : List Work) : Reaches s .runPosted ({ s with posted := ws }.work w)
  | proceed {i : Instr} (hw : s.wayland = some i) : Reaches s .proceed (s.exec i)
  | host {a : Action} (windows nextWindowId outputSize activeWindow activePackage calls posted
    legacy) : Reaches s a { s with
        windows, nextWindowId, outputSize, activeWindow, activePackage, calls, posted, legacy }

theorem step_reaches (hs : s.step a = some s') : Reaches s a s' := by
  cases step_steps hs with
  | request hw hr => exact .request hr
  | runPosted hw hp => exact .work _ _
  | proceed hw => exact .proceed hw
  | attachWindow package size =>
    unfold Display.attachWindow
    split_ifs <;> exact .host ..
  | detachWindow window =>
    unfold Display.detachWindow
    split_ifs <;> exact .host ..
  | @clearActive i window hi =>
    obtain ⟨w, p, he⟩ := clearActive_frame s window
    rw [he]
    exact .host ..
  | setWindowActive window active =>
    unfold Display.setWindowActive
    split
    · exact .host ..
    · obtain ⟨w, p, he⟩ := clearActive_frame s window
      rw [he]
      cases active <;> exact .host ..
  | post | setOutputSurface | clearOutputSurface => exact .host ..

theorem Keyed.after_step (h : s.Keyed) (hs : s.step a = some s') : s'.Keyed := by
  cases step_reaches hs with
  | request hr => exact h.request hr
  | work w ws =>
    have h' : ({ s with posted := ws } : Display).Keyed := h.of_ids rfl rfl
    cases w with
    | attachWindow size resized =>
      simp only [Display.work]
      split_ifs
      · exact h'.configureAll size
      · exact h'
    | detachWindow | setWindowActive => exact h'.of_ids rfl rfl
  | @proceed i hw =>
    cases i with
    | activate edge active size => exact (h.activate edge active size).of_ids rfl rfl
    | readActive | readAttached | readSize | configureNew => exact h.of_ids rfl rfl
  | host => exact h.of_ids rfl rfl

theorem started_keyed (size : Size) (legacy : Bool) : (started size legacy).Keyed :=
  ⟨nodup_nil, by simp [ids, started], by simp [ids, started], Nat.one_pos⟩

end

end Display

end OniroSoc.Compositor

import OniroSoc.Compositor.Told

/-!
# Activation mirrors the window in front

What `ApplyActivation` wants of a toplevel depends on its name, the window in front and the legacy
output. `SetOutputSurface` and `ClearOutputSurface` do not run it again after they have changed the
last.
-/

namespace OniroSoc.Compositor
open Support List
open Server (packageOfAppId isHomePackage)

namespace Display

/-- The full-UI toplevel; otherwise not HOME, and the legacy output is attached, or the window in
front is bound to everything or to the toplevel's package. -/
def Wanted (s : Display) (t : Toplevel) : Prop :=
  packageOfAppId t.appId = [] ∨ t.home = false ∧ (s.legacy = true ∨ ∃ w ∈ s.windows,
    w.id = s.activeWindow ∧ (w.package = [] ∨ w.package = packageOfAppId t.appId))

def Call.reapplies : Call → Bool
  | .attachWindow .. => false
  | _ => true

def Work.reapplies : Work → Bool
  | .attachWindow .. => false
  | _ => true

def Reads (s : Display) : Prop :=
  (∃ c ∈ s.calls, c.reapplies = true) ∨ (∃ w ∈ s.posted, w.reapplies = true) ∨
    ∃ edge, s.wayland = some (.readActive edge)

def Looks (s : Display) : Prop :=
  s.Reads ∨ ∃ edge active size, s.wayland = some (.readAttached edge active size)

def Indifferent (s : Display) : Prop :=
  ∀ t ∈ s.toplevels, packageOfAppId t.appId = [] ∨ t.home = true ∨ s.activePackage = star ∨
    s.activePackage = packageOfAppId t.appId

def Announced (s : Display) : Action → Prop
  | .setOutputSurface ok => (s.legacy || ok) ≠ s.legacy → s.Looks ∨ s.Indifferent
  | .clearOutputSurface overlay ok =>
    (if overlay then s.legacy || ok else false) ≠ s.legacy → s.Looks ∨ s.Indifferent
  | _ => True

def frontPackage (w : Window) : Text := if w.package = [] then star else w.package

structure Fronted (s : Display) : Prop where
  nodup : (s.windows.map Window.id).Nodup
  pos : ∀ w ∈ s.windows, 0 < w.id
  lt : ∀ w ∈ s.windows, w.id < s.nextWindowId
  next : 0 < s.nextWindowId
  plain : ∀ w ∈ s.windows, w.package ≠ star
  front : (s.activeWindow = 0 ∧ s.activePackage = []) ∨ (∃ w ∈ s.windows, w.id = s.activeWindow ∧
    s.activePackage = frontPackage w) ∨ .erased s.activeWindow ∈ s.calls

def effective (s : Display) : Text := if s.legacy then star else s.activePackage

section
variable {s s' : Display} {a : Action}

namespace Fronted
variable (h : s.Fronted)
include h

theorem of_eq (hw : s'.windows = s.windows)
    (hn : s'.nextWindowId = s.nextWindowId) (ha : s'.activeWindow = s.activeWindow)
    (hp : s'.activePackage = s.activePackage)
    (hc : .erased s.activeWindow ∈ s.calls → .erased s.activeWindow ∈ s'.calls) : s'.Fronted := by
  obtain ⟨h₁, h₂, h₃, h₄, h₅, h₆⟩ := h
  refine ⟨hw ▸ h₁, hw ▸ h₂, hw ▸ hn ▸ h₃, hn ▸ h₄, hw ▸ h₅, ?_⟩
  rw [ha, hp, hw]
  exact h₆.imp_right (Or.imp_right hc)

theorem touches (ht : Touches s s') : s'.Fronted := by
  rw [ht]
  exact h.of_eq rfl rfl rfl rfl id

theorem attachWindow {package : Text} (hp : package ≠ star) (size : Size) :
    (s.attachWindow package size).Fronted := by
  unfold Display.attachWindow
  split_ifs
  swap
  · exact h
  obtain ⟨hnd, hpos, hlt, hnext, hplain, hfront⟩ := h
  have hmem : ∀ {w : Window}, w ∈ s.windows ++ [{ id := s.nextWindowId, package }] →
      w ∈ s.windows ∨ w = { id := s.nextWindowId, package } := by
    intro w hw
    simpa using hw
  refine ⟨?_, ?_, ?_, Nat.succ_pos _, ?_, ?_⟩
  · rw [map_append]
    refine nodup_append.mpr ⟨hnd, by simp, fun i hi j hj => ?_⟩
    obtain ⟨w, hw, rfl⟩ := mem_map.mp hi
    rw [mem_singleton.mp hj]
    exact (hlt w hw).ne
  · intro w hw
    rcases hmem hw with hw | rfl
    · exact hpos w hw
    · exact hnext
  · intro w hw
    rcases hmem hw with hw | rfl
    · exact (hlt w hw).trans (Nat.lt_succ_self _)
    · exact Nat.lt_succ_self _
  · intro w hw
    rcases hmem hw with hw | rfl
    · exact hplain w hw
    · exact hp
  · refine hfront.imp_right (Or.imp ?_ (mem_append_left _))
    rintro ⟨w, hw, he⟩
    exact ⟨w, mem_append_left _ hw, he⟩

theorem detachWindow (window : Nat) : (s.detachWindow window).Fronted := by
  unfold Display.detachWindow
  split_ifs
  swap
  · exact h
  have hsub : ∀ {w : Window}, w ∈ s.windows.filter (fun w => w.id ≠ window) → w ∈ s.windows :=
    mem_of_mem_filter
  refine ⟨h.nodup.sublist (filter_sublist.map _), fun w hw => h.pos w (hsub hw),
    fun w hw => h.lt w (hsub hw), h.next, fun w hw => h.plain w (hsub hw), ?_⟩
  rcases h.front with hf | ⟨w, hw, he, hp⟩ | hf
  · exact .inl hf
  · right
    by_cases hwin : w.id = window
    · right
      refine mem_append_right _ (mem_singleton.mpr ?_)
      rw [← hwin, he]
    · exact .inl ⟨w, mem_filter.mpr ⟨hw, by simpa using hwin⟩, he, hp⟩
  · exact .inr (.inr (mem_append_left _ hf))

theorem clearActive {i window : Nat}
    (hi : s.calls[i]? = some (.erased window)) :
    Fronted { s.clearActive window with calls := s.calls.set i (.detachWindow window) } := by
  unfold Display.clearActive
  split_ifs with he
  · exact { h with front := .inl ⟨rfl, rfl⟩ }
  · refine h.of_eq rfl rfl rfl rfl fun hm => ?_
    obtain ⟨hlt, -⟩ := List.getElem?_eq_some_iff.mp hi
    show _ ∈ s.calls.set i (.detachWindow window)
    rw [set_eq_take_append_cons_drop, if_pos hlt]
    rw [calls_split hi] at hm
    rcases mem_append.mp hm with hm | hm
    · exact mem_append_left _ hm
    · rcases mem_cons.mp hm with hm | hm
      · exact absurd (Call.erased.inj hm) he
      · exact mem_append_right _ (.tail _ hm)

theorem setWindowActive (window : Nat) (active : Bool) :
    (s.setWindowActive window active).Fronted := by
  unfold Display.setWindowActive
  split
  case h_1 => exact h
  case h_2 w hw =>
    have hm : w ∈ s.windows := mem_of_find?_eq_some hw
    have he : w.id = window := by simpa using find?_some hw
    cases active with
    | true =>
      exact { h with front := .inr (.inl ⟨w, hm, he, rfl⟩) }
    | false =>
      simp only [Display.clearActive, Bool.false_eq_true, if_false]
      split_ifs
      · exact { h with front := .inl ⟨rfl, rfl⟩ }
      · exact h.of_eq rfl rfl rfl rfl (mem_append_left _)

theorem post {i : Nat} {c : Call} {w : Work} (hi : s.calls[i]? = some c)
    (hc : c.work = some w) :
    Fronted { s with calls := s.calls.eraseIdx i, posted := s.posted ++ [w] } := by
  refine h.of_eq rfl rfl rfl rfl fun hm => ?_
  show _ ∈ s.calls.eraseIdx i
  rw [eraseIdx_eq_take_drop_succ]
  rw [calls_split hi] at hm
  rcases mem_append.mp hm with hm | hm
  · exact mem_append_left _ hm
  · rcases mem_cons.mp hm with rfl | hm
    · cases hc
    · exact mem_append_right _ hm

theorem want_iff (hc : s.calls = []) (t : Toplevel) :
    want s.effective t = true ↔ s.Wanted t := by
  by_cases hp : packageOfAppId t.appId = []
  · simp [want, Wanted, hp]
  by_cases hl : s.legacy = true
  · simp [want, Wanted, hp, effective, hl]
  simp only [want, ne_eq, hp, not_false_eq_true, if_true, Bool.and_eq_true, Bool.not_eq_true',
    Bool.or_eq_true, decide_eq_true_eq, effective, hl, Bool.false_eq_true, if_false, Wanted,
    false_or]
  refine and_congr_right fun _ => ?_
  rcases h.front with ⟨hz, ha⟩ | ⟨w, hw, he, ha⟩ | hm
  · rw [ha]
    constructor
    · rintro (hx | hx)
      · cases hx
      · exact absurd hx hp
    · rintro ⟨w, hw, he, -⟩
      exact absurd (he.trans hz) (h.pos w hw).ne'
  · have hone : ∀ w' ∈ s.windows, w'.id = s.activeWindow → w' = w := fun w' hw' he' =>
      inj_on_of_nodup_map h.nodup hw' hw (he'.trans he.symm)
    have hfront : (∃ w' ∈ s.windows, w'.id = s.activeWindow ∧ (w'.package = [] ∨ w'.package =
        packageOfAppId t.appId)) ↔ w.package = [] ∨ w.package = packageOfAppId t.appId := by
      constructor
      · rintro ⟨w', hw', he', hb⟩
        rwa [hone w' hw' he'] at hb
      · exact fun hb => ⟨w, hw, he, hb⟩
    rw [hfront, ha, frontPackage]
    split_ifs with hempty
    · simp [hempty]
    · simp [hempty, h.plain w hw, eq_comm]
  · rw [hc] at hm
    cases hm

end Fronted

end

def Mirrors (s : Display) : Option Instr → Prop
  | some (.readAttached _ active _) => active = s.activePackage
  | some (.activate _ active _) =>
    ∀ t ∈ s.toplevels, t.appId ≠ [] → want active t.toToplevel = want s.effective t.toToplevel
  | _ => ∀ t ∈ s.toplevels, t.appId ≠ [] → t.activated = want s.effective t.toToplevel

structure Mirroring (s : Display) : Prop where
  keyed : s.Keyed
  fronted : s.Fronted
  mirrors : s.Reads ∨ s.Mirrors s.wayland
  newborn : ∀ t ∈ s.toplevels, s.Newborn t.id → t.activated = false
  told : ∀ t ∈ s.toplevels, s.Newborn t.id ∨ ∃ size,
    lastConfigure s.sent t.id = some (size, t.activated)

section
variable {s s' : Display} {a : Action}

theorem Reads.of_eq (h : s.Reads) (hc : s'.calls = s.calls) (hp : s'.posted = s.posted)
    (hw : s'.wayland = s.wayland) : s'.Reads := by
  unfold Reads
  rwa [hc, hp, hw]

structure Same (t t' : ToplevelRec) : Prop where
  id : t'.id = t.id
  activated : t'.activated = t.activated

theorem not_newborn (hw : s.wayland = none) (id : Nat) : ¬ s.Newborn id := by
  rintro (hn | ⟨size, hn⟩) <;> simp [hw] at hn

variable {edge : Bool}

theorem not_newborn_of_reads (hw : s.wayland = some (.readActive edge)) (id : Nat) :
    ¬ s.Newborn id := by
  rintro (hn | ⟨size, hn⟩) <;> simp [hw] at hn

section
variable (h : s.Mirroring)
include h

theorem told_of_same (hw : s.wayland = none) (hsent : s'.sent = s.sent)
    {t t' : ToplevelRec} (ht : t ∈ s.toplevels) (hs : Same t t') :
    ∃ size, lastConfigure s'.sent t'.id = some (size, t'.activated) := by
  rw [hsent, hs.id, hs.activated]
  exact (h.told t ht).resolve_left (not_newborn hw t.id)

namespace Mirroring

theorem of_kept (hw : s.wayland = none) (hk : s'.Keyed) (hf : s'.Fronted) (hc :
    s'.calls = s.calls) (hp : s'.posted = s.posted) (hw' : s'.wayland = none)
    (he : s'.effective = s.effective)
    (hsent : s'.sent = s.sent) (hts : ∀ t' ∈ s'.toplevels, ∃ t ∈ s.toplevels, Same t t' ∧ t'.appId =
    t.appId ∧ t'.home = t.home) : s'.Mirroring := by
  refine ⟨hk, hf, ?_, fun t' _ hn => absurd hn (not_newborn hw' t'.id), fun t' ht' => ?_⟩
  · refine h.mirrors.imp (fun hr => hr.of_eq hc hp (hw'.trans hw.symm)) fun hm => ?_
    rw [hw] at hm
    rw [hw']
    intro t' ht' hn
    obtain ⟨t, ht, hs, ha, hh⟩ := hts t' ht'
    rw [hs.activated, he, hm t ht (ha ▸ hn)]
    unfold want
    rw [ha, hh]
  · obtain ⟨t, ht, hs, -, -⟩ := hts t' ht'
    exact .inr (told_of_same h hw hsent ht hs)

theorem of_reads (hw : s.wayland = none) (hk : s'.Keyed)
    (hf : s'.Fronted) (hw' : s'.wayland = some (.readActive edge)) (hsent : s'.sent = s.sent)
    (hts : ∀ t' ∈ s'.toplevels, ∃ t ∈ s.toplevels, Same t t') : s'.Mirroring := by
  refine ⟨hk, hf, .inl (.inr (.inr ⟨edge, hw'⟩)),
    fun t' _ hn => absurd hn (not_newborn_of_reads hw' t'.id), fun t' ht' => ?_⟩
  obtain ⟨t, ht, hs⟩ := hts t' ht'
  exact .inr (told_of_same h hw hsent ht hs)

theorem of_calls (hf : s'.Fronted) (ht : s'.toplevels = s.toplevels)
    (hn : s'.nextToplevelId = s.nextToplevelId) (hw : s'.wayland = s.wayland)
    (hsent : s'.sent = s.sent)
    (hm : s.Reads ∨ s.Mirrors s.wayland → s'.Reads ∨ s'.Mirrors s.wayland) : s'.Mirroring := by
  refine ⟨h.keyed.of_ids (by rw [ids, ids, ht]) hn, hf, by rw [hw]; exact hm h.mirrors, ?_, ?_⟩
  · unfold Newborn
    rw [ht, hw]
    exact h.newborn
  · unfold Newborn
    rw [ht, hw, hsent]
    exact h.told

theorem request {r : Request} (hw : s.wayland = none)
    (hr : Requested s r s') : s'.Mirroring := by
  have hk : s'.Keyed := h.keyed.request hr
  have hsame : ∀ t : ToplevelRec, Same t t := fun _ => ⟨rfl, rfl⟩
  cases hr with
  | nothing => exact h
  | createSurface | getSubsurface | bindOutput | releaseOutput =>
    exact h.of_kept hw hk (h.fronted.of_eq rfl rfl rfl rfl id) rfl rfl hw rfl rfl
      fun t ht => ⟨t, ht, hsame t, rfl, rfl⟩
  | @getToplevel surface surface' =>
    have hmem : ∀ t' ∈ (s.getToplevel surface').toplevels,
        t' ∈ s.toplevels ∨ t' = { id := s.nextToplevelId, surface := surface' } := by
      intro t' ht'
      simpa [Display.getToplevel] using ht'
    refine ⟨hk, h.fronted.of_eq rfl rfl rfl rfl id, ?_, fun t' ht' hn => ?_, fun t' ht' => ?_⟩
    · refine h.mirrors.imp (fun hr => ?_) fun hm t' ht' hn => ?_
      · refine hr.imp_right (Or.imp_right ?_)
        rintro ⟨edge, he⟩
        cases hw.symm.trans he
      · rw [hw] at hm
        rcases hmem t' ht' with ht' | rfl
        · exact hm t' ht' hn
        · exact absurd rfl hn
    · rcases hmem t' ht' with ht' | rfl
      · obtain hn | ⟨size, hn⟩ := hn
        · have he : s.nextToplevelId = t'.id := by simpa [Display.getToplevel] using hn
          exact absurd he (h.keyed.lt t'.id (mem_map_of_mem ht')).ne'
        · cases hn
      · rfl
    · rcases hmem t' ht' with ht' | rfl
      · exact .inr (told_of_same h hw rfl ht' (hsame t'))
      · exact .inl (.inl rfl)
  | destroyToplevel id =>
    exact h.of_kept hw hk (h.fronted.of_eq rfl rfl rfl rfl fun h => h) rfl rfl hw rfl rfl
      fun t ht => ⟨t, mem_of_mem_filter ht, hsame t, rfl, rfl⟩
  | @setAppId id appId =>
    refine h.of_reads hw hk (h.fronted.of_eq rfl rfl rfl rfl fun h => h) rfl rfl fun t' ht' => ?_
    obtain ⟨t, ht, ⟨rfl, -⟩ | ⟨rfl, -⟩⟩ := mem_modifyToplevel ht'
    · exact ⟨t, ht, rfl, rfl⟩
    · exact ⟨t', ht, hsame t'⟩
  | commit =>
    refine h.of_kept hw hk (h.fronted.of_eq rfl rfl rfl rfl fun h => h) rfl rfl hw rfl rfl
      fun t' ht' => ?_
    obtain ⟨t, ht, ⟨rfl, -⟩ | ⟨rfl, -⟩⟩ := mem_modifyToplevel ht'
    · exact ⟨t, ht, ⟨rfl, rfl⟩, rfl, rfl⟩
    · exact ⟨t', ht, hsame t', rfl, rfl⟩
  | destroySurface surface =>
    refine h.of_kept hw hk (h.fronted.of_eq rfl rfl rfl rfl fun h => h) rfl rfl hw rfl rfl
      fun t' ht' => ?_
    obtain ⟨t, ht, rfl⟩ := mem_map.mp ht'
    refine ⟨t, ht, ?_⟩
    split_ifs
    · exact ⟨⟨rfl, rfl⟩, rfl, rfl⟩
    · exact ⟨hsame t, rfl, rfl⟩

theorem configureAll (hw : s.wayland = none) (size : Size) :
    (s.configureAll size).Mirroring := by
  have htouch := configureAll_touches s size
  obtain ⟨hc, hp, hw'⟩ := htouch.shared
  have he := htouch.field effective fun _ _ _ => rfl
  obtain ⟨hts, htold⟩ := configureAll_spec h.keyed size
  refine ⟨h.keyed.configureAll size, h.fronted.touches htouch, ?_,
    fun t _ hn => absurd hn (not_newborn (hw'.trans hw) t.id), fun t ht => ?_⟩
  · refine h.mirrors.imp (fun hr => hr.of_eq hc hp hw') fun hm => ?_
    rw [hw] at hm
    rw [hw', hw]
    intro t ht hn
    rw [he]
    exact hm t (hts ▸ ht) hn
  · exact .inr ⟨size, htold t (hts ▸ ht)⟩

theorem runPosted {w : Work} {ws : List Work} (hw : s.wayland = none)
    (hp : s.posted = w :: ws) : ({ s with posted := ws }.work w).Mirroring := by
  have hsame : ∀ t : ToplevelRec, Same t t := fun _ => ⟨rfl, rfl⟩
  cases w with
  | attachWindow size resized =>
    have h' : ({ s with posted := ws } : Display).Mirroring := by
      refine h.of_calls (h.fronted.of_eq rfl rfl rfl rfl id) rfl rfl rfl rfl ?_
      refine Or.imp ?_ ?_
      · rintro (hc | ⟨w, hm, hr⟩ | hi)
        · exact .inl hc
        · rw [hp] at hm
          rcases mem_cons.mp hm with rfl | hm
          · cases hr
          · exact .inr (.inl ⟨w, hm, hr⟩)
        · exact .inr (.inr hi)
      · rw [hw]
        exact id
    cases resized with
    | false => exact h'
    | true => exact h'.configureAll hw size
  | detachWindow | setWindowActive =>
    exact h.of_reads hw (h.keyed.of_ids rfl rfl) (h.fronted.of_eq rfl rfl rfl rfl id) rfl rfl
      fun t ht => ⟨t, ht, hsame t⟩

end Mirroring

end

theorem mem_activate (h : s.Keyed) {active : Text} {size : Size} {t' : ToplevelRec}
    (ht' : t' ∈ (s.activate edge active size).toplevels) :
    ∃ t ∈ s.toplevels, t'.toToplevel = t.toToplevel ∧
      t'.activated = if t.appId ≠ [] then want active t.toToplevel else t.activated := by
  have hview : (t'.toToplevel, t'.activated) ∈ (s.activate edge active size).view :=
    mem_map.mpr ⟨t', ht', rfl⟩
  rw [activate_view h] at hview
  obtain ⟨p, hp, he⟩ := mem_map.mp hview
  obtain ⟨t, ht, rfl⟩ := mem_map.mp hp
  refine ⟨t, ht, ?_⟩
  by_cases hn : t.appId = []
  · simp only [hn, ne_eq, not_true_eq_false, if_false, Prod.mk.injEq] at he ⊢
    exact ⟨he.1.symm, he.2.symm⟩
  · simp only [hn, ne_eq, not_false_eq_true, if_true, Prod.mk.injEq] at he ⊢
    exact ⟨he.1.symm, he.2.symm⟩

theorem Mirroring.told_active (h : s.Mirroring) {i : Instr} (hw : s.wayland = some i)
    (hi : ∀ id, i ≠ .readSize id ∧ ∀ size, i ≠ .configureNew id size) :
    ∀ t ∈ s.toplevels, ∃ size, lastConfigure s.sent t.id = some (size, t.activated) := by
  intro t ht
  refine (h.told t ht).resolve_left ?_
  rintro (hn | ⟨size, hn⟩)
  · exact (hi t.id).1 (Option.mem_unique hw hn)
  · exact (hi t.id).2 size (Option.mem_unique hw hn)

theorem Mirroring.activate {active : Text} {size : Size} (h : s.Mirroring)
    (hw : s.wayland = some (.activate edge active size)) :
    Mirroring { s.activate edge active size with wayland := none } := by
  have htouch := activate_touches s edge active size
  obtain ⟨hc, hp, -⟩ := htouch.shared
  have he := htouch.field effective fun _ _ _ => rfl
  have hf : (s.activate edge active size).Fronted := h.fronted.touches htouch
  refine ⟨(h.keyed.activate edge active size).of_ids rfl rfl, hf.of_eq rfl rfl rfl rfl id, ?_,
    fun t' _ hn => absurd hn (not_newborn rfl t'.id), fun t' ht' => .inr ?_⟩
  · refine h.mirrors.imp ?_ fun hm t' ht' hn => ?_
    · rintro (hr | hr | ⟨edge', hr⟩)
      · exact .inl (hc ▸ hr)
      · exact .inr (.inl (hp ▸ hr))
      · cases hw.symm.trans hr
    · rw [hw] at hm
      obtain ⟨t, ht, hts, ha⟩ := mem_activate h.keyed ht'
      have hn' : t.appId ≠ [] := hts ▸ hn
      rw [ha, if_pos hn', hm t ht hn', ← hts]
      exact congrArg (want · t'.toToplevel) he.symm
  · obtain ⟨t, ht, hts, ha⟩ := mem_activate h.keyed ht'
    have hid : t'.id = t.id := congrArg Toplevel.id hts
    obtain ⟨z, hz⟩ := h.told_active hw (by simp) t ht
    show ∃ z, lastConfigure (s.activate edge active size).sent t'.id = some (z, t'.activated)
    rw [hid, activate_last h.keyed edge active size ht, ha]
    by_cases hn : t.appId = []
    · have hch : changes edge active t = false := by simp [changes, hn]
      have hpu : pulses edge active t = false := by simp [pulses, hn]
      exact ⟨z, by simp [hch, hpu, hn, hz]⟩
    · cases hch : changes edge active t with
      | true => exact ⟨size, by simp [hn]⟩
      | false =>
        cases hpu : pulses edge active t with
        | true => exact ⟨size, by simp [hn]⟩
        | false =>
          refine ⟨z, ?_⟩
          simp only [Bool.or_self, Bool.false_eq_true, if_false, ne_eq, hn, not_false_eq_true, if_true]
          rw [hz, activated_of_not_changes hn hch]

theorem Mirroring.proceed {i : Instr} (h : s.Mirroring) (hw : s.wayland = some i) :
    (s.exec i).Mirroring := by
  -- Nothing is read off `wayland` by the calls and the posted work.
  have hreads : ∀ w : Option Instr, (∀ edge, i ≠ .readActive edge) → s.Reads →
      ({ s with wayland := w } : Display).Reads := by
    rintro w hi (hr | hr | ⟨edge, hr⟩)
    · exact .inl hr
    · exact .inr (.inl hr)
    · exact absurd (Option.mem_unique hw hr) (hi edge)
  have hkeyed : ∀ {s' : Display}, s'.toplevels = s.toplevels →
      s'.nextToplevelId = s.nextToplevelId → s'.Keyed :=
    fun ht hn => h.keyed.of_ids (by rw [ids, ids, ht]) hn
  have hmirrors := h.mirrors
  rw [hw] at hmirrors
  cases i with
  | readActive edge =>
    refine ⟨hkeyed rfl rfl, h.fronted.of_eq rfl rfl rfl rfl id, .inr rfl, ?_,
      fun t ht => .inr (h.told_active hw (by simp) t ht)⟩
    rintro t - (hn | ⟨size, hn⟩) <;> cases hn
  | readAttached edge active size =>
    refine ⟨hkeyed rfl rfl, h.fronted.of_eq rfl rfl rfl rfl id,
      hmirrors.imp (hreads _ (by simp)) ?_, ?_, fun t ht => .inr (h.told_active hw (by simp) t ht)⟩
    · rintro rfl t - -
      rfl
    · rintro t - (hn | ⟨size, hn⟩) <;> cases hn
  | activate edge active size => exact h.activate hw
  | readSize id =>
    have hborn : ∀ id', (s.exec (.readSize id)).Newborn id' → s.Newborn id' := by
      rintro id' (hn | ⟨size, hn⟩) <;> cases hn
      exact .inl hw
    refine ⟨hkeyed rfl rfl, h.fronted.of_eq rfl rfl rfl rfl fun h => h,
      hmirrors.imp (hreads _ (by simp)) fun hm
      => hm, fun t ht hn => h.newborn t ht (hborn t.id hn), fun t ht => ?_⟩
    refine (h.told t ht).imp_left fun hn => .inr ⟨s.outputSize, ?_⟩
    rcases hn with hn | ⟨size, hn⟩ <;> cases hw.symm.trans hn
    rfl
  | configureNew id size =>
    refine ⟨hkeyed rfl rfl, h.fronted.of_eq rfl rfl rfl rfl fun h => h,
      hmirrors.imp (hreads _ (by simp)) fun hm
      => hm, fun t _ hn => absurd hn (not_newborn rfl t.id), fun t ht => .inr ?_⟩
    by_cases he : id = t.id
    · have ha : t.activated = false := h.newborn t ht (.inr ⟨size, he ▸ hw⟩)
      exact ⟨size, by simp [exec, lastConfigure, he, ha]⟩
    · obtain (hn | ⟨z, hn⟩) | ⟨z, hz⟩ := h.told t ht
      · cases hw.symm.trans hn
      · cases hw.symm.trans hn
        exact absurd rfl he
      · refine ⟨z, ?_⟩
        simp only [lastConfigure] at hz
        simp [exec, lastConfigure, he, hz]

theorem Reads.of_call {c : Call} (hm : c ∈ s.calls) (hc : c.reapplies = true) : s.Reads :=
  .inl ⟨c, hm, hc⟩

theorem Mirroring.attachWindow (h : s.Mirroring) {package : Text} (hp : package ≠ star)
    (size : Size) : (s.attachWindow package size).Mirroring := by
  have hf := h.fronted.attachWindow hp size
  unfold Display.attachWindow at hf ⊢
  split_ifs at hf ⊢
  · refine h.of_calls hf rfl rfl rfl rfl (Or.imp ?_ fun hm => ?_)
    · rintro (⟨c, hc, hr⟩ | hr)
      · exact .of_call (mem_append_left _ hc) hr
      · exact .inr hr
    · rwa [show ∀ i, Mirrors _ i = s.Mirrors i from fun i => by rcases i with _ | ⟨⟨⟩⟩ <;> rfl]
  · exact h

theorem Mirroring.detachWindow (h : s.Mirroring) (window : Nat) :
    (s.detachWindow window).Mirroring := by
  have hf := h.fronted.detachWindow window
  unfold Display.detachWindow at hf ⊢
  split_ifs at hf ⊢
  · exact h.of_calls hf rfl rfl rfl rfl fun _ =>
      .inl (.of_call (mem_append_right _ (mem_singleton_self _)) rfl)
  · exact h

theorem Mirroring.clearActive {i window : Nat} (h : s.Mirroring)
    (hi : s.calls[i]? = some (.erased window)) :
    Mirroring { s.clearActive window with calls := s.calls.set i (.detachWindow window) } := by
  have hf := h.fronted.clearActive hi
  obtain ⟨w, p, he⟩ := clearActive_frame s window
  rw [he] at hf ⊢
  obtain ⟨hlt, -⟩ := List.getElem?_eq_some_iff.mp hi
  exact h.of_calls hf rfl rfl rfl rfl fun _ =>
    .inl (.of_call (mem_set hlt (.detachWindow window)) rfl)

theorem Mirroring.setWindowActive (h : s.Mirroring) (window : Nat) (active : Bool) :
    (s.setWindowActive window active).Mirroring := by
  have hf := h.fronted.setWindowActive window active
  unfold Display.setWindowActive at hf ⊢
  split at hf
  · exact h
  · obtain ⟨w, p, he⟩ := clearActive_frame s window
    dsimp only at hf ⊢
    rw [he] at hf ⊢
    cases active <;> exact h.of_calls hf rfl rfl rfl rfl fun _ =>
      .inl (.of_call (mem_append_right _ (mem_singleton_self _)) rfl)

theorem Call.work_reapplies {c : Call} {w : Work} (h : c.work = some w) :
    w.reapplies = c.reapplies := by
  cases c with
  | erased => cases h
  | attachWindow | detachWindow | setWindowActive => cases h; rfl

theorem Mirroring.post {i : Nat} {c : Call} {w : Work} (h : s.Mirroring)
    (hi : s.calls[i]? = some c) (hc : c.work = some w) :
    Mirroring { s with calls := s.calls.eraseIdx i, posted := s.posted ++ [w] } := by
  refine h.of_calls (h.fronted.post hi hc) rfl rfl rfl rfl (Or.imp ?_ fun hm => ?_)
  · rintro (⟨c', hm, hr⟩ | ⟨w', hm, hr⟩ | hr)
    · rw [calls_split hi] at hm
      rcases mem_append.mp hm with hm | hm
      · refine .of_call ?_ hr
        show c' ∈ s.calls.eraseIdx i
        rw [eraseIdx_eq_take_drop_succ]
        exact mem_append_left _ hm
      · rcases mem_cons.mp hm with rfl | hm
        · exact .inr (.inl ⟨w, mem_append_right _ (mem_singleton_self w),
            (Call.work_reapplies hc).trans hr⟩)
        · refine .of_call ?_ hr
          show c' ∈ s.calls.eraseIdx i
          rw [eraseIdx_eq_take_drop_succ]
          exact mem_append_right _ hm
    · exact .inr (.inl ⟨w', mem_append_left _ hm, hr⟩)
    · exact .inr (.inr hr)
  · rwa [show ∀ i, Mirrors _ i = s.Mirrors i from fun i => by rcases i with _ | ⟨⟨⟩⟩ <;> rfl]

theorem want_of_indifferent (h : s.Indifferent) {t : ToplevelRec} (ht : t ∈ s.toplevels)
    (b : Bool) :
    want (if b then star else s.activePackage) t.toToplevel = want s.effective t.toToplevel := by
  have hstar : want s.activePackage t.toToplevel = want star t.toToplevel := by
    rcases h t ht with hp | hh | ha | ha
    · simp [want, hp]
    · simp [want, hh]
    · rw [ha]
    · simp [want, ha]
  unfold effective
  cases b <;> cases s.legacy <;> simp [hstar]

theorem Mirroring.legacy (h : s.Mirroring) {b : Bool}
    (hok : b ≠ s.legacy → s.Looks ∨ s.Indifferent) : Mirroring { s with legacy := b } := by
  refine h.of_calls (h.fronted.of_eq rfl rfl rfl rfl id) rfl rfl rfl rfl ?_
  by_cases hb : b = s.legacy
  · subst hb
    exact id
  rcases hok hb with (hr | ⟨edge, active, size, hw⟩) | hind
  · exact fun _ => .inl (hr.of_eq rfl rfl rfl)
  · refine Or.imp (fun hr => hr.of_eq rfl rfl rfl) fun hm => ?_
    rw [hw] at hm ⊢
    exact hm
  · refine Or.imp (fun hr => hr.of_eq rfl rfl rfl) fun hm => ?_
    have hwant : ∀ t ∈ s.toplevels, want ({ s with legacy := b } : Display).effective t.toToplevel =
        want s.effective t.toToplevel := fun t ht => want_of_indifferent hind ht b
    rcases hw : s.wayland with _ | ⟨⟨⟩⟩ <;> rw [hw] at hm
    all_goals first
      | exact hm
      | exact fun t ht hn => (hm t ht hn).trans (hwant t ht).symm

theorem Mirroring.after_step (h : s.Mirroring) (hok : s.Announced a) (hs : s.step a = some s') :
    s'.Mirroring := by
  cases step_steps hs with
  | request hw hr => exact h.request hw hr
  | runPosted hw hp => exact h.runPosted hw hp
  | proceed hw => exact h.proceed hw
  | attachWindow size hp =>
    refine h.attachWindow ?_ size
    rintro rfl
    revert hp
    decide
  | detachWindow window => exact h.detachWindow window
  | clearActive hi => exact h.clearActive hi
  | setWindowActive window active => exact h.setWindowActive window active
  | post hi hc => exact h.post hi hc
  | setOutputSurface ok => exact h.legacy hok
  | clearOutputSurface overlay ok => exact h.legacy hok

end

theorem started_mirroring (size : Size) (legacy : Bool) : (started size legacy).Mirroring := by
  refine ⟨started_keyed size legacy, ?_, .inr (by simp [started, Mirrors]), by simp [started],
    by simp [started]⟩
  exact ⟨nodup_nil, by simp [started], by simp [started], Nat.one_pos, by simp [started],
    .inl ⟨rfl, rfl⟩⟩

/-- **Activation mirrors the window in front**: once all posted work has run, a toplevel with a name
is activated exactly if it is wanted, and its last configure says so. -/
theorem activation_mirrors {size : Size} {legacy : Bool} {as : List Action} {s : Display}
    (h : run step (started size legacy) as = some s)
    (hok : Along step Announced (started size legacy) as) (hs : s.Settled) :
    ∀ t ∈ s.toplevels, t.appId ≠ [] →
        (t.activated = true ↔ s.Wanted t.toToplevel) ∧
        ∃ size', lastConfigure s.sent t.id = some (size', t.activated) := by
  have hm : s.Mirroring :=
    run_invariant_along (fun _ _ _ hs hok h₁ => hs.after_step hok h₁) hok h
      (started_mirroring size legacy)
  have hreads : ¬ s.Reads := by
    rintro (⟨c, hc, -⟩ | ⟨w, hw, -⟩ | ⟨edge, he⟩)
    · simp [hs.calls] at hc
    · simp [hs.posted] at hw
    · simp [hs.wayland] at he
  intro t ht hn
  have hwant : t.activated = want s.effective t.toToplevel := by
    have := hm.mirrors.resolve_left hreads
    rw [hs.wayland] at this
    exact this t ht hn
  refine ⟨?_, (hm.told t ht).resolve_left (not_newborn hs.wayland t.id)⟩
  rw [hwant]
  exact hm.fronted.want_iff hs.calls t.toToplevel

def inFront : List Action :=
  [.request (.getToplevel none), .proceed, .proceed,
    .request (.setAppId 1 "waydroid.app".toList), .proceed, .proceed, .proceed,
    .attachWindow "app".toList (500, 600), .setWindowActive 1 true, .post 0, .post 0, .runPosted,
    .runPosted, .proceed, .proceed, .proceed]

theorem activation_mirrors_inFront : ∃ s, run step (started (1080, 2400) false) inFront = some s ∧
      ∀ t ∈ s.toplevels, t.appId ≠ [] → (t.activated = true ↔ s.Wanted t.toToplevel) ∧
        ∃ size', lastConfigure s.sent t.id = some (size', t.activated) := by
  refine ⟨_, rfl, @activation_mirrors (1080, 2400) false inFront _ rfl ?_ ⟨rfl, rfl, rfl⟩⟩
  exact along_of_forall (by simp [inFront, Announced]) _

def shownOnLegacy : List Action :=
  [.request (.getToplevel none), .proceed, .proceed,
    .request (.setAppId 1 "waydroid.app".toList), .proceed, .proceed, .proceed,
    .setOutputSurface true]

theorem legacy_not_activated :
    ∃ s, run step (started (1080, 2400) false) shownOnLegacy = some s ∧ s.Settled ∧
      ∃ t ∈ s.toplevels, t.appId ≠ [] ∧ t.activated = false ∧ s.Wanted t.toToplevel := by
  refine ⟨_, rfl, ⟨rfl, rfl, rfl⟩, _, mem_singleton_self _, by decide, by decide, ?_⟩
  exact .inr ⟨by decide, .inl rfl⟩

end Display

end OniroSoc.Compositor

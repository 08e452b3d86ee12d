import OniroSoc.Compositor.Stages

/-!
# Whose surface a window's input goes to

A touch or a key on a window is meant for the toplevel whose frames the window showed last
(`System.Shows`). Where that presents on no surface, the code falls back on the surface of the last
frame of any client.
-/

namespace OniroSoc.Compositor
open Support List Option

namespace Server

def Exclusive (s : Server) (t : Toplevel) (surface : Nat) : Prop :=
  ∀ t' ∈ s.toplevels, t'.surface = some surface → packageOfAppId t'.appId = packageOfAppId t.appId

def Addressed (s : Server) (toplevelId : Nat) (e : InputEvent) : Prop :=
  ∃ t, s.toplevel toplevelId = some t ∧ t.surface = some e.surface ∧ s.Exclusive t e.surface

/-- The toplevel is still there, and has a surface to itself. -/
def Presents (s : Server) (toplevelId : Nat) : Prop :=
  ∃ t surface, s.toplevel toplevelId = some t ∧ t.surface = some surface ∧ s.Exclusive t surface

def Hears (s : Server) (rs : List Resource) (w : Window) : Prop :=
  ∃ surface, s.keySurface w = some surface ∧ ofClient rs (s.clientOf surface) ≠ []

section
variable {s : Server} {window : Nat} {w : Window} {e : InputEvent}

theorem mem_drainTouchOps :
    e ∈ s.drainTouchOps.2 ↔
      ∃ surface, s.inputSurface = some surface ∧
        ∃ op ∈ s.touchPending,
          ∃ r ∈ ofClient s.touchResources (s.clientOf surface), e = ⟨r, surface, .touch op⟩ := by
  unfold drainTouchOps
  cases s.inputSurface with
  | none => simp
  | some surface => simp [eq_comm]

theorem mem_windowTouch {action id x y : Int} (hw : s.window window = some w) :
    e ∈ (s.windowTouch window action id x y).2 ↔
      ∃ surface, s.keySurface w = some surface ∧
        ∃ op ∈ s.touchPending ++ touchOps action id x y,
          ∃ r ∈ ofClient s.touchResources (s.clientOf surface), e = ⟨r, surface, .touch op⟩ := by
  simp only [windowTouch, hw, mem_drainTouchOps, keySurface]
  cases (s.toplevel w.toplevelId).bind Toplevel.surface <;> rfl

theorem mem_sendKeyboardFocus {surface : Nat} :
    e ∈ (s.sendKeyboardFocus surface).2 ↔
      s.keyboardFocus ≠ some surface ∧
      ∃ r ∈ ofClient s.keyboardResources (s.clientOf surface),
        (∃ old, s.keyboardFocus = some old ∧ e = ⟨r, old, .leave⟩) ∨
        e = ⟨r, surface, .enter⟩ ∨
        e = ⟨r, surface, .modifiers⟩ := by
  unfold sendKeyboardFocus
  split
  case isTrue h => simp [h]
  case isFalse h =>
    cases hf : s.keyboardFocus with
    | none => simp
    | some old =>
      rw [hf] at h
      simp [Option.some.injEq] at h ⊢
      simp [h]

theorem mem_windowKey {code : Int} {down : Bool} (hw : s.window window = some w) :
    e ∈ (s.windowKey window code down).2 ↔
      ∃ surface, s.keySurface w = some surface ∧
        (e ∈ (s.sendKeyboardFocus surface).2 ∨
         ∃ r ∈ ofClient s.keyboardResources (s.clientOf surface),
          e = ⟨r, surface, .key code down⟩) := by
  simp only [windowKey, hw]
  cases s.keySurface w with
  | none => simp
  | some surface =>
    by_cases hk : s.keyboardResources = []
    · simp [hk, mem_sendKeyboardFocus, ofClient]
    · simp [hk, eq_comm]

end

section
variable {s : Server} {window : Nat} {w : Window} {e : InputEvent}

theorem Presents.addressed (h : s.Presents w.toplevelId) {surface : Nat}
    (hs : s.keySurface w = some surface) (he : e.surface = surface) :
    s.Addressed w.toplevelId e := by
  obtain ⟨t, own, ht, hown, hex⟩ := h
  have hkey : s.keySurface w = some own := by simp [keySurface, ht, hown]
  obtain rfl : own = surface := Option.mem_unique hkey hs
  exact ⟨t, ht, by rw [hown, he], by rw [he]; exact hex⟩

theorem Addressed.presents {toplevelId : Nat} (h : s.Addressed toplevelId e) :
    s.Presents toplevelId := by
  obtain ⟨t, ht, hsurface, hex⟩ := h
  exact ⟨t, e.surface, ht, hsurface, hex⟩

theorem Addressed.surface_eq (h : s.Addressed w.toplevelId e) {surface : Nat}
    (hs : s.keySurface w = some surface) : e.surface = surface := by
  obtain ⟨t, ht, hsurface, -⟩ := h
  have hkey : s.keySurface w = some e.surface := by simp [keySurface, ht, hsurface]
  exact Option.mem_unique hkey hs

theorem windowTouch_addressed_iff {action id x y : Int} (hw : s.window window = some w) :
    (∀ e ∈ (s.windowTouch window action id x y).2, s.Addressed w.toplevelId e) ↔
      s.Presents w.toplevelId ∨ s.touchPending ++ touchOps action id x y = [] ∨
      ¬ s.Hears s.touchResources w := by
  constructor
  · intro hall
    by_contra hno
    simp only [not_or, not_not] at hno
    obtain ⟨hp, hops, surface, hs, hrs⟩ := hno
    obtain ⟨op, hop⟩ := exists_mem_of_ne_nil _ hops
    obtain ⟨r, hr⟩ := exists_mem_of_ne_nil _ hrs
    exact hp (hall _ ((mem_windowTouch hw).mpr ⟨surface, hs, op, hop, r, hr, rfl⟩)).presents
  · intro h e he
    obtain ⟨surface, hs, op, hop, r, hr, rfl⟩ := (mem_windowTouch hw).mp he
    rcases h with hp | hops | hdeaf
    · exact hp.addressed hs rfl
    · rw [hops] at hop
      cases hop
    · exact absurd ⟨surface, hs, ne_nil_of_mem hr⟩ hdeaf

variable {code : Int} {down : Bool}

theorem windowKey_addressed_iff (hw : s.window window = some w) :
    (∀ e ∈ (s.windowKey window code down).2, e.kind ≠ .leave → s.Addressed w.toplevelId e) ↔
      s.Presents w.toplevelId ∨ ¬ s.Hears s.keyboardResources w := by
  constructor
  · intro hall
    by_contra hno
    simp only [not_or, not_not] at hno
    obtain ⟨hp, surface, hs, hrs⟩ := hno
    obtain ⟨r, hr⟩ := exists_mem_of_ne_nil _ hrs
    have hkey : ⟨r, surface, .key code down⟩ ∈ (s.windowKey window code down).2 :=
      (mem_windowKey hw).mpr ⟨surface, hs, .inr ⟨r, hr, rfl⟩⟩
    exact hp (hall _ hkey (by simp)).presents
  · intro h e he hleave
    obtain ⟨surface, hs, he⟩ := (mem_windowKey hw).mp he
    have hsurface : e.surface = surface ∧ ofClient s.keyboardResources (s.clientOf surface) ≠ [] :=
      by
      rcases he with he | ⟨r, hr, rfl⟩
      · obtain ⟨-, r, hr, ⟨old, -, rfl⟩ | rfl | rfl⟩ := mem_sendKeyboardFocus.mp he
        · exact absurd rfl hleave
        all_goals exact ⟨rfl, ne_nil_of_mem hr⟩
      · exact ⟨rfl, ne_nil_of_mem hr⟩
    rcases h with hp | hdeaf
    · exact hp.addressed hs hsurface.1
    · exact absurd ⟨surface, hs, hsurface.2⟩ hdeaf

theorem windowKey_leave_iff (hw : s.window window = some w) :
    (∀ e ∈ (s.windowKey window code down).2, e.kind = .leave → s.Addressed w.toplevelId e) ↔
      (∀ old, s.keyboardFocus = some old → s.keySurface w = some old) ∨
      ¬ s.Hears s.keyboardResources w := by
  constructor
  · intro hall
    by_contra hno
    simp only [not_or, not_not, not_forall] at hno
    obtain ⟨⟨old, hold, hne⟩, surface, hs, hrs⟩ := hno
    obtain ⟨r, hr⟩ := exists_mem_of_ne_nil _ hrs
    have hfocus : s.keyboardFocus ≠ some surface := fun h => hne (by rw [hs, ← h, hold])
    have hleave : ⟨r, old, .leave⟩ ∈ (s.windowKey window code down).2 :=
      (mem_windowKey hw).mpr ⟨surface, hs, .inl
        (mem_sendKeyboardFocus.mpr ⟨hfocus, r, hr, .inl ⟨old, hold, rfl⟩⟩)⟩
    have hsurface : old = surface := (hall _ hleave rfl).surface_eq hs
    exact hfocus (hsurface ▸ hold)
  · intro h e he hleave
    obtain ⟨surface, hs, he⟩ := (mem_windowKey hw).mp he
    rcases he with he | ⟨r, hr, rfl⟩
    · obtain ⟨hfocus, r, hr, ⟨old, hold, rfl⟩ | rfl | rfl⟩ := mem_sendKeyboardFocus.mp he
      · rcases h with hown | hdeaf
        · rw [hs.symm.trans (hown old hold)] at hfocus
          exact absurd hold hfocus
        · exact absurd ⟨surface, hs, ne_nil_of_mem hr⟩ hdeaf
      all_goals cases hleave
    · cases hleave

theorem windowKey_all_addressed_iff (hw : s.window window = some w) :
    (∀ e ∈ (s.windowKey window code down).2, s.Addressed w.toplevelId e) ↔
      (s.Presents w.toplevelId ∧ ∀ old, s.keyboardFocus = some old → s.keySurface w = some old) ∨
      ¬ s.Hears s.keyboardResources w := by
  constructor
  · intro hall
    have hkey := (windowKey_addressed_iff hw).mp fun e he _ => hall e he
    have hleave := (windowKey_leave_iff hw).mp fun e he _ => hall e he
    rcases hkey with hp | hdeaf
    · exact hleave.imp_left fun hfocus => ⟨hp, hfocus⟩
    · exact .inr hdeaf
  · intro h e he
    by_cases hl : e.kind = .leave
    · exact (windowKey_leave_iff hw).mpr (h.imp_left And.right) e he hl
    · exact (windowKey_addressed_iff hw).mpr (h.imp_left And.left) e he hl

end

end Server

namespace System

def frameOf (s : System) (w : Nat) : Action → Option Nat
  | .commit surface _ (some w') _ =>
    if w' = w then (s.server.surfaces.find? fun x => x.id = surface).map Surface.toplevelId
      else none
  | _ => none

def lastShown : (Nat → Nat) → System → List Action → Nat → Nat
  | shown, _, [] => shown
  | shown, s, a :: as =>
    match s.step a with
    | some s' => lastShown (fun w => (s.frameOf w a).getD (shown w)) s' as
    | none => shown

structure Shows (s : System) (shown : Nat → Nat) : Prop where
  next : 0 < s.server.nextWindowId
  windows : ∀ w ∈ s.server.windows, w.id < s.server.nextWindowId ∧ w.toplevelId = shown w.id
  fresh : ∀ id, s.server.nextWindowId ≤ id → shown id = 0

end System

theorem Server.windowTouch_windows (s : Server) (window : Nat) (action id x y : Int) :
    (s.windowTouch window action id x y).1.windows = s.windows ∧
      (s.windowTouch window action id x y).1.nextWindowId = s.nextWindowId := by
  unfold Server.windowTouch
  split
  · exact ⟨rfl, rfl⟩
  · dsimp only
    split <;> exact ⟨rfl, rfl⟩

theorem Server.windowKey_windows (s : Server) (window : Nat) (code : Int) (down : Bool) :
    (s.windowKey window code down).1.windows = s.windows ∧
    (s.windowKey window code down).1.nextWindowId = s.nextWindowId := by
  unfold Server.windowKey Server.sendKeyboardFocus
  split
  · exact ⟨rfl, rfl⟩
  · split
    · exact ⟨rfl, rfl⟩
    · split
      · exact ⟨rfl, rfl⟩
      · dsimp only
        split <;> exact ⟨rfl, rfl⟩

def System.Showing (s : System) (a : System.Action) (server : Server) : Prop :=
  server.nextWindowId = s.server.nextWindowId ∧ ∀ w' ∈ server.windows, ∃ w ∈ s.server.windows,
    w'.id = w.id ∧ w'.toplevelId = (s.frameOf w.id a).getD w.toplevelId

section
variable {s s' : System} {a : System.Action}

namespace System

theorem Showing.of_eq {server : Server} (hn : server.nextWindowId = s.server.nextWindowId)
    (hw : server.windows = s.server.windows) (ha : ∀ w, s.frameOf w a = none) :
    s.Showing a server :=
  ⟨hn, fun w hm => ⟨w, hw ▸ hm, rfl, by rw [ha, getD_none]⟩⟩

theorem showing_commit {surface b : Nat} {output : Option Nat} {imported : Bool}
    {x : Surface} (hx : s.server.surfaces.find? (fun x => x.id = surface) = some x) :
    s.Showing (.commit surface b output imported) (s.commit x b output imported).server := by
  have hnote : s.Showing (.commit surface b output imported) (noteFrame s.server x output) := by
    refine ⟨rfl, fun w' hw' => ?_⟩
    obtain ⟨w, hw, rfl⟩ := List.mem_map.mp hw'
    refine ⟨w, hw, ?_⟩
    cases output with
    | none => simp [frameOf]
    | some o =>
      by_cases ho : w.id = o
      · simp [frameOf, ho, hx]
      · simp [frameOf, ho, Ne.symm ho]
  cases output with
  | none => exact hnote
  | some o => cases imported <;> exact hnote

theorem showing_runPosted (h : s.step .runPosted = some s') :
    s.Showing .runPosted s'.server := by
  simp only [step] at h
  split at h
  case h_2 => cases h
  case h_1 _ _ t ts hw hp =>
    cases h
    cases t with
    | detach w => exact .of_eq rfl rfl fun _ => rfl
    | touch window action id x y =>
      obtain ⟨hw, hn⟩ := { s.server with posted := ts }.windowTouch_windows window action id x y
      exact .of_eq hn hw fun _ => rfl
    | key window code down =>
      obtain ⟨hw, hn⟩ := { s.server with posted := ts }.windowKey_windows window code down
      exact .of_eq hn hw fun _ => rfl

theorem step_showing (h : s.step a = some s') :
    (∃ package, a = .attachWindow package ∧ s'.server = s.server.attachWindow package) ∨
    s.Showing a s'.server := by
  cases a with
  | commit surface b output imported =>
    simp only [step] at h
    split at h
    · obtain ⟨-, ⟨⟩⟩ := ite_none_right_eq_some.mp h
      exact .inr (showing_commit ‹_›)
    · cases h
  | runPosted => exact .inr (showing_runPosted h)
  | request r =>
    obtain ⟨-, ⟨⟩⟩ := ite_none_right_eq_some.mp h
    right
    cases r <;> exact .of_eq rfl rfl fun _ => rfl
  | commitShm | drainReleases | destroyBuffer | drainTouchOps | windowInput =>
    obtain ⟨-, ⟨⟩⟩ := ite_none_right_eq_some.mp h
    exact .inr (.of_eq rfl rfl fun _ => rfl)
  | injectTouchOps | attachLegacy | clearOutputSurface =>
    cases h
    exact .inr (.of_eq rfl rfl fun _ => rfl)
  | wayland o =>
    cases step_steps h with
    | wayland _ _ hexec =>
      obtain ⟨-, hw, hn⟩ := hexec.server_frame
      exact .inr (.of_eq hn hw fun _ => rfl)
    | commitDropped ha | quiet ha => cases ha
  | ipc k o =>
    cases step_steps h with
    | ipc _ _ hexec =>
      obtain ⟨-, hw, hn⟩ := hexec.server_frame
      exact .inr (.of_eq hn hw fun _ => rfl)
    | commitDropped ha | quiet ha => cases ha
  | bufferReleased b =>
    obtain ⟨-, ⟨⟩⟩ := ite_none_right_eq_some.mp h
    right
    unfold Server.onBufferReleased
    dsimp only
    split <;> exact .of_eq rfl rfl fun _ => rfl
  | attachWindow package =>
    cases h
    exact .inl ⟨package, rfl, rfl⟩
  | detachWindow id =>
    obtain ⟨server, hd, rfl⟩ := map_eq_some_iff.mp h
    obtain ⟨-, ⟨⟩⟩ := ite_none_right_eq_some.mp hd
    exact .inr ⟨rfl, fun w hw => ⟨w, (mem_filter.mp hw).1, rfl, rfl⟩⟩

theorem Shows.frameOf_lt {shown : Nat → Nat} (hs : s.Shows shown) (h : s.step a = some s')
    {w t : Nat} (hf : s.frameOf w a = some t) : w < s.server.nextWindowId := by
  cases a with
  | commit surface b output imported =>
    cases output with
    | none => cases hf
    | some o =>
      simp only [frameOf, ite_none_right_eq_some] at hf
      obtain ⟨rfl, -⟩ := hf
      simp only [step] at h
      split at h
      · simp only [ite_none_right_eq_some] at h
        rcases Server.mem_outputFor h.1.2 with rfl | ho
        · exact hs.next
        · obtain ⟨w, hw, rfl⟩ := List.mem_map.mp ho
          exact (hs.windows w hw).1
      · cases h
  | _ => cases hf

theorem Shows.after_step {shown : Nat → Nat} (hs : s.Shows shown) (h : s.step a = some s') :
    s'.Shows fun w => (s.frameOf w a).getD (shown w) := by
  have hfresh : ∀ id, s.server.nextWindowId ≤ id → (s.frameOf id a).getD (shown id) = 0 := by
    intro id hid
    cases hf : s.frameOf id a with
    | none => exact hs.fresh id hid
    | some t => exact absurd (hs.frameOf_lt h hf) (Nat.not_lt.mpr hid)
  rcases step_showing h with ⟨package, rfl, hatt⟩ | ⟨hn, hw⟩
  · -- The new window's number was never given a frame.
    refine ⟨?_, fun w hw => ?_, fun id hid => hfresh id ?_⟩
    · rw [hatt]
      exact Nat.succ_pos _
    · rw [hatt] at hw ⊢
      rcases mem_append.mp hw with hw | hw
      · exact ⟨Nat.lt_succ_of_lt (hs.windows w hw).1, (hs.windows w hw).2⟩
      · obtain rfl := mem_singleton.mp hw
        exact ⟨Nat.lt_succ_self _, (hs.fresh _ (Nat.le_refl _)).symm⟩
    · rw [hatt] at hid
      exact Nat.le_of_succ_le hid
  · rw [← hn] at hfresh
    refine ⟨hn ▸ hs.next, fun w' hw' => ?_, hfresh⟩
    obtain ⟨w, hm, hid, ht⟩ := hw w' hw'
    obtain ⟨hlt, hshown⟩ := hs.windows w hm
    refine ⟨by rw [hn, hid]; exact hlt, ?_⟩
    rw [ht, hshown, hid]

end System

end

namespace System

theorem Shows.after_run {s s' : System} {as : List Action} {shown : Nat → Nat} (hs : s.Shows shown)
    (h : run step s as = some s') : s'.Shows (lastShown shown s as) := by
  induction as generalizing s shown with
  | nil =>
    cases h
    exact hs
  | cons a as ih =>
    obtain ⟨s₁, h₁, h₂⟩ := run_cons_inv h
    rw [lastShown, h₁]
    exact ih (hs.after_step h₁) h₂

theorem Initial.shows {s : System} (h : s.Initial) : s.Shows fun _ => 0 :=
  ⟨h.nextWindowId, by simp [h.windows], fun _ _ => rfl⟩

/-- **Input isolation.** All events of a touch or a key go to the surface of the toplevel whose
frames the window showed last exactly when that is in the table with a surface to itself, or there
is nothing or nobody to send to. -/
theorem input_isolated_iff {s s' : System} {as : List Action} {window : Nat} {w : Window}
    (hs : s.Initial) (h : run step s as = some s') (hw : s'.server.window window = some w) :
    w.toplevelId = lastShown (fun _ => 0) s as window ∧
    (∀ action id x y,
      (∀ e ∈ (s'.server.windowTouch window action id x y).2, s'.server.Addressed w.toplevelId e) ↔
        s'.server.Presents w.toplevelId ∨
        s'.server.touchPending ++ Server.touchOps action id x y = [] ∨
        ¬ s'.server.Hears s'.server.touchResources w) ∧
    (∀ code down,
      (∀ e ∈ (s'.server.windowKey window code down).2,
        e.kind ≠ .leave → s'.server.Addressed w.toplevelId e) ↔
        s'.server.Presents w.toplevelId ∨ ¬ s'.server.Hears s'.server.keyboardResources w) ∧
    (∀ code down,
      (∀ e ∈ (s'.server.windowKey window code down).2, s'.server.Addressed w.toplevelId e) ↔
        (s'.server.Presents w.toplevelId ∧
          ∀ old, s'.server.keyboardFocus = some old → s'.server.keySurface w = some old) ∨
        ¬ s'.server.Hears s'.server.keyboardResources w) := by
  have hid : w.id = window := by simpa using find?_some hw
  have hshown := ((hs.shows.after_run h).windows w (mem_of_find?_eq_some hw)).2
  refine ⟨hid ▸ hshown, fun action id x y => Server.windowTouch_addressed_iff hw, fun code down =>
    Server.windowKey_addressed_iff hw, fun code down => Server.windowKey_all_addressed_iff hw⟩

def strayInput : List Action :=
  [.attachWindow "com.a".toList, .attachWindow "com.b".toList,
    .request (.createSurface ⟨1, 1, 0⟩), .request (.getToplevel (some 1)),
    .request (.setAppId 1 "waydroid.com.b".toList),
    .request (.bindTouch ⟨1, 1⟩), .request (.bindKeyboard ⟨2, 1⟩),
    .commit 1 1 (some 2) true, .wayland .ok, .wayland .ok,
    .windowInput (.touch 1 2 0 10 20), .windowInput (.key 1 30 true), .runPosted, .runPosted]

theorem stray_input : ∃ s, run step started strayInput = some s ∧
      s.server.windows = [⟨1, "com.a".toList, 0⟩, ⟨2, "com.b".toList, 1⟩] ∧
      s.server.toplevels = [⟨1, "waydroid.com.b".toList, some 1, false⟩] ∧
      s.sent = [⟨⟨1, 1⟩, 1, .touch ⟨.down, 0, 10, 20⟩⟩, ⟨⟨1, 1⟩, 1, .touch ⟨.frame, 0, 0, 0⟩⟩,
        ⟨⟨2, 1⟩, 1, .enter⟩, ⟨⟨2, 1⟩, 1, .modifiers⟩, ⟨⟨2, 1⟩, 1, .key 30 true⟩] ∧
      ∀ e ∈ s.sent, ¬ s.server.Addressed 0 e := by
  refine ⟨_, rfl, by decide, by decide, by decide, ?_⟩
  rintro e - ⟨t, ht, -⟩
  cases ht

theorem input_isolated_iff_strayInput :
    ∃ s w, run step started strayInput = some s ∧ s.server.window 2 = some w ∧
      w.toplevelId = lastShown (fun _ => 0) started strayInput 2 ∧
      ∀ e ∈ (s.server.windowTouch 2 2 0 10 20).2, s.server.Addressed 1 e := by
  have h := @input_isolated_iff started _ strayInput 2 _ started_initial rfl rfl
  refine ⟨_, _, rfl, rfl, h.1, (h.2.1 2 0 10 20).mpr (.inl ⟨_, 1, rfl, rfl, ?_⟩)⟩
  intro t ht _
  obtain rfl := mem_singleton.mp ht
  rfl

end System

end OniroSoc.Compositor

import OniroSoc.Compositor.Told

/-!
# All toplevels agree on the display size

`AttachWindow` stores the window's size under `windowsMutex_` and posts the configure afterwards,
with the size it captured.
-/

namespace OniroSoc.Compositor
open Support List

namespace Display

def Call.resize : Call → Option Size
  | .attachWindow size true => some size
  | _ => none

def Work.resize : Work → Option Size
  | .attachWindow size true => some size
  | _ => none

def owed (s : Display) : List Size :=
  s.posted.filterMap Work.resize ++ s.calls.filterMap Call.resize

/-- When an `AttachWindow` that changed the size posts and none that changed it later has still to,
none that changed it to something else before has still to. -/
def InOrder (s : Display) : Action → Prop
  | .post i =>
    ∀ size, s.calls[i]? = some (.attachWindow size true) → (s.calls.drop (i + 1)).filterMap
      Call.resize = [] → ∀ size',
      ((s.calls.take i).filterMap Call.resize).getLast? = some size' → size' = size
  | _ => True

structure Sized (s : Display) : Prop where
  owed : ∀ size, s.owed.getLast? = some size → size = s.outputSize
  told : s.owed = [] → s.wayland = none →
    ∀ t ∈ s.toplevels, ∃ b, lastConfigure s.sent t.id = some (s.outputSize, b)

def Instr.size : Instr → Option Size
  | .readAttached _ _ size => some size
  | .activate _ _ size => some size
  | .configureNew _ size => some size
  | _ => none

structure Sizing (s : Display) : Prop where
  keyed : s.Keyed
  owed : ∀ size, s.owed.getLast? = some size → size = s.outputSize
  told : s.owed = [] → ∀ t ∈ s.toplevels,
    s.Newborn t.id ∨ ∃ b, lastConfigure s.sent t.id = some (s.outputSize, b)
  read : s.owed = [] → ∀ i size, s.wayland = some i → i.size = some size → size = s.outputSize

section
variable {s s' : Display} {a : Action}

theorem Sizing.sized (h : s.Sizing) : s.Sized := by
  refine ⟨h.owed, fun ho hw t ht => (h.told ho t ht).resolve_left ?_⟩
  rintro (hn | ⟨size, hn⟩) <;> simp [hw] at hn

theorem Sizing.of_ids (h : s.Sizing) (hk : s'.Keyed) (ho : s'.owed = s.owed)
    (hz : s'.outputSize = s.outputSize) (hsent : s'.sent = s.sent) (hw : s.wayland = none)
    (hids : ∀ id ∈ s'.ids, id ∈ s.ids ∨ s'.Newborn id)
    (hread : ∀ i, s'.wayland = some i → i.size = none) : s'.Sizing := by
  refine ⟨hk, by rw [ho, hz]; exact h.owed, fun ho' t ht => ?_, fun _ i size hi hs => ?_⟩
  · rcases hids t.id (mem_map_of_mem ht) with hid | hn
    · right
      obtain ⟨t₀, ht₀, he⟩ := mem_map.mp hid
      obtain ⟨b, hb⟩ := h.sized.told (ho ▸ ho') hw t₀ ht₀
      rw [hsent, hz]
      exact ⟨b, he ▸ hb⟩
    · exact .inl hn
  · rw [hread i hi] at hs
    cases hs

theorem Sizing.of_eq (h : s.Sizing) (ho : s'.owed = s.owed) (hz : s'.outputSize = s.outputSize)
    (ht : s'.toplevels = s.toplevels) (hn : s'.nextToplevelId = s.nextToplevelId)
    (hsent : s'.sent = s.sent) (hw : s'.wayland = s.wayland) : s'.Sizing := by
  refine ⟨h.keyed.of_ids (by rw [ids, ids, ht]) hn, by rw [ho, hz]; exact h.owed, ?_, ?_⟩
  · rw [ho, ht, hsent, hz]
    unfold Newborn
    rw [hw]
    exact h.told
  · rw [ho, hw, hz]
    exact h.read

theorem Sizing.request {r : Request} (h : s.Sizing) (hw : s.wayland = none)
    (hr : Requested s r s') : s'.Sizing := by
  have hk : s'.Keyed := h.keyed.request hr
  cases hr with
  | nothing => exact h
  | createSurface | getSubsurface | bindOutput | releaseOutput =>
    exact h.of_eq rfl rfl rfl rfl rfl rfl
  | getToplevel =>
    refine h.of_ids hk rfl rfl rfl hw (fun id hid => ?_) (fun i hi => by cases hi; rfl)
    obtain ⟨t, ht, rfl⟩ := mem_map.mp hid
    rcases mem_append.mp ht with ht | ht
    · exact .inl (mem_map_of_mem ht)
    · rw [mem_singleton.mp ht]
      exact .inr (.inl rfl)
  | destroyToplevel id =>
    exact h.of_ids hk rfl rfl rfl hw (fun i hi => .inl ((filter_sublist.map _).subset hi))
      (by simp [hw])
  | @setAppId id appId =>
    exact h.of_ids hk rfl rfl rfl hw (fun i hi => .inl (nameToplevel_ids s id appId ▸ hi))
      (fun i hi => by cases hi; rfl)
  | commit =>
    exact h.of_ids hk rfl rfl rfl hw (fun i hi => .inl (noteToplevelSurface_ids s _ _ ▸ hi))
      (by simp [noteToplevelSurface, modifyToplevel, hw])
  | destroySurface surface =>
    exact h.of_ids hk rfl rfl rfl hw (fun i hi => .inl (dropSurface_ids s surface ▸ hi))
      (by simp [dropSurface, hw])

theorem getLast_of_cons {z z' : Size} {zs : List Size} (h : zs.getLast? = some z') :
    (z :: zs).getLast? = some z' := by
  cases zs with
  | nil => cases h
  | cons y ys => rwa [getLast?_cons_cons]

variable {size : Size}

theorem touches_sizes {s' : Display} (h : Touches s s') :
    s'.owed = s.owed ∧ s'.outputSize = s.outputSize := by
  rw [h]
  exact ⟨rfl, rfl⟩

theorem Sizing.configureAll (hk : s.Keyed) (hw : s.wayland = none)
    (hlast : ∀ z, (size :: s.owed).getLast? = some z → z = s.outputSize) :
    (s.configureAll size).Sizing := by
  have htouch := configureAll_touches s size
  obtain ⟨ho, hz⟩ := touches_sizes htouch
  have hidle : (s.configureAll size).wayland = none := htouch.shared.2.2.trans hw
  obtain ⟨hts, htold⟩ := configureAll_spec hk size
  refine ⟨hk.configureAll size, ?_, ?_, ?_⟩
  · rw [ho, hz]
    exact fun z hl => hlast z (getLast_of_cons hl)
  · rw [ho, hz, hts]
    intro hnone t ht
    have hsize : size = s.outputSize := hlast size (by rw [hnone]; rfl)
    exact .inr ⟨t.activated, hsize ▸ htold t ht⟩
  · intro _ i z hi
    rw [hidle] at hi
    cases hi

theorem Sizing.runPosted {w : Work} {ws : List Work} (h : s.Sizing) (hw : s.wayland = none)
    (hp : s.posted = w :: ws) : ({ s with posted := ws }.work w).Sizing := by
  have hk : ({ s with posted := ws } : Display).Keyed := h.keyed.of_ids rfl rfl
  have howed : s.owed = w.resize.toList ++ ({ s with posted := ws } : Display).owed := by
    cases hr : w.resize <;> simp [Display.owed, hp, hr]
  cases w with
  | attachWindow size resized =>
    cases resized with
    | false => exact h.of_eq howed.symm rfl rfl rfl rfl rfl
    | true =>
      refine Sizing.configureAll hk hw fun z hl => h.owed z ?_
      rw [howed]
      exact hl
  | detachWindow | setWindowActive =>
    exact h.of_ids (hk.of_ids rfl rfl) howed.symm rfl rfl hw (fun i hi => .inl hi)
      (fun i hi => by cases hi; rfl)

theorem newborn_of_wayland {i : Instr} {id : Nat} (hw : s.wayland = some i) (hn : s.Newborn id) :
    i = .readSize id ∨ ∃ size, i = .configureNew id size := by
  unfold Newborn at hn
  rw [hw] at hn
  simpa using hn

theorem Sizing.told_all {i : Instr} (h : s.Sizing) (hw : s.wayland = some i)
    (hi : ∀ id, ¬ (i = .readSize id ∨ ∃ size, i = .configureNew id size)) (ho : s.owed = []) :
    ∀ t ∈ s.toplevels, ∃ b, lastConfigure s.sent t.id = some (s.outputSize, b) :=
  fun t ht => (h.told ho t ht).resolve_left fun hn => hi t.id (newborn_of_wayland hw hn)

theorem Sizing.activate {edge : Bool} {active : Text} (h : s.Sizing)
    (hw : s.wayland = some (.activate edge active size)) :
    (s.exec (.activate edge active size)).Sizing := by
  obtain ⟨ho, hz⟩ := touches_sizes (activate_touches s edge active size)
  refine ⟨(h.keyed.activate edge active size).of_ids rfl rfl, ?_, ?_, ?_⟩
  · show ∀ z, (s.activate edge active size).owed.getLast? = some z →
      z = (s.activate edge active size).outputSize
    rw [ho, hz]
    exact h.owed
  · intro hnone t ht
    right
    have hnone : s.owed = [] := ho ▸ hnone
    have hid : t.id ∈ s.ids := by
      rw [← activate_ids h.keyed edge active size]
      exact mem_map_of_mem ht
    obtain ⟨t₀, ht₀, he⟩ := mem_map.mp hid
    show ∃ b, lastConfigure (s.activate edge active size).sent t.id =
      some ((s.activate edge active size).outputSize, b)
    rw [hz, ← he, activate_last h.keyed edge active size ht₀]
    split_ifs
    · exact ⟨_, by rw [h.read hnone _ size hw rfl]⟩
    · exact h.told_all hw (by simp) hnone t₀ ht₀
  · rintro - i size' ⟨⟩

theorem Sizing.configureNew {id : Nat} (h : s.Sizing)
    (hw : s.wayland = some (.configureNew id size)) : (s.exec (.configureNew id size)).Sizing := by
  refine ⟨h.keyed.of_ids rfl rfl, h.owed, fun ho t ht => .inr ?_, ?_⟩
  · by_cases he : id = t.id
    · refine ⟨false, ?_⟩
      have hsize : size = s.outputSize := h.read ho _ size hw rfl
      simp [exec, lastConfigure, he, hsize]
    · obtain hn | ⟨b, hb⟩ := h.told ho t ht
      · exact absurd (by simpa using newborn_of_wayland hw hn) he
      · refine ⟨b, ?_⟩
        simp only [lastConfigure] at hb
        simp [exec, lastConfigure, he, hb]
  · rintro - i size' ⟨⟩

theorem Sizing.proceed {i : Instr} (h : s.Sizing) (hw : s.wayland = some i) :
    (s.exec i).Sizing := by
  cases i with
  | readActive edge =>
    refine ⟨h.keyed.of_ids rfl rfl, h.owed, fun ho t ht => .inr (h.told_all hw (by simp) ho t ht),
      ?_⟩
    rintro - i size ⟨⟩ ⟨⟩
    rfl
  | readAttached edge active size =>
    refine ⟨h.keyed.of_ids rfl rfl, h.owed, fun ho t ht => .inr (h.told_all hw (by simp) ho t ht),
      ?_⟩
    rintro ho i size' ⟨⟩ ⟨⟩
    exact h.read ho _ _ hw rfl
  | activate edge active size => exact h.activate hw
  | readSize id =>
    refine ⟨h.keyed.of_ids rfl rfl, h.owed, fun ho t ht => ?_, ?_⟩
    · refine (h.told ho t ht).imp_left fun hn => ?_
      have hid : id = t.id := by simpa using newborn_of_wayland hw hn
      exact .inr ⟨s.outputSize, by rw [← hid]; rfl⟩
    · rintro - i size ⟨⟩ ⟨⟩
      rfl
  | configureNew id size => exact h.configureNew hw

theorem Sizing.of_last (hk : s.Keyed) (hl : s.owed.getLast? = some s.outputSize) : s.Sizing := by
  have hne : s.owed ≠ [] := by
    intro h
    rw [h] at hl
    cases hl
  exact ⟨hk, fun z hz => Option.mem_unique hz hl, fun h => absurd h hne, fun h => absurd h hne⟩

theorem Sizing.attachWindow (h : s.Sizing) (package : Text) (size : Size) :
    (s.attachWindow package size).Sizing := by
  unfold Display.attachWindow
  split_ifs with hpos
  · by_cases hz : s.outputSize = size
    · subst hz
      refine h.of_eq ?_ rfl rfl rfl rfl rfl
      simp [Display.owed, Call.resize]
    · refine .of_last (h.keyed.of_ids rfl rfl) ?_
      simp [Display.owed, Call.resize, hz]
  · exact h

theorem owed_post {i : Nat} {c : Call} {w : Work} (hi : s.calls[i]? = some c)
    (hc : c.work = some w) :
    ∃ xs ys, s.owed = s.posted.filterMap Work.resize ++ xs ++ c.resize.toList ++ ys ∧
      ({ s with calls := s.calls.eraseIdx i, posted := s.posted ++ [w] } : Display).owed =
        s.posted.filterMap Work.resize ++ c.resize.toList ++ xs ++ ys ∧
      xs = (s.calls.take i).filterMap Call.resize ∧
      ys = (s.calls.drop (i + 1)).filterMap Call.resize := by
  have hwork : w.resize = c.resize := by
    cases c with
    | attachWindow size resized => cases hc; cases resized <;> rfl
    | erased => cases hc
    | detachWindow | setWindowActive => cases hc; rfl
  refine ⟨_, _, ?_, ?_, rfl, rfl⟩
  · conv_lhs => rw [Display.owed, calls_split hi]
    cases hr : c.resize <;> simp [filterMap_append, hr]
  · rw [Display.owed, eraseIdx_eq_take_drop_succ]
    cases hr : c.resize <;> simp [filterMap_append, hr, hwork]

theorem Sizing.post {i : Nat} {c : Call} {w : Work} (h : s.Sizing) (hok : s.InOrder (.post i))
    (hi : s.calls[i]? = some c) (hc : c.work = some w) :
    Sizing { s with calls := s.calls.eraseIdx i, posted := s.posted ++ [w] } := by
  obtain ⟨xs, ys, ho, ho', hxs, hys⟩ := owed_post hi hc
  have hnil : ({ s with calls := s.calls.eraseIdx i, posted := s.posted ++ [w] } : Display).owed =
      [] → s.owed = [] := by
    rw [ho, ho']
    simp only [append_eq_nil_iff]
    tauto
  refine ⟨h.keyed.of_ids rfl rfl, fun z hz => h.owed z ?_, fun hn => h.told (hnil hn),
    fun hn => h.read (hnil hn)⟩
  -- What is behind the call stays behind it; without any, what was ahead of it comes last.
  rw [ho'] at hz
  rw [ho]
  cases hr : c.resize with
  | none => simpa [hr] using hz
  | some size =>
    obtain rfl : c = .attachWindow size true := by
      cases c with
      | attachWindow z b => cases b <;> simp [Call.resize] at hr; rw [hr]
      | erased | detachWindow | setWindowActive => cases hr
    rw [hr] at hz
    cases hy : ys.getLast? with
    | some y =>
      rw [getLast?_append, hy] at hz ⊢
      exact hz
    | none =>
      have hys' : ys = [] := getLast?_eq_none_iff.mp hy
      subst hys'
      cases hx : xs.getLast? with
      | none =>
        have hxs' : xs = [] := getLast?_eq_none_iff.mp hx
        rw [hxs'] at hz ⊢
        simpa using hz
      | some x =>
        have hx' : x = size := hok size hi hys.symm x (hxs ▸ hx)
        simp only [append_nil, getLast?_append, hx, Option.some_or] at hz
        simp [← hz, hx']

theorem not_sized_of_not_inOrder (h : s.Sizing) (hok : ¬ s.InOrder a) (hs : s.step a = some s') :
    ¬ s'.Sized := by
  cases step_steps hs with
  | @post i c w hi hc =>
    intro hsized
    simp only [InOrder, not_forall] at hok
    obtain ⟨size, hcall, hdrop, size', hlast, hne⟩ := hok
    obtain rfl : c = .attachWindow size true := Option.mem_unique hi hcall
    obtain ⟨xs, ys, ho, ho', hxs, hys⟩ := owed_post hi hc
    rw [hdrop] at hys
    subst hys
    have hstored : size = s.outputSize := h.owed size (by rw [ho]; simp [Call.resize])
    have hnew : size' = s.outputSize := by
      refine hsized.owed size' ?_
      rw [ho', hxs, append_nil, getLast?_append, hlast]
      rfl
    exact hne (hnew.trans hstored.symm)
  | request | runPosted | proceed | attachWindow | detachWindow | clearActive | setWindowActive
  | setOutputSurface | clearOutputSurface => exact absurd trivial hok

theorem Sizing.after_step (h : s.Sizing) (hok : s.InOrder a) (hs : s.step a = some s') :
    s'.Sizing := by
  cases step_steps hs with
  | request hw hr => exact h.request hw hr
  | runPosted hw hp => exact h.runPosted hw hp
  | proceed hw => exact h.proceed hw
  | attachWindow size hp => exact h.attachWindow _ size
  | detachWindow window =>
    unfold Display.detachWindow
    split_ifs
    · refine h.of_eq ?_ rfl rfl rfl rfl rfl
      simp [Display.owed, Call.resize]
    · exact h
  | @clearActive i window hi =>
    obtain ⟨w, p, he⟩ := clearActive_frame s window
    rw [he]
    refine h.of_eq ?_ rfl rfl rfl rfl rfl
    obtain ⟨hlt, -⟩ := List.getElem?_eq_some_iff.mp hi
    show _ ++ (s.calls.set i (.detachWindow window)).filterMap Call.resize = s.owed
    rw [set_eq_take_append_cons_drop, if_pos hlt]
    conv_rhs => rw [Display.owed, calls_split hi]
    simp [filterMap_append, filterMap_cons, Call.resize]
  | setWindowActive window active =>
    unfold Display.setWindowActive
    split
    · exact h
    · obtain ⟨w, p, he⟩ := clearActive_frame s window
      rw [he]
      cases active <;>
      · refine h.of_eq ?_ rfl rfl rfl rfl rfl
        simp [Display.owed, Call.resize]
  | post hi hc => exact h.post hok hi hc
  | setOutputSurface | clearOutputSurface => exact h.of_eq rfl rfl rfl rfl rfl rfl

end

def Action.stores (size : Size) : Action → Size
  | .attachWindow _ size' => if 0 < size'.1 ∧ 0 < size'.2 then size' else size
  | _ => size

def lastAttached (size : Size) (as : List Action) : Size := as.foldl Action.stores size

theorem outputSize_after_step {s s' : Display} {a : Action} (h : s.step a = some s') :
    s'.outputSize = a.stores s.outputSize := by
  cases step_steps h with
  | request hw hr => cases hr <;> rfl
  | @runPosted w ws hw hp =>
    cases w with
    | attachWindow size resized =>
      cases resized with
      | false => rfl
      | true => exact (configureAll_touches _ size).field Display.outputSize fun _ _ _ => rfl
    | detachWindow | setWindowActive => rfl
  | @proceed i hw =>
    cases i with
    | activate edge active size =>
      exact (activate_touches s edge active size).field Display.outputSize fun _ _ _ => rfl
    | readActive | readAttached | readSize | configureNew => rfl
  | attachWindow package size =>
    unfold Display.attachWindow Action.stores
    dsimp only
    split_ifs <;> rfl
  | detachWindow window =>
    unfold Display.detachWindow
    split_ifs <;> rfl
  | @clearActive i window hi =>
    obtain ⟨w, p, he⟩ := clearActive_frame s window
    rw [he]
    rfl
  | setWindowActive window active =>
    unfold Display.setWindowActive
    split
    · rfl
    · obtain ⟨w, p, he⟩ := clearActive_frame s window
      rw [he]
      cases active <;> rfl
  | post | setOutputSurface | clearOutputSurface => rfl

theorem outputSize_after_run {s s' : Display} {as : List Action} (h : run step s as = some s') :
    s'.outputSize = lastAttached s.outputSize as := by
  induction as generalizing s with
  | nil => cases h; rfl
  | cons a as ih =>
    obtain ⟨s₁, h₁, h₂⟩ := run_cons_inv h
    rw [ih h₂, outputSize_after_step h₁]
    rfl

theorem started_sizing (size : Size) (legacy : Bool) : (started size legacy).Sizing :=
  ⟨started_keyed size legacy, by simp [owed, started], by simp [started], by simp [started]⟩

/-- **The display size.** A run stays `Sized` exactly if the call that changed the size last never
posts ahead of one that changed it to something else before. -/
theorem sizes_agree_iff {size : Size} {legacy : Bool} {as : List Action} {s : Display}
    (h : run step (started size legacy) as = some s) :
    (Always step Sized (started size legacy) as ↔ Along step InOrder (started size legacy) as) ∧
    (Along step InOrder (started size legacy) as → s.Settled →
       ∀ t ∈ s.toplevels, ∃ b, lastConfigure s.sent t.id = some (s.outputSize, b)) ∧
    s.outputSize = lastAttached size as := by
  have hkeep : ∀ (s : Display) a s₁, s.Sizing → s.InOrder a → s.step a = some s₁ → s₁.Sizing :=
    fun _ _ _ hs hok h₁ => hs.after_step hok h₁
  refine ⟨?_, fun hok hsettled => ?_, outputSize_after_run h⟩
  · exact always_iff_along (fun _ hs => hs.sized) hkeep
      (fun _ _ _ hs hok h₁ => not_sized_of_not_inOrder hs hok h₁) h (started_sizing size legacy)
  · have hs : s.Sizing := run_invariant_along hkeep hok h (started_sizing size legacy)
    refine hs.sized.told ?_ hsettled.wayland
    simp [owed, hsettled.calls, hsettled.posted]

def twoWindows : List Action :=
  [.request (.getToplevel none), .proceed, .proceed, .attachWindow [] (500, 600),
    .attachWindow [] (700, 800), .post 0, .post 0, .runPosted, .runPosted]

theorem sizes_agree_iff_twoWindows :
    ∃ s, run step (started (1080, 2400) false) twoWindows = some s ∧ s.Settled ∧
      lastConfigure s.sent 1 = some ((700, 800), false) ∧ s.outputSize = (700, 800) ∧
      s.outputSize = lastAttached (1080, 2400) twoWindows :=
  ⟨_, rfl, ⟨rfl, rfl, rfl⟩, by decide, rfl,
    (@sizes_agree_iff (1080, 2400) false twoWindows _ rfl).2.2⟩

def crossed : List Action :=
  [.request (.getToplevel none), .proceed, .proceed, .attachWindow [] (500, 600),
    .attachWindow [] (700, 800), .post 1, .post 0, .runPosted, .runPosted]

theorem crossed_sizes : ∃ s, run step (started (1080, 2400) false) crossed = some s ∧ s.Settled ∧
      s.outputSize = (700, 800) ∧ 1 ∈ s.ids ∧ lastConfigure s.sent 1 = some ((500, 600), false) :=
  ⟨_, rfl, ⟨rfl, rfl, rfl⟩, rfl, by decide, by decide⟩

end Display

end OniroSoc.Compositor

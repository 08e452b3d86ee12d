import OniroSoc.Support.Runs

/-!
# GEM handles and framebuffers

Each frame of a layer is wrapped in a `DrmGemBuffer`, which imports the dma-buf and adds a
framebuffer, and removes the framebuffer and closes the handle in its destructor.  A layer keeps the
last two.  The kernel gives a dma-buf that is imported again the handle it has, and closes a handle
at the first GEM_CLOSE.  What is expected of the framebuffers is stated by what was shown: `Due`
counts how often a buffer was replaced, and knows nothing of the pointers of the layer.
-/

namespace OniroSoc.Emulator.Gem
open Support Function List Option

/-- A `DrmGemBuffer`; its number, its layer and the dma-buf it was made from identify it. -/
structure DrmGemBuffer where
  (number layer dmaBuf : Nat)
  (mGemHandle mFdId : Nat)
deriving DecidableEq

/-- The two pointers of an `HdiDrmLayer`. -/
structure HdiDrmLayer where
  (mCurrentBuffer lastBuffer : Option DrmGemBuffer := none)

/-- The DRM device (the dma-buf of each handle, the maker of each framebuffer), the layers, the
buffers that were made, newest first, those that live, and the layers that were destroyed.
`removed` has an entry for each drmModeRmFB: the framebuffer, or `none` where there is none of that
id.  `misused` is set by a GEM_CLOSE on a closed handle or on one that another live buffer has. -/
structure Drm where
  (handles fbs : Nat → Option Nat := fun _ => none)
  layers : Nat → HdiDrmLayer := fun _ => {}
  (made live : List DrmGemBuffer := [])
  destroyed : List Nat := []
  removed : List (Option Nat) := []
  misused : Bool := false

/-- A frame of a layer, with the answers of the import and of AddFB2, 0 for a failure; or the
destruction of a layer. -/
inductive Action where
  | getGemBuffer (layer dmaBuf handle fb : Nat)
  | destroyLayer (layer : Nat)

namespace Drm

def rmFb (s : Drm) (id : Nat) : Drm :=
  { s with fbs := update s.fbs id none, removed := s.fbs id :: s.removed }

def gemClose (s : Drm) (handle : Nat) : Drm :=
  { s with
    handles := update s.handles handle none
    misused := s.misused || (s.handles handle).isNone || s.live.any (·.mGemHandle = handle) }

/-- `~DrmGemBuffer`. -/
def destroy (s : Drm) (b : DrmGemBuffer) : Drm :=
  let s := { s with live := s.live.erase b }
  let s := if b.mFdId = 0 then s else s.rmFb b.mFdId
  if b.mGemHandle = 0 then s else s.gemClose b.mGemHandle

/-- `DrmGemBuffer::Init`: without a handle there is no AddFB2. -/
def construct (s : Drm) (layer dmaBuf handle fb : Nat) : DrmGemBuffer :=
  ⟨s.made.length, layer, dmaBuf, handle, if handle = 0 then 0 else fb⟩

/-- An action up to the destructors it runs: the new buffer is made and the pointers are moved. -/
def enter (s : Drm) : Action → Drm
  | .getGemBuffer layer dmaBuf handle fb =>
    let b := s.construct layer dmaBuf handle fb
    { s with
      handles :=
        if b.mGemHandle = 0 then s.handles else update s.handles b.mGemHandle (some dmaBuf)
      fbs := if b.mFdId = 0 then s.fbs else update s.fbs b.mFdId (some b.number)
      layers := update s.layers layer ⟨some b, (s.layers layer).mCurrentBuffer⟩
      made := b :: s.made
      live := b :: s.live }
  | .destroyLayer layer =>
    { s with layers := update s.layers layer {}, destroyed := layer :: s.destroyed }

/-- The buffers that an action destroys: what `lastBuffer_` pointed to, or both of a layer. -/
def leaving (s : Drm) : Action → List DrmGemBuffer
  | .getGemBuffer layer _ _ _ => (s.layers layer).lastBuffer.toList
  | .destroyLayer layer =>
    (s.layers layer).lastBuffer.toList ++ (s.layers layer).mCurrentBuffer.toList

def layerOf : Action → Nat
  | .getGemBuffer layer _ _ _ | .destroyLayer layer => layer

/-- A layer is not used once it is destroyed. -/
def step (s : Drm) (a : Action) : Option Drm :=
  if layerOf a ∈ s.destroyed then none else some ((s.leaving a).foldl destroy (s.enter a))

/-- What is assumed of the kernel: a dma-buf has one handle and a handle one dma-buf, and the id of
a new framebuffer is free. -/
def Honest (s : Drm) : Action → Prop
  | .getGemBuffer _ dmaBuf handle fb => handle ≠ 0 →
      ((∀ h, s.handles h = some dmaBuf → h = handle) ∧
        ∀ other, s.handles handle = some other → other = dmaBuf) ∧ (fb ≠ 0 → s.fbs fb = none)
  | .destroyLayer _ => True

/-- No other live buffer is of the dma-buf of one that is destroyed. -/
def Alone : List DrmGemBuffer → List DrmGemBuffer → Prop
  | _, [] => True
  | live, b :: bs =>
    (b.mGemHandle ≠ 0 →
      ∀ other ∈ live.erase b, other.mGemHandle ≠ 0 → other.dmaBuf ≠ b.dmaBuf) ∧
    Alone (live.erase b) bs

def Fits (s : Drm) (a : Action) : Prop := Alone (s.enter a).live (s.leaving a)

/-- How often a buffer was replaced: the later buffers of its layer. -/
def replaced (s : Drm) (b : DrmGemBuffer) : Nat :=
  s.made.countP fun later => later.layer = b.layer ∧ b.number < later.number

/-- The framebuffer of `b` is to be removed: it was replaced twice, or its layer is destroyed. -/
def Due (s : Drm) (b : DrmGemBuffer) : Prop := 2 ≤ s.replaced b ∨ b.layer ∈ s.destroyed

instance (s : Drm) (b : DrmGemBuffer) : Decidable (s.Due b) := inferInstanceAs (Decidable (_ ∨ _))

/-- Every framebuffer that was added is removed once, as soon as it is due, and not before; nothing
else is removed. -/
structure Once (s : Drm) : Prop where
  removed : ∀ b ∈ s.made, b.mFdId ≠ 0 →
    s.removed.count (some b.number) = if s.Due b then 1 else 0
  known : none ∉ s.removed
  live : ∀ b ∈ s.made, b ∈ s.live ↔ ¬ s.Due b

variable {s s' : Drm} {a : Action} {b : DrmGemBuffer} {bs : List DrmGemBuffer}

/-! ### Framebuffers -/

/-- What the constructors and destructors keep, one by one. -/
structure Kept (s : Drm) : Prop where
  number : s.made.map DrmGemBuffer.number = (range s.made.length).reverse
  made : ∀ b ∈ s.live, b ∈ s.made
  nodup : s.live.Nodup
  fbs : ∀ b ∈ s.live, b.mFdId ≠ 0 → s.fbs b.mFdId = some b.number
  removed : ∀ b ∈ s.made, b.mFdId ≠ 0 →
    s.removed.count (some b.number) = if b ∈ s.live then 0 else 1
  known : ∀ o ∈ s.removed, ∃ n < s.made.length, o = some n

theorem Kept.lt (h : s.Kept) (hb : b ∈ s.made) : b.number < s.made.length := by
  have : b.number ∈ (range s.made.length).reverse := h.number ▸ mem_map_of_mem hb
  simpa using this

theorem Kept.eq_of_number (h : s.Kept) {c : DrmGemBuffer} (hb : b ∈ s.made) (hc : c ∈ s.made)
    (heq : b.number = c.number) : b = c := by
  have hnodup : (s.made.map DrmGemBuffer.number).Nodup := by
    rw [h.number]
    exact nodup_reverse.mpr nodup_range
  exact inj_on_of_nodup_map hnodup hb hc heq

theorem Kept.enter (h : s.Kept) (hhonest : s.Honest a) : (s.enter a).Kept := by
  cases a with
  | destroyLayer layer => exact { h with }
  | getGemBuffer layer dmaBuf handle fb =>
    have hfree : (s.construct layer dmaBuf handle fb).mFdId ≠ 0 →
        s.fbs (s.construct layer dmaBuf handle fb).mFdId = none := by
      simp only [construct]
      split_ifs with hhandle
      · exact absurd rfl
      · exact (hhonest hhandle).2
    have hnew : ∀ b ∈ s.made, b ≠ s.construct layer dmaBuf handle fb := by
      rintro b hb rfl
      exact Nat.lt_irrefl _ (h.lt hb)
    have hcount : s.removed.count (some s.made.length) = 0 := by
      refine count_eq_zero.mpr fun hmem => ?_
      obtain ⟨n, hlt, heq⟩ := h.known _ hmem
      exact Nat.ne_of_gt hlt (some.inj heq)
    constructor
    · simp [Drm.enter, construct, h.number, range_succ]
    · exact forall_mem_cons.mpr ⟨.head _, fun b hb => .tail _ (h.made b hb)⟩
    · exact nodup_cons.mpr ⟨fun hmem => hnew _ (h.made _ hmem) rfl, h.nodup⟩
    · refine forall_mem_cons.mpr ⟨fun hfb => ?_, fun b hb hfb => ?_⟩
      · simp only [Drm.enter, if_neg hfb, update_self]
      · have hold := h.fbs b hb hfb
        simp only [Drm.enter]
        split_ifs with hzero
        · exact hold
        · rw [update_of_ne, hold]
          intro heq
          rw [heq, hfree hzero] at hold
          cases hold
    · refine forall_mem_cons.mpr ⟨fun _ => ?_, fun b hb hfb => ?_⟩
      · simp [Drm.enter, construct, hcount]
      · simp [Drm.enter, h.removed b hb hfb, hnew b hb]
    · intro o ho
      obtain ⟨n, hlt, rfl⟩ := h.known o ho
      exact ⟨n, hlt.trans (Nat.lt_succ_self _), rfl⟩

/-- What a destructor leaves alone, and what it takes from the buffers and framebuffers. -/
theorem destroy_eq (s : Drm) (b : DrmGemBuffer) :
    (s.destroy b).made = s.made ∧ (s.destroy b).live = s.live.erase b ∧
    (s.destroy b).layers = s.layers ∧ (s.destroy b).destroyed = s.destroyed ∧
    (s.destroy b).fbs = (if b.mFdId = 0 then s.fbs else update s.fbs b.mFdId none) ∧
    (s.destroy b).removed = if b.mFdId = 0 then s.removed else s.fbs b.mFdId :: s.removed := by
  unfold destroy
  split_ifs <;> exact ⟨rfl, rfl, rfl, rfl, rfl, rfl⟩

theorem Kept.destroy (h : s.Kept) (hb : b ∈ s.live) : (s.destroy b).Kept := by
  obtain ⟨hmade, hlive, -, -, hfbs, hremoved⟩ := s.destroy_eq b
  have hgone : b ∉ s.live.erase b := h.nodup.not_mem_erase
  constructor
  · rw [hmade]
    exact h.number
  · rw [hmade, hlive]
    exact fun c hc => h.made c (mem_of_mem_erase hc)
  · rw [hlive]
    exact h.nodup.erase b
  · intro c hc hfb
    rw [hlive] at hc
    have hold := h.fbs c (mem_of_mem_erase hc) hfb
    rw [hfbs]
    split_ifs with hzero
    · exact hold
    · -- the framebuffer of another live buffer has another id
      rw [update_of_ne, hold]
      intro heq
      rw [heq, h.fbs b hb hzero] at hold
      have heq := h.eq_of_number (h.made b hb) (h.made c (mem_of_mem_erase hc)) (some.inj hold)
      exact hgone (heq ▸ hc)
  · intro c hc hfb
    rw [hmade] at hc
    rw [hremoved, hlive]
    have hold := h.removed c hc hfb
    by_cases hcb : c = b
    · subst hcb
      rw [if_neg hfb, h.fbs c hb hfb, count_cons_self, hold, if_pos hb, if_neg hgone]
    · simp only [mem_erase_of_ne hcb, ← hold]
      split_ifs with hzero
      · rfl
      · rw [h.fbs b hb hzero, count_cons_of_ne]
        exact fun heq => hcb (h.eq_of_number hc (h.made b hb) (some.inj heq).symm)
  · rw [hremoved, hmade]
    split_ifs with hzero
    · exact h.known
    · exact forall_mem_cons.mpr ⟨⟨_, h.lt (h.made b hb), h.fbs b hb hzero⟩, h.known⟩

/-- Destructors one after the other keep it too, and take from the live buffers what they
destroy. -/
theorem Kept.destroyAll (h : s.Kept) (hbs : ∀ b ∈ bs, b ∈ s.live) (hnodup : bs.Nodup) :
    (bs.foldl Drm.destroy s).Kept ∧ (bs.foldl Drm.destroy s).made = s.made ∧
    (bs.foldl Drm.destroy s).layers = s.layers ∧ (bs.foldl Drm.destroy s).destroyed = s.destroyed ∧
    ∀ b, b ∈ (bs.foldl Drm.destroy s).live ↔ b ∈ s.live ∧ b ∉ bs := by
  induction bs generalizing s with
  | nil => exact ⟨h, rfl, rfl, rfl, by simp⟩
  | cons c bs ih =>
    obtain ⟨hc, hbs⟩ := forall_mem_cons.mp hbs
    obtain ⟨hnot, hnodup⟩ := nodup_cons.mp hnodup
    obtain ⟨hmade, hlive, hlayers, hdestroyed, -⟩ := s.destroy_eq c
    obtain ⟨hkept, hmade', hlayers', hdestroyed', hmem⟩ := ih (h.destroy hc) (fun b hb => by
      rw [hlive]
      exact (mem_erase_of_ne fun heq : b = c => hnot (heq ▸ hb)).mpr (hbs b hb)) hnodup
    refine ⟨hkept, hmade'.trans hmade, hlayers'.trans hlayers, hdestroyed'.trans hdestroyed,
      fun b => ?_⟩
    rw [foldl_cons, hmem, hlive, h.nodup.mem_erase_iff, mem_cons]
    tauto

/-! ### The pointers of the layers -/

/-- A layer points to the buffers that were replaced once and never, and those live. -/
structure Pointed (s : Drm) : Prop where
  current : ∀ layer b, (s.layers layer).mCurrentBuffer = some b ↔
    b ∈ s.made ∧ b.layer = layer ∧ layer ∉ s.destroyed ∧ s.replaced b = 0
  last : ∀ layer b, (s.layers layer).lastBuffer = some b ↔
    b ∈ s.made ∧ b.layer = layer ∧ layer ∉ s.destroyed ∧ s.replaced b = 1
  live : ∀ b, b ∈ s.live ↔ b ∈ s.made ∧ ¬ s.Due b

theorem replaced_congr (h : s'.made = s.made) (b : DrmGemBuffer) :
    s'.replaced b = s.replaced b := by
  rw [replaced, h]
  rfl

/-- A frame of a layer replaces every buffer of the layer once more, and itself never. -/
theorem Kept.replaced_enter (h : s.Kept) (layer dmaBuf handle fb : Nat) :
    (s.enter (.getGemBuffer layer dmaBuf handle fb)).replaced
      (s.construct layer dmaBuf handle fb) = 0 ∧
    ∀ b ∈ s.made, (s.enter (.getGemBuffer layer dmaBuf handle fb)).replaced b =
      s.replaced b + if layer = b.layer then 1 else 0 := by
  constructor
  · refine countP_eq_zero.mpr (forall_mem_cons.mpr ⟨by simp, fun c hc => ?_⟩)
    have : c.number < (s.construct layer dmaBuf handle fb).number := h.lt hc
    simp only [decide_eq_true_eq, not_and]
    omega
  · intro b hb
    have hlt : b.number < (s.construct layer dmaBuf handle fb).number := h.lt hb
    simp only [replaced, Drm.enter, countP_cons, hlt, and_true, decide_eq_true_eq]
    rfl

theorem Pointed.leaving (h : s.Pointed) (ha : layerOf a ∉ s.destroyed) :
    (∀ b ∈ s.leaving a, b ∈ (s.enter a).live) ∧ (s.leaving a).Nodup := by
  have hlive : ∀ b, b ∈ s.made → b.layer = layerOf a → s.replaced b ≤ 1 → b ∈ s.live := by
    intro b hb hlayer hle
    refine (h.live b).mpr ⟨hb, ?_⟩
    rintro (htwice | hdestroyed)
    · omega
    · exact ha (hlayer ▸ hdestroyed)
  have hlast : ∀ b ∈ (s.layers (layerOf a)).lastBuffer, b ∈ s.live := by
    intro b hb
    obtain ⟨hmade, hlayer, -, hone⟩ := (h.last _ b).mp hb
    exact hlive b hmade hlayer hone.le
  have hcurrent : ∀ b ∈ (s.layers (layerOf a)).mCurrentBuffer, b ∈ s.live := by
    intro b hb
    obtain ⟨hmade, hlayer, -, hzero⟩ := (h.current _ b).mp hb
    exact hlive b hmade hlayer (hzero ▸ Nat.zero_le _)
  cases a with
  | getGemBuffer layer dmaBuf handle fb =>
    refine ⟨fun b hb => .tail _ (hlast b (mem_toList.mp hb)), ?_⟩
    simp only [Drm.leaving]
    cases (s.layers layer).lastBuffer <;> simp
  | destroyLayer layer =>
    refine ⟨fun b hb => ?_, ?_⟩
    · rcases mem_append.mp hb with hb | hb
      · exact hlast b (mem_toList.mp hb)
      · exact hcurrent b (mem_toList.mp hb)
    · refine nodup_append.mpr ⟨?_, ?_, fun b hb c hc => ?_⟩
      · cases (s.layers layer).lastBuffer <;> simp
      · cases (s.layers layer).mCurrentBuffer <;> simp
      · rintro rfl
        have hone := ((h.last layer b).mp (mem_toList.mp hb)).2.2.2
        have hzero := ((h.current layer b).mp (mem_toList.mp hc)).2.2.2
        omega

theorem Pointed.shown (h : s.Pointed) {layer : Nat} (ha : layer ∉ s.destroyed)
    (hlayer : b.layer = layer) (hmade : s'.made = b :: s.made)
    (hlayers : s'.layers = update s.layers layer ⟨some b, (s.layers layer).mCurrentBuffer⟩)
    (hdestroyed : s'.destroyed = s.destroyed) (hzero : s'.replaced b = 0)
    (hnext : ∀ c ∈ s.made, s'.replaced c = s.replaced c + if layer = c.layer then 1 else 0)
    (hlive : ∀ c, c ∈ s'.live ↔ c ∈ b :: s.live ∧ c ∉ (s.layers layer).lastBuffer.toList) :
    s'.Pointed where
  current l c := by
    have := h.current l c
    rw [hlayers, hdestroyed, hmade, update_apply, mem_cons]
    grind
  last l c := by
    have hl := h.last l c
    have hc := h.current l c
    rw [hlayers, hdestroyed, hmade, update_apply, mem_cons]
    grind
  live c := by
    have := h.last layer c
    rw [hlive, hmade, Due, hdestroyed, mem_cons, mem_cons, mem_toList, h.live, Due]
    grind

theorem Pointed.gone (h : s.Pointed) {layer : Nat} (hmade : s'.made = s.made)
    (hlayers : s'.layers = update s.layers layer {})
    (hdestroyed : s'.destroyed = layer :: s.destroyed)
    (hlive : ∀ c, c ∈ s'.live ↔ c ∈ s.live ∧
      c ∉ (s.layers layer).lastBuffer.toList ++ (s.layers layer).mCurrentBuffer.toList) :
    s'.Pointed where
  current l c := by
    have := h.current l c
    rw [hlayers, hdestroyed, hmade, update_apply, replaced_congr hmade]
    grind
  last l c := by
    have := h.last l c
    rw [hlayers, hdestroyed, hmade, update_apply, replaced_congr hmade]
    grind
  live c := by
    have hl := h.last layer c
    have hc := h.current layer c
    rw [hlive, hmade, Due, hdestroyed, replaced_congr hmade, mem_append, mem_toList, mem_toList,
      h.live, Due]
    grind

/-- What a step is: its layer is not destroyed, and the destructors run after it has entered. -/
theorem step_eq (hs : s.step a = some s') :
    layerOf a ∉ s.destroyed ∧ s' = (s.leaving a).foldl destroy (s.enter a) := by
  obtain ⟨ha, hs⟩ := ite_none_left_eq_some.mp hs
  exact ⟨ha, (some.inj hs).symm⟩

theorem Pointed.step (h : s.Pointed) (hkept : s.Kept) (hhonest : s.Honest a)
    (hs : s.step a = some s') : s'.Pointed ∧ s'.Kept := by
  obtain ⟨ha, rfl⟩ := step_eq hs
  obtain ⟨hmem, hnodup⟩ := h.leaving ha
  obtain ⟨hkept', hmade, hlayers, hdestroyed, hlive⟩ := (hkept.enter hhonest).destroyAll hmem hnodup
  refine ⟨?_, hkept'⟩
  have hreplaced := replaced_congr hmade
  cases a with
  | getGemBuffer layer dmaBuf handle fb =>
    obtain ⟨hnew, hold⟩ := hkept.replaced_enter layer dmaBuf handle fb
    exact h.shown ha rfl hmade hlayers hdestroyed ((hreplaced _).trans hnew)
      (fun c hc => (hreplaced c).trans (hold c hc)) hlive
  | destroyLayer layer => exact h.gone hmade hlayers hdestroyed hlive

theorem once_of (hkept : s.Kept) (h : s.Pointed) : s.Once where
  removed b hb hfb := by
    rw [hkept.removed b hb hfb]
    by_cases hdue : s.Due b <;> simp [h.live, hb, hdue]
  known hmem := by
    obtain ⟨n, -, hn⟩ := hkept.known none hmem
    cases hn
  live b hb := (h.live b).trans (and_iff_right hb)

/-! ### Handles -/

/-- The kernel has the handle of every live buffer, and nothing was misused so far. -/
structure Sound (s : Drm) : Prop where
  handle : ∀ b ∈ s.live, b.mGemHandle ≠ 0 → s.handles b.mGemHandle = some b.dmaBuf
  inj : ∀ h h' dmaBuf, s.handles h = some dmaBuf → s.handles h' = some dmaBuf → h = h'
  used : s.misused = false

theorem Sound.enter (h : s.Sound) (hhonest : s.Honest a) : (s.enter a).Sound := by
  obtain ⟨hhandle, hinj, hused⟩ := h
  cases a with
  | destroyLayer layer => exact ⟨hhandle, hinj, hused⟩
  | getGemBuffer layer dmaBuf handle fb =>
    by_cases hzero : handle = 0
    · exact ⟨by simpa [Drm.enter, construct, hzero] using hhandle,
        by simpa [Drm.enter, construct, hzero] using hinj, hused⟩
    obtain ⟨hsame, hother⟩ := (hhonest hzero).1
    refine ⟨forall_mem_cons.mpr ⟨fun _ => ?_, fun b hb hne => ?_⟩, fun h₁ h₂ other => ?_, hused⟩
    · simp [Drm.enter, construct, hzero]
    · have := hhandle b hb hne
      simp only [Drm.enter, construct, if_neg hzero, update_apply]
      grind
    · simp only [Drm.enter, construct, if_neg hzero, update_apply]
      grind

/-- Two live buffers have one handle exactly if they are of one dma-buf. -/
theorem Sound.shared_iff (h : s.Sound) (hb : b ∈ s.live) (hzero : b.mGemHandle ≠ 0)
    {other : DrmGemBuffer} (hmem : other ∈ s.live) :
    other.mGemHandle = b.mGemHandle ↔ other.mGemHandle ≠ 0 ∧ other.dmaBuf = b.dmaBuf := by
  have hsome := h.handle b hb hzero
  constructor
  · intro heq
    have hne : other.mGemHandle ≠ 0 := heq ▸ hzero
    refine ⟨hne, some.inj ?_⟩
    rw [← h.handle other hmem hne, heq, hsome]
  · rintro ⟨hne, hbuf⟩
    exact h.inj _ _ _ (h.handle other hmem hne) (hbuf ▸ hsome)

theorem destroy_handles (s : Drm) (b : DrmGemBuffer) :
    (s.destroy b).handles =
      (if b.mGemHandle = 0 then s.handles else update s.handles b.mGemHandle none) ∧
    (s.destroy b).misused =
      (s.misused ||
         (b.mGemHandle ≠
            0 &&
              ((s.handles b.mGemHandle).isNone || (s.live.erase b).any
                 (·.mGemHandle = b.mGemHandle)))) := by
  unfold destroy
  split_ifs with hfb hzero hzero <;> simp [hzero, gemClose, rmFb, Bool.or_assoc]

/-- A destructor does no harm exactly if no other live buffer is of the dma-buf. -/
theorem Sound.destroy_iff (h : s.Sound) (hb : b ∈ s.live) :
    (s.destroy b).misused = false ↔
      (b.mGemHandle ≠ 0 →
        ∀ other ∈ s.live.erase b, other.mGemHandle ≠ 0 → other.dmaBuf ≠ b.dmaBuf) := by
  rw [(s.destroy_handles b).2, h.used]
  by_cases hzero : b.mGemHandle = 0
  · simp [hzero]
  have hshared (other) (hmem : other ∈ s.live.erase b) :=
    h.shared_iff hb hzero (mem_of_mem_erase hmem)
  simp +contextual [hzero, h.handle b hb hzero, hshared, imp_not_comm]

theorem Sound.destroy (h : s.Sound) (hb : b ∈ s.live) (hused : (s.destroy b).misused = false) :
    (s.destroy b).Sound := by
  have halone := (h.destroy_iff hb).mp hused
  obtain ⟨hhandles, -⟩ := s.destroy_handles b
  obtain ⟨-, hlive, -⟩ := s.destroy_eq b
  refine ⟨fun other hmem hne => ?_, fun h₁ h₂ dmaBuf => ?_, hused⟩
  · rw [hlive] at hmem
    have hold := h.handle other (mem_of_mem_erase hmem) hne
    rw [hhandles]
    split_ifs with hzero
    · exact hold
    · rw [update_of_ne, hold]
      intro heq
      exact halone hzero other hmem hne ((h.shared_iff hb hzero (mem_of_mem_erase hmem)).mp heq).2
  · have := h.inj h₁ h₂ dmaBuf
    rw [hhandles]
    split_ifs
    · exact this
    · simp only [update_apply]
      grind

theorem misused_foldl (h : s.misused = true) : (bs.foldl destroy s).misused = true := by
  induction bs generalizing s with
  | nil => exact h
  | cons b bs ih =>
    refine ih ?_
    rw [(s.destroy_handles b).2, h, Bool.true_or]

theorem Sound.destroyAll (h : s.Sound) (hbs : ∀ b ∈ bs, b ∈ s.live) (hnodup : bs.Nodup) :
    ((bs.foldl Drm.destroy s).misused = false ↔ Alone s.live bs) ∧
    ((bs.foldl Drm.destroy s).misused = false → (bs.foldl Drm.destroy s).Sound) := by
  induction bs generalizing s with
  | nil => exact ⟨iff_of_true h.used trivial, fun _ => h⟩
  | cons b bs ih =>
    obtain ⟨hb, hbs⟩ := forall_mem_cons.mp hbs
    obtain ⟨hnot, hnodup⟩ := nodup_cons.mp hnodup
    obtain ⟨-, hlive, -⟩ := s.destroy_eq b
    rw [foldl_cons, Alone, ← h.destroy_iff hb, ← hlive]
    cases hused : (s.destroy b).misused with
    | true =>
      have hbad : (bs.foldl Drm.destroy (s.destroy b)).misused = true := misused_foldl hused
      simp [hbad]
    | false =>
      rw [eq_self, true_and]
      refine ih (h.destroy hb hused) (fun c hc => ?_) hnodup
      rw [hlive]
      exact (mem_erase_of_ne fun heq : c = b => hnot (heq ▸ hc)).mpr (hbs c hc)

/-! ### Runs -/

structure Inv (s : Drm) : Prop where
  kept : s.Kept
  pointed : s.Pointed
  sound : s.Sound

theorem misused_iff (hpointed : s.Pointed) (h : s.Sound) (hhonest : s.Honest a)
    (hs : s.step a = some s') :
    (s'.misused = false ↔ s.Fits a) ∧ (s'.misused = false → s'.Sound) := by
  obtain ⟨ha, rfl⟩ := step_eq hs
  obtain ⟨hmem, hnodup⟩ := hpointed.leaving ha
  exact (h.enter hhonest).destroyAll hmem hnodup

/-- **Buffers are released once.**  Every framebuffer is removed once, when it was replaced twice or
its layer is destroyed, in every run.  No handle is closed that is closed already or that another
live buffer has, exactly if none of those is of the dma-buf of one that is destroyed. -/
theorem released_once_iff {as : List Action} (hrun : run step {} as = some s)
    (hkernel : Along step Honest {} as) :
    s.Once ∧ (s.misused = false ↔ Along step Fits {} as) := by
  have hfirst : Kept {} ∧ Pointed {} :=
    ⟨⟨rfl, nofun, .nil, nofun, nofun, nofun⟩, ⟨by simp, by simp, by simp⟩⟩
  have hlast : s.Kept ∧ s.Pointed := by
    refine run_invariant_along (I := fun s => Kept s ∧ Pointed s) (fun s a s' h hhonest hs => ?_)
      hkernel hrun hfirst
    exact (h.2.step h.1 hhonest hs).symm
  refine ⟨once_of hlast.1 hlast.2, Iff.trans ⟨fun hused => ?_, fun hall => hall.last hrun⟩
    (always_iff_along_of_along (J := Inv) (fun _ h => h.sound.used)
    (fun s a s' h hhonest hfits hs => ?_) (fun s a s' h hhonest hfits hs => ?_) hrun hkernel
      ⟨hfirst.1, hfirst.2, nofun, nofun, rfl⟩)⟩
  · refine (always_of_run (fun s a s₁ hs hused => ?_) hrun hused).2
    obtain ⟨-, rfl⟩ := step_eq hs
    have henter : (s.enter a).misused = s.misused := by cases a <;> rfl
    refine Bool.eq_false_iff.mpr fun hbefore => ?_
    cases (misused_foldl (henter.trans hbefore)).symm.trans hused
  · obtain ⟨hpointed, hkept⟩ := h.pointed.step h.kept hhonest hs
    obtain ⟨hiff, hsound⟩ := misused_iff h.pointed h.sound hhonest hs
    exact ⟨hkept, hpointed, hsound (hiff.mpr hfits)⟩
  · exact hfits ∘ (misused_iff h.pointed h.sound hhonest hs).1.mp

/-- Four frames of a layer, the second with a failed import, and its destruction. -/
def failedImport : List Action :=
  [.getGemBuffer 0 1 7 4, .getGemBuffer 0 2 0 5, .getGemBuffer 0 2 8 5, .getGemBuffer 0 3 7 4,
    .destroyLayer 0]

theorem released_once_failedImport : ∃ s, run step {} failedImport = some s ∧ s.Once ∧
    s.removed = [some 3, some 2, some 0] := by
  have hkernel : Along step Honest {} failedImport := by
    refine along_cons (fun _ => ⟨⟨nofun, nofun⟩, fun _ => rfl⟩) rfl <| along_cons
      (absurd rfl) rfl <| along_cons (fun _ => ⟨⟨fun h hh => ?_, nofun⟩, fun _ => rfl⟩) rfl <|
      along_cons (fun _ => ⟨⟨fun h hh => ?_, nofun⟩, fun _ => rfl⟩) rfl <| along_cons trivial rfl trivial
    · have : update (fun _ => none) 7 (some 1) h = some 2 := hh
      simp [update_apply] at this
    · have : update (update (update (fun _ => none) 7 (some 1)) 8 (some 2)) 7 none h = some 3 := hh
      grind [update_apply]
  exact ⟨_, rfl, (released_once_iff rfl hkernel).1, rfl⟩

/-- The same dma-buf twice: the destructor of the older buffer closes the handle of the newer. -/
theorem handle_closed_early : ∃ s s',
    run step {} [.getGemBuffer 0 1 7 4, .getGemBuffer 0 1 7 5] = some s ∧ s.misused = false ∧
    s.step (.destroyLayer 0) = some s' ∧ s'.misused = true ∧ ¬ Fits s (.destroyLayer 0) :=
  ⟨_, _, rfl, rfl, rfl, rfl, fun h => h.1 (by decide) _ (.head _) (by decide) rfl⟩

end Drm

end OniroSoc.Emulator.Gem

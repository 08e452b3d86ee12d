import OniroSoc.Support.Runs

/-!
# The images that the app downloads

A `run` of the `Provisioner` goes from one `await` to the next, and other instances are called in
between; they share `KEY_PHASE` and the directories `images.tmp` and `images`.  `placed`
follows the events that put `images` there and take it away, apart from what the code does to the
directory, and is compared with it.
-/

namespace OniroSoc.App
open Support List

/-- The two images, in the order of their downloads. -/
inductive Image where
  | system | vendor
deriving DecidableEq

/-- What a run awaits: a download or an unpacking. -/
inductive Stage where
  | download (img : Image)
  | unpack (img : Image)

/-- The images that are unpacked already. -/
def Stage.complete : Stage → List Image
  | .download .system | .unpack .system => []
  | .download .vendor | .unpack .vendor => [.system]

/-- The values of `KEY_PHASE`. -/
inductive Phase where
  | idle | download | unpack | done | error
deriving DecidableEq

/-- The phases that keep `run` from starting. -/
def Phase.working (p : Phase) : Bool := p = .download || p = .unpack

/-- `runs` are in progress, each with its instance; a directory has the complete images in it.
`placed` says that no run has started and nothing was discarded since `images` was put in place. -/
structure Provisioning where
  phase : Phase := .idle
  runs : List (Nat × Stage) := []
  (tmp images : Option (List Image) := none)
  placed : Bool := false

/-- `settle` ends what the `i`-th run awaits; the last unpacking succeeds if the `rename` after it
does too.  `enough` is whether there is storage for a run. -/
inductive Action where
  | run (inst : Nat) (enough : Bool)
  | settle (i : Nat) (ok : Bool)
  | discard (inst : Nat)

namespace Provisioning

/-- The field `busy` of an instance. -/
def busy (s : Provisioning) (inst : Nat) : Bool := s.runs.any (·.1 = inst)

/-- `run` up to its first `await`: it returns at once, fails for want of storage, or starts. -/
def start (s : Provisioning) (inst : Nat) (enough : Bool) : Provisioning :=
  if s.busy inst || s.phase.working then s
  else if enough then
    { s with
      phase := .download, runs := s.runs ++ [(inst, .download .system)], tmp := some [],
      images := none }
  else { s with phase := .error, tmp := none }

/-- `run` from an `await` to the next one or to its end; nothing succeeds in a directory that is
gone. -/
def settle (s : Provisioning) (i : Nat) (ok : Bool) : Provisioning :=
  match s.runs[i]?, if ok then s.tmp else none with
  | none, _ => s
  | some _, none => { s with phase := .error, runs := s.runs.eraseIdx i, tmp := none }
  | some (inst, .download img), some _ =>
    { s with phase := .unpack, runs := s.runs.set i (inst, .unpack img) }
  | some (inst, .unpack .system), some files =>
    { s with runs := s.runs.set i (inst, .download .vendor), tmp := some (files ++ [.system]) }
  | some (_, .unpack .vendor), some files =>
    { s with
      phase := .done, runs := s.runs.eraseIdx i, tmp := none,
      images := some (files ++ [.vendor]) }

/-- `discard`, which looks at the `busy` of its own instance only. -/
def discard (s : Provisioning) (inst : Nat) : Provisioning :=
  if s.busy inst then s else { s with tmp := none, images := none }

/-- A `run` starts in this state: it is not refused, neither at once nor for want of storage. -/
def Starts (s : Provisioning) (inst : Nat) (enough : Bool) : Prop :=
  enough = true ∧ s.busy inst = false ∧ s.phase.working = false

instance (s : Provisioning) (inst : Nat) (enough : Bool) : Decidable (s.Starts inst enough) :=
  inferInstanceAs (Decidable (_ ∧ _))

/-- `placed` after an action: set by the rename of the vendor image's run, cleared by a run that
starts and by a `discard` that is not of a busy instance. -/
def placedAfter (s : Provisioning) : Action → Bool
  | .run inst enough => s.placed && !decide (s.Starts inst enough)
  | .settle i ok => s.placed ||
      (ok && s.tmp.isSome && s.runs[i]?.any fun r => r.2 matches .unpack .vendor)
  | .discard inst => s.placed && s.busy inst

/-- What the code does in an action. -/
def act (s : Provisioning) : Action → Provisioning
  | .run inst enough => s.start inst enough
  | .settle i ok => s.settle i ok
  | .discard inst => s.discard inst

/-- One step, with the record of it. -/
def step (s : Provisioning) (a : Action) : Option Provisioning :=
  some { s.act a with placed := s.placedAfter a }

/-- At most one run is in progress; `images.tmp` is there exactly during a run, with what the run
has unpacked; `images` has both images, and is there exactly from a rename up to the next run that
starts or the next effective `discard`. -/
structure Exclusive (s : Provisioning) : Prop where
  one : s.runs.length ≤ 1
  tmp : s.tmp = s.runs.head?.map fun r => r.2.complete
  complete : ∀ files ∈ s.images, files = [.system, .vendor]
  between : s.images.isSome = s.placed
  apart : s.images.isSome → s.runs = []

/-- Only the instance whose run it is discards during a run. -/
def Fits (s : Provisioning) : Action → Prop
  | .discard inst => s.runs = [] ∨ s.busy inst = true
  | _ => True

/-- No run is in progress, or one is and has its directory. -/
inductive Inv (s : Provisioning) : Prop where
  | rest (hruns : s.runs = []) (htmp : s.tmp = none)
      (himages : s.images = if s.placed then some [.system, .vendor] else none)
  | run (inst : Nat) (stage : Stage) (hruns : s.runs = [(inst, stage)])
      (htmp : s.tmp = some stage.complete) (himages : s.images = none) (hplaced : s.placed = false)
      (hphase : s.phase.working = true)

variable {s s' : Provisioning} {a : Action}

theorem Inv.exclusive (h : s.Inv) : s.Exclusive := by
  cases h with
  | rest hruns htmp himages =>
    refine ⟨by simp [hruns], by simp [hruns, htmp], fun files hf => ?_, ?_, fun _ => hruns⟩
    · cases hplaced : s.placed <;> simp [himages, hplaced] at hf
      exact hf.symm
    · rw [himages]
      cases s.placed <;> rfl
  | run inst stage hruns htmp himages hplaced =>
    exact ⟨by simp [hruns], by simp [hruns, htmp], by simp [himages], by simp [himages, hplaced],
      by simp [himages]⟩

/-- A run that starts leaves nothing of `images`; one that is refused leaves it as it is. -/
theorem Inv.start (h : s.Inv) (inst : Nat) (enough : Bool) :
    ({ s.start inst enough with placed := s.placedAfter (.run inst enough) } :
       Provisioning).Inv := by
  rw [Provisioning.start, placedAfter]
  split_ifs with hrefused henough
  · have hstays : ¬ s.Starts inst enough := by
      rintro ⟨-, hbusy, hphase⟩
      simp [hbusy, hphase] at hrefused
    simpa [hstays] using h
  · obtain ⟨hbusy, hphase⟩ := Bool.or_eq_false_iff.mp (Bool.eq_false_iff.mpr hrefused)
    cases h with
    | rest hruns htmp himages =>
      exact .run inst (.download .system) (by simp [hruns]) rfl rfl
        (by simp [Starts, henough, hbusy, hphase]) rfl
    | run inst' stage hruns htmp himages hplaced hworking => cases hphase.symm.trans hworking
  · obtain ⟨-, hphase⟩ := Bool.or_eq_false_iff.mp (Bool.eq_false_iff.mpr hrefused)
    cases h with
    | rest hruns htmp himages => exact .rest hruns rfl (by simpa [Starts, henough] using himages)
    | run inst' stage hruns htmp himages hplaced hworking => cases hphase.symm.trans hworking

theorem Inv.settle (h : s.Inv) (i : Nat) (ok : Bool) :
    ({ s.settle i ok with placed := s.placedAfter (.settle i ok) } : Provisioning).Inv := by
  obtain ⟨phase, runs, tmp, images, placed⟩ := s
  cases h with
  | rest hruns htmp himages =>
    cases hruns
    exact .rest rfl htmp (by simpa [Provisioning.settle, placedAfter] using himages)
  | run inst stage hruns htmp himages hplaced hphase =>
    cases hruns
    cases htmp
    cases himages
    cases hplaced
    cases i with
    | succ i =>
      exact .run inst stage rfl rfl rfl (by simp [placedAfter]) hphase
    | zero =>
      match ok, stage with
      | false, _ => exact .rest rfl rfl rfl
      | true, .download .system => exact .run inst (.unpack .system) rfl rfl rfl rfl rfl
      | true, .download .vendor => exact .run inst (.unpack .vendor) rfl rfl rfl rfl rfl
      | true, .unpack .system => exact .run inst (.download .vendor) rfl rfl rfl rfl hphase
      | true, .unpack .vendor => exact .rest rfl rfl rfl

theorem Inv.step (h : s.Inv) (hfits : s.Fits a) (hs : s.step a = some s') : s'.Inv := by
  cases hs
  cases a with
  | run inst enough => exact h.start inst enough
  | settle i ok => exact h.settle i ok
  | discard inst =>
    cases hbusy : s.busy inst with
    | true => simpa [act, discard, placedAfter, hbusy] using h
    | false =>
      have hruns : s.runs = [] := hfits.resolve_right (by simp [hbusy])
      exact .rest (by simpa [act, discard, hbusy] using hruns) (by simp [act, discard, hbusy])
        (by simp [act, discard, placedAfter, hbusy])

theorem not_exclusive (hfits : ¬ s.Fits a) (hs : s.step a = some s') : ¬ s'.Exclusive := by
  cases hs
  cases a with
  | discard inst =>
    obtain ⟨hruns, hbusy⟩ := not_or.mp hfits
    obtain ⟨r, runs, hr⟩ := exists_cons_of_ne_nil hruns
    intro h
    have htmp := h.tmp
    simp [act, discard, hbusy, hr] at htmp
  | _ => exact absurd trivial hfits

/-- **Provisioning is exclusive and atomic** exactly if no instance discards during the run of
another. -/
theorem exclusive_iff (actions : List Action) :
    Always step Exclusive {} actions ↔ Along step Fits {} actions := by
  obtain ⟨s, hrun, -⟩ : ∃ s, run step {} actions = some s ∧ True :=
    run_of_along (fun s a _ _ => ⟨_, rfl, trivial⟩) (along_of_forall (fun _ _ _ => trivial) _)
      trivial
  exact always_iff_along (fun _ => Inv.exclusive) (fun _ _ _ => Inv.step)
    (fun _ _ _ _ => not_exclusive) hrun (.rest rfl rfl rfl)

/-- The page is created again while the first instance downloads the vendor image. -/
def recreated : List Action := [.run 1 true, .settle 0 true, .settle 0 true, .discard 2]

theorem run_discarded : ∃ s, run step {} recreated = some s ∧
    s.runs = [(1, .download .vendor)] ∧ s.tmp = none ∧ ¬ s.Exclusive :=
  ⟨_, rfl, rfl, rfl, fun h => absurd h.tmp nofun⟩

end Provisioning

end OniroSoc.App

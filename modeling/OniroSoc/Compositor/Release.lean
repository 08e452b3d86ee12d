import OniroSoc.Compositor.Stages

/-!
# Every commit is released exactly once

A commit of a buffer is always somewhere: released, in `inFlight_`, in `releasedPending_`, or in the
hands of a thread (`Instr.inHand`).  The exception: `UntrackInFlight` takes back the entry of a
commit whose flush has failed, and a late callback of an earlier flush can have taken that before.
-/

namespace OniroSoc.Compositor
open Support List Function

def Instr.inHand (b : Nat) : Instr → Int
  | .trackInFlight b' _ => if b' = b then 1 else 0
  | .untrackInFlight b' => if b' = b then -1 else 0
  | .sendReleases bs => bs.count b
  | _ => 0

def inHand (todo : List Instr) (b : Nat) : Int := (todo.map (Instr.inHand b)).sum

@[simp] theorem inHand_nil (b : Nat) : inHand [] b = 0 := rfl

@[simp] theorem inHand_cons (i : Instr) (todo : List Instr) (b : Nat) :
    inHand (i :: todo) b = i.inHand b + inHand todo b := by
  simp [inHand]

@[simp] theorem inHand_append (todo todo' : List Instr) (b : Nat) :
    inHand (todo ++ todo') b = inHand todo b + inHand todo' b := by
  simp [inHand]

@[simp] theorem inHand_resets (ws : List Nat) (b : Nat) : inHand (ws.map .resetQueue) b = 0 := by
  induction ws with
  | nil => rfl
  | cons w ws ih => simpa [Instr.inHand] using ih

theorem inHand_retryFrame (b w b' : Nat) : inHand (retryFrame b w) b' = 0 := by
  simp only [retryFrame, flushAgain, inHand_cons, inHand_nil, Instr.inHand]
  split <;> rfl

theorem Stage.inHand_nonneg {todo : List Instr} (h : Stage todo) (b : Nat) : 0 ≤ inHand todo b := by
  cases h with
  | resets ws => simp
  | retry b' w => rw [inHand_retryFrame]
  | _ =>
    simp only [commitFrame, Compositor.forget, detachAndRelease, Compositor.flushAgain, inHand_cons,
      inHand_nil, Instr.inHand, count_cons, count_nil, beq_iff_eq]
    grind

namespace System

def ipcInHand (s : System) (b : Nat) : Int := (s.ipc.map fun todo => inHand todo b).sum

def accounted (s : System) (b : Nat) : Int :=
  s.releases b + s.server.inFlight.count b + s.server.releasedPending.count b +
    inHand s.wayland b + s.ipcInHand b

def Balanced (s : System) : Prop := ∀ b ∉ s.destroyed, (s.commits b : Int) = s.accounted b

def placed (s : System) (b : Nat) : Int :=
  s.releases b + s.server.inFlight.count b + s.server.releasedPending.count b

end System

section
variable {s s' : System} {i : Instr} {rest todo : List Instr} {b : Nat}

theorem Executes.placed (h : Executes s rest i s' todo) (hs : Stage (i :: rest))
    (htrack : ∀ w, i = .trackInFlight b w → s.server.inFlight.count b = 0)
    (huntrack : i = .untrackInFlight b → s.server.inFlight.count b = 1)
    (hforget : i ≠ .forgetBuffer b) :
    s'.placed b + inHand todo b = s.placed b + inHand (i :: rest) b := by
  cases h with
  | track b' w =>
    simp only [System.placed, Server.trackInFlight, InFlight.count_insert, inHand_cons,
      Instr.inHand]
    grind
  | flushed h => simp [System.placed, Server.flush, Server.setOutput, Instr.inHand]
  | flushFailed b' w orElse =>
    have hzero : inHand orElse b = 0 := by
      obtain ⟨rfl | rfl, -⟩ := hs.orElse
      · exact inHand_retryFrame b' w b
      · simp only [inHand_cons, inHand_nil, Instr.inHand, count_cons, count_nil, beq_iff_eq]
        grind
    simp [hzero, Instr.inHand]
  | untrack b' =>
    simp only [System.placed, Server.untrackInFlight, InFlight.count_erase, inHand_cons,
      Instr.inHand]
    grind
  | reset w =>
    simp only [System.placed, Server.resetQueue, inHand_cons, Instr.inHand]
    split <;> simp [Server.setOutput]
  | release w =>
    have := s.server.inFlight.count_share w b
    simp only [System.placed, Server.releaseInFlightOf, inHand_cons, Instr.inHand]
    omega
  | send bs =>
    simp only [System.placed, System.release, inHand_cons, Instr.inHand]
    push_cast
    ring
  | forget b' =>
    have hne : b ≠ b' := fun h => hforget (h ▸ rfl)
    simp only [System.placed, Server.forgetBuffer, InFlight.count_erase, inHand_cons, Instr.inHand]
    simp [hne, count_filter]
  | resetWindows h => simp [Instr.inHand]
  | detach w => simp [System.placed, Server.detachOutput, Server.setOutput, Instr.inHand]

theorem Executes.releases_le (h : Executes s rest i s' todo) : s.releases b ≤ s'.releases b := by
  cases h with
  | send bs => exact Nat.le_add_right _ _
  | _ => exact le_rfl

end

theorem Stage.inHand_track {b w b' : Nat} {rest : List Instr}
    (h : Stage (.trackInFlight b w :: rest)) : inHand rest b' = 0 := by
  generalize hl : Instr.trackInFlight b w :: rest = l at h
  cases h with
  | track b w => cases hl; rfl
  | trackAgain b w => cases hl; rfl
  | resets ws => cases ws <;> cases hl
  | _ => cases hl

namespace System

structure Sound (s : System) : Prop where
  threads : s.Threads
  balanced : s.Balanced
  client : ∀ b ∉ s.destroyed, s.commits b ≤ s.releases b + 1

theorem accounted_eq (s : System) (b : Nat) :
    s.accounted b = s.placed b + inHand s.wayland b + s.ipcInHand b := rfl

theorem Threads.ipcInHand_nonneg {s : System} (h : s.Threads) (b : Nat) : 0 ≤ s.ipcInHand b := by
  refine sum_nonneg fun x hx => ?_
  obtain ⟨todo, hm, rfl⟩ := mem_map.mp hx
  exact (h.ipc todo hm).1.inHand_nonneg b

theorem sum_set_inHand {ipc : List (List Instr)} {k : Nat} {old : List Instr}
    (hk : ipc[k]? = some old) (new : List Instr) (b : Nat) :
    ((ipc.set k new).map fun todo => inHand todo b).sum + inHand old b =
      (ipc.map fun todo => inHand todo b).sum + inHand new b := by
  induction ipc generalizing k with
  | nil => simp at hk
  | cons t ts ih =>
    cases k with
    | zero =>
      simp only [getElem?_cons_zero, Option.some.injEq] at hk
      subst hk
      simp only [set_cons_zero, map_cons, sum_cons]
      ring
    | succ k =>
      have := ih (by simpa using hk)
      simp only [set_cons_succ, map_cons, sum_cons]
      linarith

theorem Sound.count_eq_zero {s : System} (h : s.Sound) {b w : Nat} {rest : List Instr}
    (hw : s.wayland = .trackInFlight b w :: rest) : s.server.inFlight.count b = 0 := by
  have hb : b ∉ s.destroyed := h.threads.alive _ (hw ▸ mem_cons_self) b rfl
  have hbal := h.balanced b hb
  have hcl := h.client b hb
  have hipc := h.threads.ipcInHand_nonneg b
  have hrest : inHand rest b = 0 := (hw ▸ h.threads.wayland : Stage _).inHand_track
  rw [accounted_eq, hw, inHand_cons, hrest, placed] at hbal
  simp only [Instr.inHand, if_true] at hbal
  omega

/-- A commit whose flush failed still has its entry when it is untracked. -/
def UntrackFinds (s : System) : Action → Prop
  | .wayland _ => ∀ b rest, s.wayland = .untrackInFlight b :: rest → s.server.inFlight.contains b
  | _ => True

end System

section
variable {s s' : System} {a : System.Action} {b : Nat}

theorem Server.Quiet.placed {server : Server} (h : s.server.Quiet server) :
    (s.server.inFlight.count b : Int) + s.server.releasedPending.count b =
      server.inFlight.count b + server.releasedPending.count b := by
  rw [h.inFlight, h.releasedPending]

theorem count_onBufferReleased (server : Server) (b' b : Nat) :
    (server.onBufferReleased b').inFlight.count b +
      (server.onBufferReleased b').releasedPending.count b =
      server.inFlight.count b + server.releasedPending.count b := by
  unfold Server.onBufferReleased
  split
  case isTrue h =>
    have hcount := server.inFlight.count_eq b'
    rw [if_pos h] at hcount
    simp only [InFlight.count_erase, count_append, count_cons, count_nil, beq_iff_eq]
    split <;> grind
  case isFalse => rfl

theorem System.Balanced.of_moved (hs : s.Balanced) (hd : ∀ b ∉ s'.destroyed, b ∉ s.destroyed)
    (h : ∀ b ∉ s'.destroyed, (s'.commits b : Int) + s.accounted b = s.commits b + s'.accounted b) :
    s'.Balanced := by
  intro b hb
  have hbal := hs b (hd b hb)
  have := h b hb
  omega

theorem Executes.balanced_wayland {i : Instr} {rest todo : List Instr} (hs : s.Sound)
    (hw : s.wayland = i :: rest) (h : Executes s rest i s' todo)
    (hfinds : ∀ b, i = .untrackInFlight b → s.server.inFlight.contains b) :
    { s' with wayland := todo }.Balanced := by
  obtain ⟨-, hi, hc, hd⟩ := h.frame
  have hstage : Stage (i :: rest) := hw ▸ hs.threads.wayland
  refine hs.balanced.of_moved (fun b hb => hd ▸ hb) fun b hb => ?_
  have hlive : b ∉ s.destroyed := hd ▸ hb
  have htrack : ∀ w, i = .trackInFlight b w → s.server.inFlight.count b = 0 := by
    rintro w rfl
    exact hs.count_eq_zero hw
  have huntrack : i = .untrackInFlight b → s.server.inFlight.count b = 1 := by
    intro hi
    rw [InFlight.count_eq, if_pos (hfinds b hi)]
  have hforget : i ≠ .forgetBuffer b := by
    rintro rfl
    exact hlive (hs.threads.forgotten b (hw ▸ mem_cons_self))
  have key := h.placed hstage htrack huntrack hforget
  rw [System.accounted_eq, System.accounted_eq, hw]
  simp only [hc, System.placed, System.ipcInHand, hi] at key ⊢
  linarith

theorem Executes.balanced_ipc {k : Nat} {i : Instr} {rest todo : List Instr} (hs : s.Sound)
    (hk : s.ipc[k]? = some (i :: rest)) (h : Executes s rest i s' todo) :
    { s' with ipc := s'.ipc.set k todo }.Balanced := by
  obtain ⟨hw, hi, hc, hd⟩ := h.frame
  obtain ⟨hstage, hback⟩ := hs.threads.ipc _ (mem_of_getElem? hk)
  have hhead := hback i (.head _)
  refine hs.balanced.of_moved (fun b hb => hd ▸ hb) fun b hb => ?_
  have key := h.placed hstage (b := b) (by rintro w rfl; exact hhead.elim)
    (by rintro rfl; exact hhead.elim) (by rintro rfl; exact hhead.elim)
  have hset := System.sum_set_inHand hk todo b
  rw [System.accounted_eq, System.accounted_eq]
  simp only [hc, System.placed, System.ipcInHand, hi, hw] at key hset ⊢
  linarith

namespace Steps
variable (h : Steps s a s')
include h

theorem balanced (hs : s.Sound) (hok : s.UntrackFinds a) :
    s'.Balanced := by
  cases h with
  | @wayland i rest todo s₁ o hw h =>
    exact h.balanced_wayland hs hw fun b hi => hok b rest (by rw [hw, hi])
  | ipc o hk h => exact h.balanced_ipc hs hk
  | @commitShown surface b' w server hw hb' hq ho =>
    refine hs.balanced.of_moved (fun b hb => hb) fun b hb => ?_
    have hp := hq.placed (b := b)
    rw [System.accounted_eq, System.accounted_eq, hw]
    simp only [System.placed, System.ipcInHand, commitFrame, inHand_cons, inHand_nil, Instr.inHand,
      update_apply] at hp ⊢
    grind
  | @commitDropped a b' server ha hw hb' hq =>
    refine hs.balanced.of_moved (fun b hb => hb) fun b hb => ?_
    have hp := hq.placed (b := b)
    rw [System.accounted_eq, System.accounted_eq]
    simp only [System.placed, System.ipcInHand, update_apply, count_cons, count_nil, beq_iff_eq]
      at hp ⊢
    grind
  | drainReleases hw =>
    refine hs.balanced.of_moved (fun b hb => hb) fun b hb => ?_
    rw [System.accounted_eq, System.accounted_eq, hw]
    simp only [System.placed, System.ipcInHand, Server.drainReleases, inHand_cons, inHand_nil,
      Instr.inHand, count_nil]
    omega
  | @destroyBuffer b' hw hb' =>
    refine hs.balanced.of_moved (fun b hb h => hb (mem_cons_of_mem b' h)) fun b hb => ?_
    have hnone : inHand (if b' ∈ s.server.watchedBuffers then Compositor.forget b' else []) b = 0 :=
      by
      split <;> simp [Compositor.forget, Instr.inHand]
    rw [System.accounted_eq, System.accounted_eq, hw]
    simp only [hnone]
    rfl
  | @detachTask w ts hw hp =>
    refine hs.balanced.of_moved (fun b hb => hb) fun b hb => ?_
    rw [System.accounted_eq, System.accounted_eq, hw]
    rfl
  | quiet ha hq =>
    refine hs.balanced.of_moved (fun b hb => hb) fun b hb => ?_
    have hp := hq.placed (b := b)
    rw [System.accounted_eq, System.accounted_eq]
    simp only [System.placed, System.ipcInHand]
    linarith
  | @bufferReleased b' hcb =>
    refine hs.balanced.of_moved (fun b hb => hb) fun b hb => ?_
    have hp := count_onBufferReleased s.server b' b
    rw [System.accounted_eq, System.accounted_eq]
    simp only [System.placed, System.ipcInHand]
    omega
  | detachWindow h =>
    obtain ⟨-, ⟨⟩⟩ := Option.ite_none_right_eq_some.mp h
    exact hs.balanced
  | clearOutputSurface =>
    refine hs.balanced.of_moved (fun b hb => hb) fun b hb => ?_
    rw [System.accounted_eq, System.accounted_eq]
    simp [System.placed, System.ipcInHand, detachAndRelease, Instr.inHand]
  | attachWindow | attachLegacy => exact hs.balanced

theorem client (hs : s.Sound) :
    ∀ b ∉ s'.destroyed, s'.commits b ≤ s'.releases b + 1 := by
  intro b hb
  cases h with
  | wayland o hw h | ipc o hk h =>
    obtain ⟨-, -, hc, hd⟩ := h.frame
    have := hs.client b (hd ▸ hb)
    have := h.releases_le (b := b)
    simp only [hc]
    omega
  | @commitShown surface b' w server hw hb' hq ho =>
    have := hs.client b hb
    have := hb'.2
    simp only [update_apply]
    grind
  | @commitDropped a b' server ha hw hb' hq =>
    have := hs.client b hb
    have := hb'.2
    simp only [update_apply, count_cons, count_nil, beq_iff_eq]
    grind
  | destroyBuffer => exact hs.client b fun h => hb (.tail _ h)
  | _ => exact hs.client b hb

theorem sound (hs : s.Sound) (hok : s.UntrackFinds a) : s'.Sound :=
  ⟨h.threads hs.threads, h.balanced hs hok, h.client hs⟩

theorem unbalanced (hs : s.Sound) (hok : ¬ s.UntrackFinds a) :
    ¬ s'.Balanced := by
  cases h with
  | @wayland i rest todo s₁ o hw h =>
    simp only [System.UntrackFinds, not_forall] at hok
    obtain ⟨b, rest', hw', hmiss⟩ := hok
    obtain ⟨rfl, rfl⟩ := List.cons.inj (hw.symm.trans hw')
    cases h
    have hb : b ∉ s.destroyed := hs.threads.alive _ (hw ▸ mem_cons_self) b rfl
    have hcount : s.server.inFlight.count b = 0 := by rw [InFlight.count_eq, if_neg hmiss]
    have hbal := hs.balanced b hb
    intro hbal'
    have hbal' := hbal' b hb
    rw [System.accounted_eq, hw, inHand_cons] at hbal
    rw [System.accounted_eq] at hbal'
    simp only [System.placed, System.ipcInHand, Server.untrackInFlight, InFlight.count_erase,
      Instr.inHand, if_true] at hbal hbal'
    omega
  | quiet ha | commitDropped ha => cases a <;> first | exact absurd trivial hok | cases ha
  | _ => exact absurd trivial hok

end Steps

end

namespace System

theorem Initial.sound {s : System} (h : s.Initial) : s.Sound where
  threads := h.threads
  balanced b _ := by
    simp [accounted, ipcInHand, InFlight.count, h.inFlight, h.releasedPending, h.wayland, h.ipc,
      h.commits b, h.releases b]
  client b _ := by
    rw [h.commits b]
    exact Nat.zero_le _

theorem accounted_idle {s : System} (h : s.Idle) (b : Nat) :
    s.accounted b =
      s.releases b + (if s.server.inFlight.contains b then 1 else 0) +
        s.server.releasedPending.count b := by
  have hipc : s.ipcInHand b = 0 := by
    refine sum_eq_zero fun x hx => ?_
    obtain ⟨todo, hm, rfl⟩ := mem_map.mp hx
    rw [h.2 todo hm, inHand_nil]
  rw [accounted, hipc, h.1, inHand_nil, InFlight.count_eq]
  split <;> simp

/-- **Exactly-once release.** Every commit of every live buffer is accounted for once, at all times,
exactly when every `UntrackInFlight` finds the entry it is to take back. -/
theorem release_once_iff {s s' : System} {as : List Action} (hs : s.Initial)
    (h : run step s as = some s') :
    (Always step Balanced s as ↔ Along step UntrackFinds s as) ∧
    (Along step UntrackFinds s as → s'.Idle →
      ∀ b ∉ s'.destroyed, s'.commits b =
          s'.releases b + (if s'.server.inFlight.contains b then 1 else 0) +
            s'.server.releasedPending.count b) := by
  refine ⟨always_iff_along (fun _ hs => Sound.balanced hs)
    (fun _ _ _ hs hok h => (step_steps h).sound hs hok)
    (fun _ _ _ hs hok h => (step_steps h).unbalanced hs hok) h hs.sound, fun hok hidle b hb => ?_⟩
  have hsound : s'.Sound :=
    run_invariant_along (fun _ _ _ hs hok h => (step_steps h).sound hs hok) hok h hs.sound
  have := hsound.balanced b hb
  rw [accounted_idle hidle] at this
  exact_mod_cast this

/-- The flush of a second buffer fails and succeeds on the retry; the client commits the first
again, and its old flush is called back just before the new one fails. -/
def lateCallback : List Action :=
  [.request (.createSurface ⟨1, 1, 0⟩), .attachWindow [], .commit 1 1 (some 1) true, .wayland .ok,
    .wayland .ok, .commit 1 2 (some 1) true, .wayland .ok, .wayland .failed, .wayland .ok,
    .wayland .ok, .wayland .ok, .wayland .ok, .wayland .ok, .wayland .ok, .commit 1 1 (some 1) true,
    .wayland .ok, .bufferReleased 1, .wayland .failed, .wayland .ok, .wayland .ok, .wayland .ok,
    .wayland .ok, .wayland .ok, .wayland .ok]

theorem late_callback_counted_twice :
    ∃ s, run step started lateCallback = some s ∧ s.Idle ∧ 1 ∉ s.destroyed ∧ s.commits 1 = 2 ∧
      s.releases 1 = 1 ∧ s.server.inFlight.contains 1 ∧ s.server.releasedPending.count 1 = 1 := by
  refine ⟨_, rfl, ⟨rfl, ?_⟩, ?_, ?_, ?_, ?_, ?_⟩ <;> decide

theorem release_once_iff_lateCallback : started.Initial ∧ (run step started lateCallback).isSome ∧
      (Always step Balanced started lateCallback ↔ Along step UntrackFinds started lateCallback) :=
  ⟨started_initial, by decide, (release_once_iff started_initial rfl).1⟩

end System

end OniroSoc.Compositor

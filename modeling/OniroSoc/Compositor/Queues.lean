import OniroSoc.Compositor.Stages

/-!
# No in-flight entry outlives its queue

An entry of `inFlight_` is good as long as its buffer is in the queue of its output.  When the queue
is reset, detached or replaced, `ReleaseInFlightOf` has to release the output's entries;
`ForgetBuffer` and a legacy output attached anew do not call it.
-/

namespace OniroSoc.Compositor
open Support List

namespace System

def Owes (s : System) (w : Nat) : Prop :=
  .releaseInFlightOf w ∈ s.wayland ∨
    (∃ todo ∈ s.ipc, .releaseInFlightOf w ∈ todo) ∨ .detach w ∈ s.server.posted

def Committing (s : System) (e : Entry) : Prop :=
  (∃ orElse, s.wayland.head? = some (.flush e.buffer e.window orElse)) ∨
    s.wayland.head? = some (.untrackInFlight e.buffer)

def Backs (s : System) (e : Entry) : Prop :=
  e.buffer ∈ (s.server.outputs e.window).queue ∨ s.Owes e.window ∨ s.Committing e

def Backed (s : System) : Prop := ∀ e ∈ s.server.inFlight.entries, s.Backs e

/-- A queue is emptied only when nothing else is in flight on it, or what is will be handed back. -/
def EmptiesIdle (s : System) : Action → Prop
  | .wayland _ => ∀ w rest, s.wayland = .resetQueue w :: rest → (s.server.outputs w).attached →
      ∀ e ∈ s.server.inFlight.entries, e.window = w → s.Owes w
  | .attachLegacy => ∀ e ∈ s.server.inFlight.entries, e.window = 0 → s.Owes 0 ∨ s.Committing e
  | _ => True

end System

structure System.Numbered (s : System) : Prop where
  next : 0 < s.server.nextWindowId
  windows : ∀ w ∈ s.server.windows.map Window.id, w < s.server.nextWindowId
  shown : ∀ i ∈ s.wayland, ∀ w, i.shows = some w → w < s.server.nextWindowId
  entries : ∀ e ∈ s.server.inFlight.entries, e.window < s.server.nextWindowId

section
variable {s s' : System} {i : Instr} {rest todo : List Instr} {w : Nat} {e : Entry}

theorem Executes.entries (h : Executes s rest i s' todo) (he : e ∈ s'.server.inFlight.entries) :
    e ∈ s.server.inFlight.entries ∨ i = .trackInFlight e.buffer e.window := by
  cases h with
  | track b w =>
    rcases InFlight.mem_insert.mp he with rfl | ⟨he, -⟩
    · exact .inr rfl
    · exact .inl he
  | untrack b | forget b => exact .inl (InFlight.mem_erase.mp he).1
  | reset w =>
    left
    unfold Server.resetQueue at he
    split at he <;> exact he
  | release w => exact .inl (mem_of_mem_filter he)
  | _ => exact .inl he

theorem Executes.owed (h : Executes s rest i s' todo) (hw : .releaseInFlightOf w ∈ i :: rest)
    (hi : i ≠ .releaseInFlightOf w) : .releaseInFlightOf w ∈ todo := by
  have hrest : .releaseInFlightOf w ∈ rest := (mem_cons.mp hw).resolve_left fun h => hi h.symm
  cases h with
  | flushFailed | resetWindows => exact mem_append_right _ hrest
  | release => exact .tail _ hrest
  | _ => exact hrest

theorem Executes.queue (h : Executes s rest i s' todo) {b : Nat}
    (hb : b ∈ (s.server.outputs w).queue) :
    b ∈ (s'.server.outputs w).queue ∨ (i = .resetQueue w ∧ (s.server.outputs w).attached) ∨
    i = .detachOutput w := by
  cases h with
  | @flushed b' w' orElse h =>
    left
    by_cases hw : w = w'
    · subst hw
      simp [Server.flush, Server.setOutput, hb]
    · simpa [Server.flush, Server.setOutput, hw] using hb
  | reset w' =>
    by_cases hw : w = w'
    · subst hw
      by_cases ha : (s.server.outputs w).attached
      · exact .inr (.inl ⟨rfl, ha⟩)
      · exact .inl (by simpa [Server.resetQueue, ha] using hb)
    · left
      unfold Server.resetQueue
      dsimp only
      split
      · simpa [Server.setOutput, hw] using hb
      · exact hb
  | detach w' =>
    by_cases hw : w = w'
    · subst hw
      exact .inr (.inr rfl)
    · exact .inl (by simpa [Server.detachOutput, Server.setOutput, hw] using hb)
  | _ => exact .inl hb

theorem Executes.released (h : Executes s rest (.releaseInFlightOf w) s' todo)
    (he : e ∈ s'.server.inFlight.entries) : e.window ≠ w := by
  cases h
  simpa using (mem_filter.mp he).2

theorem Executes.untracked {b : Nat} (h : Executes s rest (.untrackInFlight b) s' todo)
    (he : e ∈ s'.server.inFlight.entries) : e.buffer ≠ b := by
  cases h
  exact (InFlight.mem_erase.mp he).2

end

variable {w : Nat} {rest : List Instr}

theorem Stage.flush_next {b : Nat} (h : Stage (.trackInFlight b w :: rest)) :
    ∃ orElse, rest.head? = some (.flush b w orElse) := by
  generalize hl : Instr.trackInFlight b w :: rest = l at h
  cases h with
  | track b w => cases hl; exact ⟨_, rfl⟩
  | trackAgain b w => cases hl; exact ⟨_, rfl⟩
  | resets ws => cases ws <;> cases hl
  | _ => cases hl

theorem Stage.release_next (h : Stage (.detachOutput w :: rest)) : .releaseInFlightOf w ∈ rest := by
  generalize hl : Instr.detachOutput w :: rest = l at h
  cases h with
  | detach w => cases hl; exact mem_singleton_self _
  | resets ws => cases ws <;> cases hl
  | _ => cases hl

theorem Stage.reset_next (h : Stage (.resetQueue w :: rest)) :
    ∀ i, rest.head? = some i → i.commits = none := by
  generalize hl : Instr.resetQueue w :: rest = l at h
  cases h with
  | reset b w => cases hl; rintro i ⟨⟩; rfl
  | resetLegacy => cases hl; rintro i ⟨⟩; rfl
  | resets ws =>
    cases ws with
    | nil => cases hl
    | cons w ws =>
      cases hl
      cases ws with
      | nil => rintro i ⟨⟩
      | cons w' ws => rintro i ⟨⟩; rfl
  | _ => cases hl

section
variable {s s' : System} {i : Instr} {rest todo : List Instr} {e : Entry}

theorem Executes.owes_wayland (h : Executes s rest i s' todo) (hw : s.wayland = i :: rest)
    {w : Nat} (ho : s.Owes w) (hi : i ≠ .releaseInFlightOf w) :
    System.Owes { s' with wayland := todo } w := by
  rcases ho with ho | ⟨t, ht, ho⟩ | ho
  · exact .inl (h.owed (hw ▸ ho) hi)
  · exact .inr (.inl ⟨t, h.frame.2.1 ▸ ht, ho⟩)
  · exact .inr (.inr (h.server_frame.1 ▸ ho))

theorem Executes.backs_wayland (h : Executes s rest i s' todo) (hw : s.wayland = i :: rest)
    (hs : Stage (i :: rest)) (hb : s.Backed)
    (hok : ∀ w, i = .resetQueue w → (s.server.outputs w).attached → e.window = w → s.Owes w)
    (he : e ∈ s'.server.inFlight.entries) : System.Backs { s' with wayland := todo } e := by
  rcases h.entries he with hold | rfl
  · rcases hb e hold with hq | ho | hc
    · -- in its queue: it stays there, or the hand-back of the emptied queue comes next
      rcases h.queue hq with hq | ⟨rfl, ha⟩ | rfl
      · exact .inl hq
      · exact .inr (.inl (h.owes_wayland hw (hok _ rfl ha rfl) (by simp)))
      · have := hs.release_next
        exact .inr (.inl (.inl (h.owed (.tail _ this) (by simp))))
    · -- owed: the hand-back is still to come, or has just taken the entry away
      by_cases hi : i = .releaseInFlightOf e.window
      · subst hi
        exact absurd rfl (h.released he)
      · exact .inr (.inl (h.owes_wayland hw ho hi))
    · rw [System.Committing, hw, head?_cons] at hc
      rcases hc with ⟨orElse, hc⟩ | hc
      · -- about to be flushed: in the queue now, or about to be untracked
        obtain rfl := Option.some.inj hc
        cases h with
        | flushed ha => exact .inl (by simp [Server.flush, Server.setOutput])
        | flushFailed =>
          obtain ⟨rfl | rfl, -⟩ := hs.orElse <;> exact .inr (.inr (.inr rfl))
      · obtain rfl := Option.some.inj hc
        exact absurd rfl (h.untracked he)
  · -- just tracked: its flush comes next
    cases h
    exact .inr (.inr (.inl hs.flush_next))

theorem mem_set_of_mem {α : Type*} {l : List α} {k : Nat} {old new t : α} (hk : l[k]? = some old)
    (ht : t ∈ l) : t = old ∨ t ∈ l.set k new := by
  obtain ⟨j, hj⟩ := mem_iff_getElem?.mp ht
  by_cases hjk : k = j
  · subst hjk
    exact .inl (Option.mem_unique hj hk)
  · refine .inr (mem_iff_getElem?.mpr ⟨j, ?_⟩)
    rw [getElem?_set_ne hjk, hj]

theorem Executes.backs_ipc {k : Nat} (h : Executes s rest i s' todo)
    (hk : s.ipc[k]? = some (i :: rest)) (hs : Stage (i :: rest)) (hi : i.handsBack 0)
    (hb : s.Backed) (he : e ∈ s'.server.inFlight.entries) :
    System.Backs { s' with ipc := s'.ipc.set k todo } e := by
  have hmem : todo ∈ s'.ipc.set k todo := by
    rw [h.frame.2.1]
    exact mem_iff_getElem?.mpr ⟨k, by simp [(List.getElem?_eq_some_iff.mp hk).1]⟩
  have howes : ∀ w, .releaseInFlightOf w ∈ todo →
      System.Owes { s' with ipc := s'.ipc.set k todo } w := fun w hw =>
    .inr (.inl ⟨todo, hmem, hw⟩)
  have hold : e ∈ s.server.inFlight.entries := by
    rcases h.entries he with hold | rfl
    exacts [hold, hi.elim]
  rcases hb e hold with hq | ho | hc
  · rcases h.queue hq with hq | ⟨rfl, -⟩ | rfl
    · exact .inl hq
    · exact hi.elim
    · exact .inr (.inl (howes _ (h.owed (.tail _ hs.release_next) (by simp))))
  · refine .inr (.inl ?_)
    rcases ho with ho | ⟨t, ht, ho⟩ | ho
    · exact .inl (h.frame.1 ▸ ho)
    · rcases mem_set_of_mem hk ht with rfl | ht
      · by_cases hr : i = .releaseInFlightOf e.window
        · subst hr
          exact absurd rfl (h.released he)
        · exact howes _ (h.owed ho hr)
      · exact .inr (.inl ⟨t, h.frame.2.1 ▸ ht, ho⟩)
    · exact .inr (.inr (h.server_frame.1 ▸ ho))
  · refine .inr (.inr ?_)
    rw [System.Committing] at hc ⊢
    rw [← h.frame.1] at hc
    exact hc

end

section
variable {s s' : System} {a : System.Action} {i : Instr}

theorem Executes.shows {rest todo : List Instr} (h : Executes s rest i s' todo)
    (hs : Stage (i :: rest)) {j : Instr} (hj : j ∈ todo) {w : Nat} (hw : j.shows = some w) :
    j ∈ rest ∨ i.shows = some w := by
  obtain hj | ⟨-, -, hj | hj⟩ | ⟨w, rfl⟩ | ⟨w, rfl⟩ | ⟨bs, rfl⟩ := h.mem_todo hs hj
  · exact .inl hj
  · rw [hj] at hw
    cases hw
  · exact .inr (hj ▸ hw)
  all_goals cases hw

theorem Instr.handsBack.shows {w : Nat} (h : i.handsBack w) : i.shows = none := by
  cases i <;> first | rfl | exact h.elim

theorem Server.onBufferReleased_frame (s : Server) (b : Nat) :
    (s.onBufferReleased b).outputs = s.outputs ∧
    (s.onBufferReleased b).windows = s.windows ∧
    (s.onBufferReleased b).nextWindowId = s.nextWindowId ∧
    (s.onBufferReleased b).posted = s.posted ∧
    ∀ e ∈ (s.onBufferReleased b).inFlight.entries, e ∈ s.inFlight.entries := by
  unfold Server.onBufferReleased
  split
  · exact ⟨rfl, rfl, rfl, rfl, fun e he => (InFlight.mem_erase.mp he).1⟩
  · exact ⟨rfl, rfl, rfl, rfl, fun e he => he⟩

theorem Executes.numbered {rest todo : List Instr} (h : Executes s rest i s' todo)
    (hn : s.Numbered) (hi : ∀ w, i.shows = some w → w < s.server.nextWindowId) :
    0 < s'.server.nextWindowId ∧
    (∀ w ∈ s'.server.windows.map Window.id, w < s'.server.nextWindowId) ∧
    ∀ e ∈ s'.server.inFlight.entries, e.window < s'.server.nextWindowId := by
  obtain ⟨-, hw, hnext⟩ := h.server_frame
  rw [hw, hnext]
  refine ⟨hn.next, hn.windows, fun e he => ?_⟩
  rcases h.entries he with he | rfl
  · exact hn.entries e he
  · exact hi _ rfl

theorem System.Numbered.quiet {server : Server} (hn : s.Numbered) (hq : s.server.Quiet server)
    (hserver : s'.server = server)
    (hw : ∀ i ∈ s'.wayland, ∀ w, i.shows = some w → w < s.server.nextWindowId) : s'.Numbered where
  next := by rw [hserver, hq.nextWindowId]; exact hn.next
  windows := by rw [hserver, hq.nextWindowId, hq.windows]; exact hn.windows
  shown := by rw [hserver, hq.nextWindowId]; exact hw
  entries := by rw [hserver, hq.nextWindowId, hq.inFlight]; exact hn.entries

theorem Steps.numbered (h : Steps s a s') (ht : s.Threads) (hn : s.Numbered) : s'.Numbered := by
  cases h with
  | @wayland i rest todo s₁ o hw h =>
    have hshown : ∀ w, i.shows = some w → w < s.server.nextWindowId :=
      hn.shown i (hw ▸ mem_cons_self)
    obtain ⟨h0, hwin, hent⟩ := h.numbered hn hshown
    refine ⟨h0, hwin, fun j hj w hjw => ?_, hent⟩
    rw [h.server_frame.2.2]
    rcases h.shows (hw ▸ ht.wayland) hj hjw with hj | hi
    · exact hn.shown j (hw ▸ mem_cons_of_mem i hj) w hjw
    · exact hshown w hi
  | @ipc k i rest todo s₁ o hk h =>
    have hback := (ht.ipc _ (mem_of_getElem? hk)).2 i (.head _)
    obtain ⟨h0, hwin, hent⟩ := h.numbered hn fun w hw => by rw [hback.shows] at hw; cases hw
    refine ⟨h0, hwin, ?_, hent⟩
    rw [h.server_frame.2.2, h.frame.1]
    exact hn.shown
  | @commitShown surface b w server hw hb hq ho =>
    refine hn.quiet hq rfl fun i hi w' hw' => ?_
    have hlt : w < s.server.nextWindowId := by
      rcases ho with rfl | ho
      exacts [hn.next, hn.windows w ho]
    simp only [commitFrame, mem_cons, not_mem_nil, or_false] at hi
    rcases hi with rfl | rfl <;> cases hw' <;> exact hlt
  | commitDropped ha hw hb hq => exact hn.quiet hq rfl hn.shown
  | quiet ha hq => exact hn.quiet hq rfl hn.shown
  | drainReleases hw => exact { hn with shown := by simp [Instr.shows] }
  | destroyBuffer hw hb =>
    refine { hn with shown := ?_ }
    dsimp only
    split <;> simp [Compositor.forget, Instr.shows]
  | detachTask hw hp =>
    exact { hn with shown := by simp [detachAndRelease, Instr.shows] }
  | @bufferReleased b hb =>
    obtain ⟨-, hw, hnext, -, hent⟩ := s.server.onBufferReleased_frame b
    refine ⟨hnext ▸ hn.next, ?_, ?_, fun e he => ?_⟩ <;> rw [hnext]
    · rw [hw]
      exact hn.windows
    · exact hn.shown
    · exact hn.entries e (hent e he)
  | attachWindow package =>
    have hlt : ∀ w, w < s.server.nextWindowId → w < s.server.nextWindowId + 1 := fun w h =>
      Nat.lt_succ_of_lt h
    refine ⟨Nat.succ_pos _, fun w hw => ?_, fun i hi w hw => hlt w (hn.shown i hi w hw),
      fun e he => hlt _ (hn.entries e he)⟩
    simp only [Server.attachWindow, map_append, map_cons, map_nil, mem_append, mem_singleton] at hw
    rcases hw with hw | rfl
    · exact hlt w (hn.windows w hw)
    · exact Nat.lt_succ_self _
  | @detachWindow id server h =>
    obtain ⟨-, ⟨⟩⟩ := Option.ite_none_right_eq_some.mp h
    refine { hn with windows := fun w hw => hn.windows w ?_ }
    exact (filter_sublist.map Window.id).subset hw
  | attachLegacy | clearOutputSurface => exact { hn with }

theorem System.Backed.of_idle (hb : s.Backed) (hw : s.wayland = [])
    (hent : ∀ e ∈ s'.server.inFlight.entries, e ∈ s.server.inFlight.entries)
    (hout : s'.server.outputs = s.server.outputs) (hipc : s'.ipc = s.ipc)
    (hpost : ∀ w, .detach w ∈ s.server.posted → s'.Owes w) : s'.Backed := by
  intro e he
  rcases hb e (hent e he) with hq | (ho | ho | ho) | hc
  · exact .inl (hout ▸ hq)
  · rw [hw] at ho
    cases ho
  · exact .inr (.inl (.inr (.inl (hipc ▸ ho))))
  · exact .inr (.inl (hpost _ ho))
  · rw [System.Committing, hw] at hc
    rcases hc with ⟨_, hc⟩ | hc <;> cases hc

theorem System.Backs.mono {e : Entry} (hb : s.Backs e) (hw : s'.wayland = s.wayland)
    (hout : ∀ b ∈ (s.server.outputs e.window).queue, b ∈ (s'.server.outputs e.window).queue)
    (hipc : ∀ todo ∈ s.ipc, todo ∈ s'.ipc)
    (hpost : ∀ w, .detach w ∈ s.server.posted → .detach w ∈ s'.server.posted) : s'.Backs e := by
  rcases hb with hq | ho | hc
  · exact .inl (hout _ hq)
  · rcases ho with ho | ⟨t, ht, ho⟩ | ho
    · exact .inr (.inl (.inl (hw ▸ ho)))
    · exact .inr (.inl (.inr (.inl ⟨t, hipc t ht, ho⟩)))
    · exact .inr (.inl (.inr (.inr (hpost _ ho))))
  · refine .inr (.inr ?_)
    rw [System.Committing, hw]
    exact hc

theorem Steps.backed (h : Steps s a s') (ht : s.Threads) (hn : s.Numbered) (hb : s.Backed)
    (hok : s.EmptiesIdle a) : s'.Backed := by
  cases h with
  | @wayland i rest todo s₁ o hw h =>
    intro e he
    refine h.backs_wayland hw (hw ▸ ht.wayland) hb (fun w hi ha hew => ?_) he
    have hold : e ∈ s.server.inFlight.entries := by
      rcases h.entries he with hold | htrack
      · exact hold
      · rw [hi] at htrack
        cases htrack
    exact hok w rest (by rw [hw, hi]) ha e hold hew
  | @ipc k i rest todo s₁ o hk h =>
    intro e he
    obtain ⟨hs, hback⟩ := ht.ipc _ (mem_of_getElem? hk)
    exact h.backs_ipc hk hs (hback i (.head _)) hb he
  | commitShown hw hb' hq ho | commitDropped ha hw hb' hq =>
    exact hb.of_idle hw (fun e he => hq.inFlight ▸ he) hq.outputs rfl fun w hw =>
      .inr (.inr (hq.detaching w hw))
  | drainReleases hw | destroyBuffer hw hb' =>
    exact hb.of_idle hw (fun e he => he) rfl rfl fun w hw => .inr (.inr hw)
  | @detachTask w ts hw hp =>
    refine hb.of_idle hw (fun e he => he) rfl rfl fun w' hw' => ?_
    rw [hp] at hw'
    rcases mem_cons.mp hw' with h | h
    · cases h
      exact .inl (by simp [detachAndRelease])
    · exact .inr (.inr h)
  | quiet ha hq =>
    intro e he
    exact (hb e (hq.inFlight ▸ he)).mono rfl (fun b hb => by rw [hq.outputs]; exact hb)
      (fun t ht => ht) hq.detaching
  | @bufferReleased b hcb =>
    obtain ⟨hout, -, -, hpost, hent⟩ := s.server.onBufferReleased_frame b
    intro e he
    exact (hb e (hent e he)).mono rfl (fun b hb => by rw [hout]; exact hb) (fun t ht => ht)
      fun w hw => by rw [hpost]; exact hw
  | attachWindow package =>
    intro e he
    have hne : e.window ≠ s.server.nextWindowId := (hn.entries e he).ne
    refine (hb e he).mono rfl (fun b hb => ?_) (fun t ht => ht) fun w hw => hw
    simpa [Server.attachWindow, Server.attachOutput, Server.setOutput, hne] using hb
  | @detachWindow id server h =>
    obtain ⟨-, ⟨⟩⟩ := Option.ite_none_right_eq_some.mp h
    intro e he
    exact (hb e he).mono rfl (fun b hb => hb) (fun t ht => ht) fun w hw => mem_append_left _ hw
  | attachLegacy =>
    intro e he
    by_cases h0 : e.window = 0
    · rcases hok e he h0 with ho | hc
      · exact .inr (.inl (h0 ▸ ho))
      · exact .inr (.inr hc)
    · refine (hb e he).mono rfl (fun b hb => ?_) (fun t ht => ht) fun w hw => hw
      simpa [Server.attachOutput, Server.setOutput, h0] using hb
  | clearOutputSurface =>
    intro e he
    exact (hb e he).mono rfl (fun b hb => hb) (fun t ht => mem_append_left _ ht) fun w hw => hw

theorem Steps.unbacked (h : Steps s a s') (ht : s.Threads) (hok : ¬ s.EmptiesIdle a) :
    ¬ s'.Backed := by
  cases h with
  | @wayland i rest todo s₁ o hw h =>
    simp only [System.EmptiesIdle, not_forall] at hok
    obtain ⟨w, rest', hw', hatt, e, he, hew, hno⟩ := hok
    obtain ⟨rfl, rfl⟩ := List.cons.inj (hw.symm.trans hw')
    have hstage : Stage (.resetQueue w :: rest) := hw ▸ ht.wayland
    cases h
    have hent : e ∈ (s.server.resetQueue w).inFlight.entries := by
      simpa [Server.resetQueue, hatt, Server.setOutput] using he
    intro hb
    rcases hb e hent with hq | ho | hc
    · simp [Server.resetQueue, hatt, Server.setOutput, hew] at hq
    · refine hno ?_
      rw [hew] at ho
      rcases ho with ho | ho | ho
      · exact .inl (hw ▸ .tail _ ho)
      · exact .inr (.inl ho)
      · exact .inr (.inr (by simpa [Server.resetQueue, hatt, Server.setOutput] using ho))
    · rcases hc with ⟨orElse, hc⟩ | hc <;> exact nomatch hstage.reset_next _ hc
  | attachLegacy =>
    simp only [System.EmptiesIdle, not_forall, not_or] at hok
    obtain ⟨e, he, h0, hno, hnc⟩ := hok
    intro hb
    rcases hb e he with hq | ho | hc
    · simp [Server.attachOutput, Server.setOutput, h0] at hq
    · exact hno (h0 ▸ ho)
    · exact hnc hc
  | quiet ha | commitDropped ha => cases a <;> first | exact absurd trivial hok | cases ha
  | _ => exact absurd trivial hok

end

namespace System

structure Kept (s : System) : Prop where
  threads : s.Threads
  numbered : s.Numbered
  backed : s.Backed

variable {s : System}

theorem Initial.kept (h : s.Initial) : s.Kept where
  threads := h.threads
  numbered := ⟨h.nextWindowId, by simp [h.windows], by simp [h.wayland], by simp [h.inFlight]⟩
  backed := by simp [Backed, h.inFlight]

theorem Kept.step {s' : System} {a : Action} (hs : s.Kept) (hok : s.EmptiesIdle a)
    (h : step s a = some s') : s'.Kept :=
  have h := step_steps h
  ⟨h.threads hs.threads, h.numbered hs.threads hs.numbered,
  h.backed hs.threads hs.numbered hs.backed hok⟩

theorem Backs.queue_of_idle {e : Entry} (h : s.Backs e) (hidle : s.Idle)
    (hpost : .detach e.window ∉ s.server.posted) :
    e.buffer ∈ (s.server.outputs e.window).queue := by
  rcases h with hq | (ho | ⟨todo, hm, ho⟩ | ho) | hc
  · exact hq
  · rw [hidle.1] at ho
    cases ho
  · rw [hidle.2 todo hm] at ho
    cases ho
  · exact absurd ho hpost
  · rw [Committing, hidle.1] at hc
    rcases hc with ⟨_, hc⟩ | hc <;> cases hc

theorem not_backed_of_empty {e : Entry} (hidle : s.Idle) (hpost : s.server.posted = [])
    (he : e ∈ s.server.inFlight.entries) (hq : (s.server.outputs e.window).queue = []) :
    ¬ s.Backed := by
  intro hb
  have := (hb e he).queue_of_idle hidle (by simp [hpost])
  rw [hq] at this
  cases this

/-- **No entry outlives its queue** exactly when every `ResetQueue` and every new surface of the
legacy output finds nothing else in flight there. -/
theorem queues_backed_iff {s s' : System} {as : List Action} (hs : s.Initial)
    (h : run step s as = some s') :
    (Always step Backed s as ↔ Along step EmptiesIdle s as) ∧
    (Along step EmptiesIdle s as → s'.Idle →
       ∀ e ∈ s'.server.inFlight.entries,
         .detach e.window ∉ s'.server.posted → e.buffer ∈ (s'.server.outputs e.window).queue) := by
  refine ⟨always_iff_along (fun _ hs => hs.backed) (fun _ _ _ hs hok h => hs.step hok h)
    (fun _ _ _ hs hok h =>
    (step_steps h).unbacked hs.threads hok) h hs.kept, fun hok hidle e he hpost => ?_⟩
  have hkept : s'.Kept := run_invariant_along (fun _ _ _ hs hok h => hs.step hok h) hok h hs.kept
  exact (hkept.backed e he).queue_of_idle hidle hpost

def destroyedBuffer : List Action :=
  [.request (.createSurface ⟨1, 1, 0⟩), .attachWindow [], .commit 1 1 (some 1) true, .wayland .ok,
    .wayland .ok, .commit 1 2 (some 1) true, .wayland .ok, .wayland .ok, .destroyBuffer 2,
    .wayland .ok, .wayland .ok, .wayland (.order [1]), .wayland .ok]

def replacedSurface : List Action :=
  [.request (.createSurface ⟨1, 1, 0⟩), .attachLegacy,
    .commit 1 1 (some 0) true, .wayland .ok, .wayland .ok, .attachLegacy]

theorem stranded_entries :
    (∃ s, run step started destroyedBuffer = some s ∧ s.Idle ∧ s.server.posted = [] ∧
       s.server.inFlight.entries = [⟨1, 1⟩] ∧ (s.server.outputs 1).queue = [] ∧ ¬ s.Backed) ∧
    (∃ s, run step started replacedSurface = some s ∧ s.Idle ∧ s.server.posted = [] ∧
       s.server.inFlight.entries = [⟨1, 0⟩] ∧ (s.server.outputs 0).queue = [] ∧ ¬ s.Backed) := by
  refine ⟨⟨_, rfl, ?idle, rfl, by decide, by decide, ?unbacked⟩,
    ⟨_, rfl, ?idle', rfl, by decide, by decide, ?unbacked'⟩⟩
  case idle | idle' => exact ⟨rfl, by decide⟩
  case unbacked =>
    exact not_backed_of_empty (e := ⟨1, 1⟩) ⟨rfl, by decide⟩ rfl (mem_singleton_self _) rfl
  case unbacked' =>
    exact not_backed_of_empty (e := ⟨1, 0⟩) ⟨rfl, by decide⟩ rfl (mem_singleton_self _) rfl

theorem queues_backed_iff_destroyedBuffer :
    started.Initial ∧ (run step started destroyedBuffer).isSome ∧
    (Always step Backed started destroyedBuffer ↔ Along step EmptiesIdle started destroyedBuffer) :=
  ⟨started_initial, by decide, (queues_backed_iff started_initial rfl).1⟩

end System

end OniroSoc.Compositor

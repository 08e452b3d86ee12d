import OniroSoc.Compositor.System

/-!
# Where the threads can be

The instruction lists that occur: the suffixes of `commitFrame`, with the retry spliced in where a
flush failed, of `forget` and of `detachAndRelease` (`Stage`).
-/

namespace OniroSoc.Compositor
open List Option

namespace InFlight

def count (m : InFlight) (b : Nat) : Nat := m.entries.countP fun e => e.buffer = b

theorem mem_erase {m : InFlight} {b : Nat} {e : Entry} :
    e ∈ (m.erase b).entries ↔ e ∈ m.entries ∧ e.buffer ≠ b := by
  simp [erase, keep]

theorem mem_insert {m : InFlight} {b w : Nat} {e : Entry} :
    e ∈ (m.insert b w).entries ↔ e = ⟨b, w⟩ ∨ e ∈ m.entries ∧ e.buffer ≠ b := by
  rw [← mem_erase]
  exact mem_cons

theorem count_eq (m : InFlight) (b : Nat) : m.count b = if m.contains b then 1 else 0 := by
  have h : m.count b = (m.entries.map Entry.buffer).count b := by
    rw [count, List.count, countP_map]
    rfl
  rw [h, m.nodup.count]
  simp [contains]

theorem count_erase (m : InFlight) (b b' : Nat) :
    (m.erase b).count b' = if b' = b then 0 else m.count b' := by
  unfold count erase keep
  rw [countP_filter]
  split_ifs with h
  · subst h
    simp
  · refine countP_congr fun e _ => ?_
    grind

theorem count_insert (m : InFlight) (b w b' : Nat) :
    (m.insert b w).count b' = if b' = b then 1 else m.count b' := by
  have h := m.count_erase b b'
  unfold count at h ⊢
  unfold insert
  rw [countP_cons, h]
  grind

theorem count_share (m : InFlight) (w b : Nat) :
    ((m.entries.filter fun e => e.window = w).map Entry.buffer).count b +
      (m.keep fun e => e.window ≠ w).count b = m.count b := by
  unfold count keep
  rw [List.count, countP_map, countP_filter, countP_filter,
    countP_eq_countP_filter_add m.entries (fun e =>
    decide (e.buffer = b)) (fun e => decide (e.window = w)), countP_filter, countP_filter]
  congr 1
  refine countP_congr fun e _ => ?_
  grind

end InFlight

inductive Stage : List Instr → Prop
  | idle : Stage []
  | track (b w : Nat) : Stage (commitFrame b w)
  | flush (b w : Nat) : Stage [.flush b w (retryFrame b w)]
  | retry (b w : Nat) : Stage (retryFrame b w)
  | reset (b w : Nat) : Stage
    [.resetQueue w, .releaseInFlightOf w, .trackInFlight b w, flushAgain b w]
  | handBack (b w : Nat) : Stage [.releaseInFlightOf w, .trackInFlight b w, flushAgain b w]
  | sendBack (bs : List Nat) (b w : Nat) : Stage
    [.sendReleases bs, .trackInFlight b w, flushAgain b w]
  | trackAgain (b w : Nat) : Stage [.trackInFlight b w, flushAgain b w]
  | flushAgain (b w : Nat) : Stage [flushAgain b w]
  | giveUp (b : Nat) : Stage [.untrackInFlight b, .sendReleases [b]]
  | send (bs : List Nat) : Stage [.sendReleases bs]
  | forget (b : Nat) : Stage (forget b)
  | resetLegacy : Stage [.resetQueue 0, .resetWindows]
  | resetWindows : Stage [.resetWindows]
  | resets (ws : List Nat) : Stage (ws.map .resetQueue)
  | detach (w : Nat) : Stage (detachAndRelease w)
  | release (w : Nat) : Stage [.releaseInFlightOf w]

inductive Executes (s : System) (rest : List Instr) : Instr → System → List Instr → Prop
  | track (b w : Nat) :
      Executes s rest (.trackInFlight b w) { s with server := s.server.trackInFlight b w } rest
  | flushed {b w : Nat} {orElse : List Instr} (h : (s.server.outputs w).attached) :
      Executes s rest (.flush b w orElse)
        { s with
          server := s.server.flush b w
          callbacks := Function.update s.callbacks b (s.callbacks b + 1) } rest
  | flushFailed (b w : Nat) (orElse : List Instr) : Executes s rest (.flush b w orElse) s
    (orElse ++ rest)
  | untrack (b : Nat) :
      Executes s rest (.untrackInFlight b) { s with server := s.server.untrackInFlight b } rest
  | reset (w : Nat) : Executes s rest
    (.resetQueue w) { s with server := s.server.resetQueue w } rest
  | release (w : Nat) :
      Executes s rest (.releaseInFlightOf w) { s with server := (s.server.releaseInFlightOf w).2 }
        (.sendReleases (s.server.releaseInFlightOf w).1 :: rest)
  | send (bs : List Nat) : Executes s rest (.sendReleases bs) (s.release bs) rest
  | forget (b : Nat) : Executes s rest
    (.forgetBuffer b) { s with server := s.server.forgetBuffer b } rest
  | resetWindows {ws : List Nat} (h : ws.Perm (s.server.windows.map Window.id)) :
      Executes s rest .resetWindows s (ws.map .resetQueue ++ rest)
  | detach (w : Nat) : Executes s rest
    (.detachOutput w) { s with server := s.server.detachOutput w } rest

variable {s s' : System} {i : Instr} {rest todo : List Instr}

theorem System.exec_executes {o : Outcome}
    (h : s.exec i o rest = some (s', todo)) : Executes s rest i s' todo := by
  unfold System.exec at h
  split at h
  case h_2 => split at h <;> cases h; exact .flushed ‹_›
  case h_9 => split at h <;> cases h; exact .resetWindows ‹_›
  case h_11 => cases h
  all_goals cases h; constructor

theorem Executes.stage (h : Executes s rest i s' todo) (hs : Stage (i :: rest)) : Stage todo := by
  generalize hl : i :: rest = l at hs
  cases hs with
  | idle => cases hl
  | track b w => cases hl; cases h; exact .flush b w
  | flush b w =>
    cases hl
    cases h with
    | flushed => exact .idle
    | flushFailed => exact .retry b w
  | retry b w => cases hl; cases h; exact .reset b w
  | reset b w => cases hl; cases h; exact .handBack b w
  | handBack b w => cases hl; cases h; exact .sendBack _ b w
  | sendBack bs b w => cases hl; cases h; exact .trackAgain b w
  | trackAgain b w => cases hl; cases h; exact .flushAgain b w
  | flushAgain b w =>
    cases hl
    cases h with
    | flushed => exact .idle
    | flushFailed => exact .giveUp b
  | giveUp b => cases hl; cases h; exact .send _
  | send bs => cases hl; cases h; exact .idle
  | forget b => cases hl; cases h; exact .resetLegacy
  | resetLegacy => cases hl; cases h; exact .resetWindows
  | resetWindows =>
    cases hl
    cases h with
    | @resetWindows ws _ => rw [append_nil]; exact .resets ws
  | resets ws =>
    obtain ⟨w, ws, rfl⟩ : ∃ w ws', ws = w :: ws' := by
      cases ws with
      | nil => cases hl
      | cons w ws => exact ⟨w, ws, rfl⟩
    cases hl
    cases h
    exact .resets ws
  | detach w => cases hl; cases h; exact .release w
  | release w => cases hl; cases h; exact .send _

theorem Stage.orElse {b w : Nat} {orElse : List Instr} (h : Stage (.flush b w orElse :: rest)) :
    (orElse = retryFrame b w ∨ orElse = [.untrackInFlight b, .sendReleases [b]]) ∧ rest = [] := by
  generalize hl : Instr.flush b w orElse :: rest = l at h
  cases h with
  | flush b' w' => cases hl; exact ⟨.inl rfl, rfl⟩
  | flushAgain b' w' => cases hl; exact ⟨.inr rfl, rfl⟩
  | resets ws => cases ws <;> cases hl
  | _ => cases hl

def Instr.commits : Instr → Option Nat
  | .trackInFlight b _ | .flush b _ _ | .untrackInFlight b => some b
  | _ => none

def Instr.shows : Instr → Option Nat
  | .trackInFlight _ w | .flush _ w _ => some w
  | _ => none

def Instr.handsBack (w : Nat) : Instr → Prop
  | .detachOutput w' | .releaseInFlightOf w' => w' = w
  | .sendReleases _ => True
  | _ => False

section
variable {s s' : System} {i : Instr} {rest todo : List Instr}

theorem Executes.frame (h : Executes s rest i s' todo) :
    s'.wayland = s.wayland ∧ s'.ipc = s.ipc ∧ s'.commits = s.commits ∧
    s'.destroyed = s.destroyed := by
  cases h <;> exact ⟨rfl, rfl, rfl, rfl⟩

theorem Executes.mem_todo (h : Executes s rest i s' todo) (hs : Stage (i :: rest)) {j : Instr}
    (hj : j ∈ todo) :
    j ∈ rest ∨
    (j.commits.isSome ∧ j.commits = i.commits ∧ (j.shows = none ∨ j.shows = i.shows)) ∨
    (∃ w, j = .resetQueue w) ∨ (∃ w, j = .releaseInFlightOf w) ∨ ∃ bs, j = .sendReleases bs := by
  cases h with
  | flushFailed b' w orElse =>
    right
    obtain ⟨rfl | rfl, rfl⟩ := hs.orElse <;>
    · simp only [retryFrame, flushAgain, append_nil, mem_cons, not_mem_nil, or_false] at hj
      rcases hj with rfl | rfl | rfl | rfl | rfl <;> simp [Instr.commits, Instr.shows]
  | release w =>
    rcases mem_cons.mp hj with rfl | hj
    · simp
    · exact .inl hj
  | resetWindows h =>
    rcases mem_append.mp hj with hj | hj
    · obtain ⟨w, -, rfl⟩ := List.mem_map.mp hj
      simp
    · exact .inl hj
  | _ => exact .inl hj

theorem Executes.handsBack (h : Executes s rest i s' todo) {w : Nat}
    (hi : ∀ j ∈ i :: rest, j.handsBack w) : ∀ j ∈ todo, j.handsBack w := by
  obtain ⟨hi, hrest⟩ := forall_mem_cons.mp hi
  cases h with
  | detach w' | send bs => exact hrest
  | release w' => exact forall_mem_cons.mpr ⟨trivial, hrest⟩
  | _ => exact hi.elim

end

theorem Executes.server_frame (h : Executes s rest i s' todo) : s'.server.posted = s.server.posted ∧
    s'.server.windows = s.server.windows ∧ s'.server.nextWindowId = s.server.nextWindowId := by
  cases h with
  | reset w =>
    unfold Server.resetQueue
    dsimp only
    split <;> exact ⟨rfl, rfl, rfl⟩
  | _ => exact ⟨rfl, rfl, rfl⟩

namespace Server

structure Quiet (s s' : Server) : Prop where
  inFlight : s'.inFlight = s.inFlight
  releasedPending : s'.releasedPending = s.releasedPending
  outputs : s'.outputs = s.outputs
  windows : s'.windows.map Window.id = s.windows.map Window.id
  nextWindowId : s'.nextWindowId = s.nextWindowId
  detaching : ∀ w, Task.detach w ∈ s.posted → Task.detach w ∈ s'.posted

theorem Quiet.refl (s : Server) : s.Quiet s := ⟨rfl, rfl, rfl, rfl, rfl, fun _ h => h⟩

theorem quiet_request (s : Server) (r : System.Request) : s.Quiet (System.request s r) := by
  cases r <;> exact ⟨rfl, rfl, rfl, rfl, rfl, fun _ h => h⟩

theorem quiet_windowTouch (s : Server) (window : Nat) (action id x y : Int) :
    s.Quiet (s.windowTouch window action id x y).1 := by
  unfold windowTouch
  split
  · exact .refl s
  · dsimp only
    split <;> exact ⟨rfl, rfl, rfl, rfl, rfl, fun _ h => h⟩

theorem quiet_windowKey (s : Server) (window : Nat) (code : Int) (down : Bool) :
    s.Quiet (s.windowKey window code down).1 := by
  unfold windowKey sendKeyboardFocus
  split
  · exact .refl s
  · split
    · exact .refl s
    · split
      · exact .refl s
      · dsimp only
        split <;> exact ⟨rfl, rfl, rfl, rfl, rfl, fun _ h => h⟩

end Server

def System.Action.isQuiet : System.Action → Bool
  | .runPosted | .drainTouchOps | .request _ | .injectTouchOps _ | .windowInput _ => true
  | .commit .. | .commitShm _ => true
  | _ => false

theorem Server.mem_outputFor {s : Server} {toplevelId w : Nat}
    (h : some w ∈ s.outputFor toplevelId) : w = 0 ∨ w ∈ s.windows.map Window.id := by
  have of : ∀ package, some w ∈ s.outputsOf package → w = 0 ∨ w ∈ s.windows.map Window.id := by
    intro package h
    simp only [Server.outputsOf] at h
    split_ifs at h
    · obtain ⟨x, hx, hw⟩ := List.mem_map.mp h
      exact .inr (List.mem_map.mpr ⟨x, mem_of_mem_filter hx, Option.some.inj hw⟩)
    · obtain ⟨x, hx, hw⟩ := List.mem_map.mp h
      exact .inr (List.mem_map.mpr ⟨x, mem_of_mem_filter hx, Option.some.inj hw⟩)
    · exact .inl (by simpa using h)
    · simp at h
  unfold Server.outputFor at h
  split at h
  · split at h
    · simp at h
    · exact of _ h
  · exact of _ h

theorem Server.quiet_noteFrame (s : Server) (x : Surface) (output : Option Nat) :
    s.Quiet (System.noteFrame s x output) := by
  refine ⟨rfl, rfl, rfl, ?_, rfl, fun _ h => h⟩
  simp only [System.noteFrame, Server.showOn, List.map_map]
  refine map_congr_left fun w _ => ?_
  simp only [Function.comp_apply]
  split <;> rfl

inductive Steps (s : System) : System.Action → System → Prop
  | wayland {i : Instr} {rest todo : List Instr} {s' : System} (o : Outcome)
      (hw : s.wayland = i :: rest) (h : Executes s rest i s' todo) :
      Steps s (.wayland o) { s' with wayland := todo }
  | ipc {k : Nat} {i : Instr} {rest todo : List Instr} {s' : System} (o : Outcome)
      (hk : s.ipc[k]? = some (i :: rest)) (h : Executes s rest i s' todo) :
      Steps s (.ipc k o) { s' with ipc := s'.ipc.set k todo }
  | commitShown {surface b w : Nat} {server : Server} (hw : s.wayland = []) (hb : s.mayCommit b)
      (hq : s.server.Quiet server) (ho : w = 0 ∨ w ∈ s.server.windows.map Window.id) :
      Steps s (.commit surface b (some w) true) { s with
        server := server
        commits := Function.update s.commits b (s.commits b + 1)
        wayland := commitFrame b w }
  | commitDropped {a : System.Action} {b : Nat} {server : Server} (ha : a.isQuiet) (hw : s.wayland =
      []) (hb : s.mayCommit b) (hq : s.server.Quiet server) : Steps s a { s with
        server := server
        commits := Function.update s.commits b (s.commits b + 1)
        releases := fun b' => s.releases b' + [b].count b' }
  | drainReleases (hw : s.wayland = []) : Steps s .drainReleases { s with
        server := s.server.drainReleases.2, wayland := [.sendReleases s.server.drainReleases.1] }
  | destroyBuffer {b : Nat} (hw : s.wayland = []) (hb : b ∉ s.destroyed) : Steps s
    (.destroyBuffer b) { s with
        destroyed := b :: s.destroyed
        wayland := if b ∈ s.server.watchedBuffers then Compositor.forget b else [] }
  | detachTask {w : Nat} {ts : List Task} (hw : s.wayland = [])
    (hp : s.server.posted = .detach w :: ts) : Steps
      s .runPosted { s with
        server := { s.server with posted := ts }, wayland := detachAndRelease w }
  | quiet {a : System.Action} {server : Server} {sent : List Server.InputEvent}
      (ha : a.isQuiet) (h : s.server.Quiet server) : Steps s a
      { s with server := server, sent := sent }
  | bufferReleased {b : Nat} (hb : 0 < s.callbacks b) : Steps s (.bufferReleased b) { s with
        server := s.server.onBufferReleased b
        callbacks := Function.update s.callbacks b (s.callbacks b - 1) }
  | attachWindow (package : Text) :
      Steps s (.attachWindow package) { s with server := s.server.attachWindow package }
  | detachWindow {id : Nat} {server : Server} (h : s.server.detachWindow id = some server) :
      Steps s (.detachWindow id) { s with server := server }
  | attachLegacy : Steps s .attachLegacy { s with server := s.server.attachOutput 0 }
  | clearOutputSurface : Steps s .clearOutputSurface { s with ipc := s.ipc ++ [detachAndRelease 0] }

namespace System

theorem steps_runPosted (h : s.step .runPosted = some s') : Steps s .runPosted s' := by
  simp only [step] at h
  split at h
  case h_2 => cases h
  case h_1 _ _ t ts hw hp =>
    cases h
    have lost : ∀ w, t ≠ .detach w → Task.detach w ∈ s.server.posted → Task.detach w ∈ ts := by
      intro w hne hm
      rw [hp] at hm
      exact (mem_cons.mp hm).resolve_left fun h => hne h.symm
    cases t with
    | detach w => exact .detachTask hw hp
    | touch window action id x y =>
      have q := { s.server with posted := ts }.quiet_windowTouch window action id x y
      exact .quiet rfl ⟨q.1, q.2, q.3, q.4, q.5, fun w hm => q.6 w (lost w (by simp) hm)⟩
    | key window code down =>
      have q := { s.server with posted := ts }.quiet_windowKey window code down
      exact .quiet rfl ⟨q.1, q.2, q.3, q.4, q.5, fun w hm => q.6 w (lost w (by simp) hm)⟩

theorem steps_commit {surface b : Nat} {output : Option Nat} {imported : Bool}
    {x : Surface} (hw : s.wayland = []) (hb : s.mayCommit b)
    (ho : output ∈ s.server.outputFor x.toplevelId) :
    Steps s (.commit surface b output imported) (s.commit x b output imported) := by
  have q := s.server.quiet_noteFrame x output
  cases output with
  | none => exact .commitDropped rfl hw hb q
  | some w =>
    cases imported with
    | true => exact .commitShown hw hb ⟨q.1, q.2, q.3, q.4, q.5, q.6⟩ (Server.mem_outputFor ho)
    | false => exact .commitDropped rfl hw hb ⟨q.1, q.2, q.3, q.4, q.5, q.6⟩

theorem step_steps {a : Action} (h : s.step a = some s') : Steps s a s' := by
  cases a with
  | wayland o =>
    simp only [step] at h
    split at h
    · cases h
    · obtain ⟨⟨s₁, todo⟩, hexec, rfl⟩ := map_eq_some_iff.mp h
      exact .wayland o ‹_› (exec_executes hexec)
  | ipc k o =>
    simp only [step] at h
    split at h
    · obtain ⟨⟨s₁, todo⟩, hexec, rfl⟩ := map_eq_some_iff.mp h
      exact .ipc o ‹_› (exec_executes hexec)
    · cases h
  | commit surface b output imported =>
    simp only [step] at h
    split at h
    · obtain ⟨⟨hb, ho⟩, ⟨⟩⟩ := ite_none_right_eq_some.mp h
      exact steps_commit ‹_› hb ho
    · cases h
  | commitShm b =>
    obtain ⟨⟨hw, hb⟩, ⟨⟩⟩ := ite_none_right_eq_some.mp h
    exact .commitDropped rfl (List.isEmpty_iff.mp hw) hb (.refl _)
  | drainReleases =>
    obtain ⟨hw, ⟨⟩⟩ := ite_none_right_eq_some.mp h
    exact .drainReleases (List.isEmpty_iff.mp hw)
  | destroyBuffer b =>
    obtain ⟨⟨hw, hb⟩, ⟨⟩⟩ := ite_none_right_eq_some.mp h
    exact .destroyBuffer (List.isEmpty_iff.mp hw) hb
  | runPosted => exact steps_runPosted h
  | drainTouchOps =>
    obtain ⟨-, ⟨⟩⟩ := ite_none_right_eq_some.mp h
    exact .quiet rfl ⟨rfl, rfl, rfl, rfl, rfl, fun _ h => h⟩
  | request r =>
    obtain ⟨-, ⟨⟩⟩ := ite_none_right_eq_some.mp h
    exact .quiet rfl (s.server.quiet_request r)
  | injectTouchOps ops =>
    cases h
    exact .quiet rfl ⟨rfl, rfl, rfl, rfl, rfl, fun _ h => h⟩
  | windowInput t =>
    obtain ⟨-, ⟨⟩⟩ := ite_none_right_eq_some.mp h
    exact .quiet rfl ⟨rfl, rfl, rfl, rfl, rfl, fun _ h => mem_append_left _ h⟩
  | bufferReleased b =>
    obtain ⟨hb, ⟨⟩⟩ := ite_none_right_eq_some.mp h
    exact .bufferReleased hb
  | attachWindow package => cases h; exact .attachWindow package
  | detachWindow id =>
    obtain ⟨server, hd, rfl⟩ := map_eq_some_iff.mp h
    exact .detachWindow hd
  | attachLegacy => cases h; exact .attachLegacy
  | clearOutputSurface => cases h; exact .clearOutputSurface

structure Threads (s : System) : Prop where
  wayland : Stage s.wayland
  ipc : ∀ todo ∈ s.ipc, Stage todo ∧ ∀ i ∈ todo, i.handsBack 0
  alive : ∀ i ∈ s.wayland, ∀ b, i.commits = some b → b ∉ s.destroyed
  forgotten : ∀ b, .forgetBuffer b ∈ s.wayland → b ∈ s.destroyed

theorem Threads.begin (h : s.Threads) (hi : s'.ipc = s.ipc) (hw : Stage s'.wayland)
    (ha : ∀ i ∈ s'.wayland, ∀ b, i.commits = some b → b ∉ s'.destroyed)
    (hf : ∀ b, .forgetBuffer b ∈ s'.wayland → b ∈ s'.destroyed) : s'.Threads :=
  ⟨hw, by rw [hi]; exact h.ipc, ha, hf⟩

end System

theorem Steps.threads {a : System.Action} (h : Steps s a s') (ht : s.Threads) : s'.Threads := by
  cases h with
  | @wayland i rest todo s₁ o hw h =>
    have hs : Stage (i :: rest) := hw ▸ ht.wayland
    obtain ⟨-, hi, -, hd⟩ := h.frame
    refine ht.begin hi (h.stage hs) (fun j hj b hb => ?_) fun b hj => ?_
    · rw [hd]
      obtain hj | ⟨-, hj, -⟩ | ⟨w, rfl⟩ | ⟨w, rfl⟩ | ⟨bs, rfl⟩ := h.mem_todo hs hj
      · exact ht.alive j (hw ▸ mem_cons_of_mem i hj) b hb
      · exact ht.alive i (hw ▸ mem_cons_self) b (hj ▸ hb)
      all_goals cases hb
    · rw [hd]
      obtain hj | ⟨hj, -⟩ | ⟨w, hj⟩ | ⟨w, hj⟩ | ⟨bs, hj⟩ := h.mem_todo hs hj
      · exact ht.forgotten b (hw ▸ mem_cons_of_mem i hj)
      all_goals cases hj
  | @ipc k i rest todo s₁ o hk h =>
    obtain ⟨hw, hi, -, hd⟩ := h.frame
    have hmem := ht.ipc _ (mem_of_getElem? hk)
    refine ⟨hw ▸ ht.wayland, fun t hm => ?_, fun j hj b hb => hd ▸ ht.alive j (hw ▸ hj) b hb,
      fun b hj => hd ▸ ht.forgotten b (hw ▸ hj)⟩
    rcases mem_or_eq_of_mem_set hm with hm | rfl
    · exact ht.ipc t (hi ▸ hm)
    · exact ⟨h.stage hmem.1, h.handsBack hmem.2⟩
  | @commitShown surface b w server hw hb hq ho =>
    refine ht.begin rfl (.track b w) (fun i hi b' hb' => ?_) (by simp [commitFrame])
    obtain rfl : b = b' := by
      simp only [commitFrame, mem_cons, not_mem_nil, or_false] at hi
      rcases hi with rfl | rfl <;> exact Option.some.inj hb'
    exact hb.1
  | drainReleases hw => exact ht.begin rfl (.send _) (by simp [Instr.commits]) (by simp)
  | @destroyBuffer b hw hb =>
    refine ht.begin rfl ?_ ?_ ?_ <;> dsimp only <;> split
    · exact .forget b
    · exact .idle
    all_goals simp [Compositor.forget, Instr.commits]
  | detachTask hw hp =>
    exact ht.begin rfl (.detach _) (by simp [detachAndRelease, Instr.commits])
      (by simp [detachAndRelease])
  | clearOutputSurface =>
    refine { ht with ipc := forall_mem_append.mpr ⟨ht.ipc, ?_⟩ }
    simp only [forall_mem_singleton]
    exact ⟨.detach 0, by simp [detachAndRelease, Instr.handsBack]⟩
  | _ => exact { ht with }

def System.Idle (s : System) : Prop := s.wayland = [] ∧ ∀ todo ∈ s.ipc, todo = []

structure System.Initial (s : System) : Prop where
  inFlight : s.server.inFlight.entries = []
  releasedPending : s.server.releasedPending = []
  windows : s.server.windows = []
  nextWindowId : 0 < s.server.nextWindowId
  wayland : s.wayland = []
  ipc : s.ipc = []
  commits : ∀ b, s.commits b = 0
  releases : ∀ b, s.releases b = 0

theorem System.Initial.threads (h : s.Initial) : s.Threads where
  wayland := h.wayland ▸ .idle
  ipc := by simp [h.ipc]
  alive := by simp [h.wayland]
  forgotten := by simp [h.wayland]

def System.started : System where
  server := {
    surfaces := [], toplevels := [], nextToplevelId := 1, windows := [], nextWindowId := 1
    outputs := fun _ => {}, inFlight := .empty, releasedPending := [], watchedBuffers := []
    inputSurface := none, keyboardFocus := none, touchPending := [], touchResources := []
    keyboardResources := [], posted := [] }
  wayland := []
  ipc := []
  commits := fun _ => 0
  releases := fun _ => 0
  callbacks := fun _ => 0
  destroyed := []
  sent := []

theorem System.started_initial : System.started.Initial :=
  ⟨rfl, rfl, rfl, Nat.one_pos, rfl, rfl, fun _ => rfl, fun _ => rfl⟩

end OniroSoc.Compositor

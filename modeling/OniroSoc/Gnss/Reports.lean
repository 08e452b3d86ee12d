import OniroSoc.Support.Runs

/-!
# The GNSS bridge: reports and AGNSS answers

Callbacks of the HAL post functions to a bounded queue, from any thread and one at a time under
`queueLock_`; the dispatcher takes the oldest, calls the framework and, for an AGNSS request or
release, answers the HAL.  The framework's callback may block for any time, so a report is taken
and finished in two steps.  `Bridge` also records the statuses that arrived, which is what the
answers are compared with: the queue drops its oldest entry when it is full, whatever that is.
-/

namespace OniroSoc.Gnss.Reports
open Support List

/-- The AGNSS statuses of the HAL's interface. -/
inductive AGnssStatusValue where
  | requestAgnssDataConn | releaseAgnssDataConn
  | agnssDataConnected | agnssDataConnDone | agnssDataConnFailed

/-- What the HAL has to be told after a status: `dataConnOpen`, or `dataConnClosed`. -/
def AGnssStatusValue.owed : AGnssStatusValue → Option Bool
  | .requestAgnssDataConn => some true
  | .releaseAgnssDataConn => some false
  | _ => none

/-- A posted function: that of an AGNSS request or release, or any other report. -/
inductive Report where
  | agnss (establish : Bool)
  | other (n : Nat)
deriving DecidableEq

/-- The answer that a posted function gives to the HAL: `dataConnOpen` or `dataConnClosed`. -/
def Report.answer : Report → Option Bool
  | .agnss establish => some establish
  | .other _ => none

/-- The function that `AGnssCallback::agnssStatusCb` posts. -/
def agnssStatusCb : AGnssStatusValue → Option Report
  | .requestAgnssDataConn => some (.agnss true)
  | .releaseAgnssDataConn => some (.agnss false)
  | _ => none

/-- The queue and the report that `DispatchLoop` is at; the statuses that arrived, what was posted,
what the framework received and what the HAL was answered so far. -/
structure Bridge where
  queue : List Report := []
  running : Option Report := none
  statuses : List AGnssStatusValue := []
  (posted delivered : List Report := [])
  answers : List Bool := []

/-- A callback of the HAL, or one of the two steps of the dispatcher. -/
inductive Action where
  | agnssStatus (status : AGnssStatusValue)
  | report (n : Nat)
  | take
  | finish

namespace Bridge

/-- `MAX_QUEUED`. -/
def maxQueued : Nat := 512

/-- `GnssBridge::Post`: a full queue loses its oldest entry. -/
def post (s : Bridge) (r : Report) : Bridge :=
  { s with
    queue := (if s.queue.length ≥ maxQueued then s.queue.tail else s.queue) ++ [r]
    posted := s.posted ++ [r] }

/-- What a callback posts. -/
def posts : Action → Option Report
  | .agnssStatus status => agnssStatusCb status
  | .report n => some (.other n)
  | _ => none

/-- The record of the statuses, with the one that arrives now. -/
def note (s : Bridge) : Action → Bridge
  | .agnssStatus status => { s with statuses := s.statuses ++ [status] }
  | _ => s

/-- One step; the HAL is connected and accepts the answers. -/
def step (s : Bridge) : Action → Option Bridge
  | .take =>
    match s.running, s.queue with
    | none, r :: queue => some { s with queue, running := some r }
    | _, _ => none
  | .finish => s.running.map fun r =>
    { s with
      running := none
      delivered := s.delivered ++ [r]
      answers := s.answers ++ r.answer.toList }
  | a => some ((posts a).elim (s.note a) (s.note a).post)

/-- The reports that are not done with. -/
def waiting (s : Bridge) : List Report := s.running.toList ++ s.queue

/-- The answers that the statuses ask for, in their order. -/
def owed (s : Bridge) : List Bool := s.statuses.filterMap AGnssStatusValue.owed

/-- At most 512 reports wait, and reports are delivered in the order of their posts. -/
def Ordered (s : Bridge) : Prop :=
  s.queue.length ≤ maxQueued ∧ s.delivered ++ s.waiting <+ s.posted

/-- Each request was answered by one `dataConnOpen` and each release by one `dataConnClosed`, in the
order of the statuses, but for those whose function waits. -/
def Answered (s : Bridge) : Prop :=
  s.owed = s.answers ++ s.waiting.filterMap Report.answer

/-- What a full queue drops is no AGNSS request or release. -/
def Fits (s : Bridge) (a : Action) : Prop :=
  (posts a).isSome → maxQueued ≤ s.queue.length → (s.queue.head?.bind Report.answer) = none

variable {s s' : Bridge} {a : Action}

/-- The function that is posted gives the answer that the status asks for. -/
theorem owed_note (s : Bridge) (a : Action) :
    (s.note a).owed = s.owed ++ ((posts a).bind Report.answer).toList := by
  cases a with
  | agnssStatus status => cases status <;> simp [owed, note, posts, agnssStatusCb,
      AGnssStatusValue.owed, Report.answer]
  | report n | take | finish => simp [note, posts, Report.answer]

/-- What a step does: it posts, or it moves the oldest report on. -/
theorem step_cases (h : s.step a = some s') :
    (∃ r, posts a = some r ∧ s' = (s.note a).post r) ∨
    (posts a = none ∧ s'.posted = s.posted ∧ s'.delivered ++ s'.waiting = s.delivered ++ s.waiting ∧
      s'.queue.length ≤ s.queue.length ∧ s'.owed = s.owed ∧
      s'.answers ++ s'.waiting.filterMap Report.answer =
        s.answers ++ s.waiting.filterMap Report.answer) := by
  cases a with
  | agnssStatus status =>
    cases hp : agnssStatusCb status with
    | none =>
      obtain rfl : s' = s.note (.agnssStatus status) := by simpa [step, posts, hp] using h.symm
      exact .inr ⟨hp, rfl, rfl, le_rfl, by simp [owed_note, posts, hp], rfl⟩
    | some r => exact .inl ⟨r, hp, by simpa [step, posts, hp] using h.symm⟩
  | report n => exact .inl ⟨_, rfl, (Option.some.inj h).symm⟩
  | take =>
    rw [step] at h
    split at h
    · cases h
      simp_all [waiting, posts, owed]
    · cases h
  | finish =>
    obtain ⟨r, hr, rfl⟩ := Option.map_eq_some_iff.mp h
    refine .inr ⟨rfl, rfl, ?_⟩
    cases r <;> simp [waiting, hr, owed, Report.answer, filterMap_cons]

theorem Ordered.step (h : s.Ordered) (hs : s.step a = some s') : s'.Ordered := by
  obtain ⟨hlen, horder⟩ := h
  obtain ⟨r, -, rfl⟩ | ⟨-, hposted, hsame, hle, -⟩ := step_cases hs
  · obtain ⟨hqueue, hrunning, hposted, hdelivered⟩ : (s.note a).queue = s.queue ∧
        (s.note a).running = s.running ∧ (s.note a).posted = s.posted ∧
        (s.note a).delivered = s.delivered := by cases a <;> exact ⟨rfl, rfl, rfl, rfl⟩
    simp only [Ordered, post, waiting, hqueue, hrunning, hposted, hdelivered]
    split_ifs with hfull
    · refine ⟨by simp [maxQueued] at hlen hfull ⊢; omega, ?_⟩
      have hdropped := ((tail_sublist s.queue).append_left s.running.toList).append_left s.delivered
      simpa using (hdropped.trans horder).append_right [r]
    · refine ⟨by simp at hfull ⊢; omega, ?_⟩
      simpa [waiting] using horder.append_right [r]
  · exact ⟨hle.trans hlen, hsame ▸ hposted ▸ horder⟩

/-- A post keeps the answers complete exactly if a full queue does not lose one. -/
theorem answered_post {r : Report} (h : s.Answered) (hr : posts a = some r) :
    ((s.note a).post r).Answered ↔
      (maxQueued ≤ s.queue.length → s.queue.head?.bind Report.answer = none) := by
  have howed : ((s.note a).post r).owed = s.owed ++ r.answer.toList := by
    rw [show ((s.note a).post r).owed = (s.note a).owed from rfl, owed_note, hr, Option.bind_some]
  obtain ⟨hqueue, hrunning, hanswers⟩ : (s.note a).queue = s.queue ∧
      (s.note a).running = s.running ∧ (s.note a).answers = s.answers := by
    cases a <;> exact ⟨rfl, rfl, rfl⟩
  have hnew : [r].filterMap Report.answer = r.answer.toList := by cases r <;> rfl
  rw [Answered, waiting, filterMap_append] at h
  rw [Answered, howed, h]
  by_cases hfull : maxQueued ≤ s.queue.length
  · obtain ⟨front, queue, hs⟩ :=
      exists_cons_of_length_pos (Nat.lt_of_lt_of_le (by decide) hfull)
    have hfront : s.queue.filterMap Report.answer =
        front.answer.toList ++ queue.filterMap Report.answer := by
      rw [hs]
      cases front <;> rfl
    have hhead : s.queue.head?.bind Report.answer = front.answer := by rw [hs]; rfl
    have hpost : ((s.note a).post r).queue = queue ++ [r] := by
      rw [post, hqueue, if_pos hfull, hs, tail_cons]
    rw [hfront, hhead, waiting, hpost]
    simp [post, hrunning, hanswers, hnew, hfull]
  · simp [post, waiting, hqueue, hrunning, hanswers, hnew, hfull]

theorem Answered.step (h : s.Answered) (hfits : s.Fits a) (hs : s.step a = some s') :
    s'.Answered := by
  obtain ⟨r, hr, rfl⟩ | ⟨-, -, -, -, howed, hsame⟩ := step_cases hs
  · exact (answered_post h hr).mpr (hfits (by rw [hr]; rfl))
  · rw [Answered, howed, hsame]
    exact h

theorem not_answered (h : s.Answered) (hfits : ¬ s.Fits a) (hs : s.step a = some s') :
    ¬ s'.Answered := by
  obtain ⟨hposts, hdrop⟩ := Classical.not_imp.mp hfits
  obtain ⟨r, hr, rfl⟩ | ⟨hnone, -⟩ := step_cases hs
  · exact fun hpost => hdrop ((answered_post h hr).mp hpost)
  · simp [hnone] at hposts

/-- **Reports stay in order, and AGNSS requests and releases are answered** once each and in their
order, exactly if a full queue never drops one. -/
theorem answered_iff {as : List Action} (hrun : run step {} as = some s) :
    s.Ordered ∧ (Always step Answered {} as ↔ Along step Fits {} as) :=
  ⟨run_invariant (fun _ _ _ => Ordered.step) hrun ⟨Nat.zero_le _, .refl _⟩,
    always_iff_along (fun _ h => h) (fun _ _ _ => Answered.step)
    (fun _ _ _ => not_answered) hrun rfl⟩

/-- A request, another report and a release, all handled. -/
def handled : List Action :=
  [.agnssStatus .requestAgnssDataConn, .report 0, .agnssStatus .releaseAgnssDataConn,
    .take, .finish, .take, .finish, .take, .finish]

theorem answered_handled : ∃ s, run step {} handled = some s ∧ s.Ordered ∧
    Always step Answered {} handled ∧ s.waiting = [] ∧ s.answers = [true, false] := by
  have hfits : Along step Fits {} handled :=
    along_cons (fun _ h => absurd h (by decide)) rfl <|
      along_cons (fun _ h => absurd h (by decide)) rfl <|
      along_cons (fun _ h => absurd h (by decide)) rfl <| along_cons nofun rfl <|
      along_cons nofun rfl <| along_cons nofun rfl <| along_cons nofun rfl <|
      along_cons nofun rfl <| along_cons nofun rfl trivial
  obtain ⟨s, hrun, hans⟩ :
      ∃ s, run step {} handled = some s ∧ s.waiting = [] ∧ s.answers = [true, false] :=
    ⟨_, rfl, rfl, rfl⟩
  have h := answered_iff hrun
  exact ⟨s, hrun, h.1, h.2.mpr hfits, hans⟩

/-- A request that waits while 512 further reports are posted. -/
def burst : List Action :=
  [.report 0, .take, .agnssStatus .requestAgnssDataConn] ++ replicate 512 (.report 0)

theorem request_dropped : ∃ s, run step {} burst = some s ∧ s.owed = [true] ∧ s.answers = [] ∧
    s.waiting.filterMap Report.answer = [] :=
  exists_of_any (by decide +kernel)

end Bridge

end OniroSoc.Gnss.Reports

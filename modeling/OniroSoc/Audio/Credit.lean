import OniroSoc.Audio.StreamRuns

/-!
# Audio — flow control

A client may write what the server has asked for.  `Stream.outstanding` is the server's side of that
account, and `Ledger` is what holds of it in every state of every run.
-/

namespace OniroSoc.Audio
open Support

namespace Stream

theorem receive_ring {s : Stream} (hq : s.sink.quit = false) (data : List UInt8) :
    (s.receive data).1.sink.ring = (s.sink.ring.push data).2 := by
  simp [receive, OhosSink.push, hq]

theorem receive_quit (s : Stream) (data : List UInt8) :
    (s.receive data).1.sink.quit = s.sink.quit := by
  simp only [receive, OhosSink.push]
  split <;> rfl

theorem receive_requested (s : Stream) (data : List UInt8) : requested (s.receive data).2 = 0 := by
  simp only [receive]
  split <;> rfl

/-- No segment changes the channel, the attributes or the sample formats. -/
theorem exec_frame (s : Stream) (seg : Segment) :
    (s.exec seg).1.channel = s.channel ∧ (s.exec seg).1.attr = s.attr ∧ (s.exec seg).1.ss = s.ss ∧
      (s.exec seg).1.sink.spec = s.sink.spec := by
  cases seg with
  | maybeRequest =>
    simp only [exec, maybeRequest]
    split <;> exact ⟨rfl, rfl, rfl, rfl⟩
  | receive data =>
    refine ⟨rfl, rfl, rfl, ?_⟩
    simp only [exec, receive, OhosSink.push]
    split <;> rfl
  | _ => exact ⟨rfl, rfl, rfl, rfl⟩

theorem ofInt_toNat {n : Int} (h₀ : 0 ≤ n) (h : n < 2 ^ 32) :
    ((UInt32.ofInt n).toNat : Int) = n := by
  rw [UInt32.ofInt, UInt32.toNat_ofNat']
  omega

theorem maybeRequest_target (s : Stream) : (s.attr.tlength.toNat : Int) - s.attr.minreq.toNat <
      s.sink.buffered + (s.maybeRequest).1.outstanding := by
  have := s.sane.minreq_pos
  simp only [maybeRequest]
  split
  · next h =>
      simp only [owed] at h
      show _ < (s.sink.buffered : Int) + s.outstanding
      omega
  · simp only [owed]
    omega

end Stream

namespace Live

structure Ledger (s : Live) : Prop where
  pending : Pending s.todo
  quit : s.stream.sink.quit = false
  size : s.stream.sink.ring.size = s.stream.attr.maxlength.toNat
  balance : s.stream.outstanding = s.stream.attr.tlength.toNat + requested s.sent - s.received
  within : (s.stream.sink.ring.fill : Int) + s.stream.outstanding ≤ s.stream.attr.tlength.toNat
  -- an overdraft lasts no longer than to the request that follows it
  settled : s.todo = [.maybeRequest] ∨ -(s.stream.attr.maxlength.toNat : Int) ≤ s.stream.outstanding
  floor : -(s.stream.attr.maxlength.toNat : Int) - absoluteMaxBuffer ≤ s.stream.outstanding

variable {s : Live} {segs : List Segment}

theorem Ledger.owed_lt (h : s.Ledger) : s.stream.owed < 2 ^ 32 := by
  have h₁ := h.floor
  have h₂ := s.stream.sane.tlength_le
  have h₃ := s.stream.sane.maxlength_le
  have h₄ : absoluteMaxBuffer = 16777216 := by decide
  simp only [Stream.owed]
  omega

theorem received_proceed (s : Live) (seg : Segment) (segs : List Segment) :
    (s.proceed seg segs).received =
      s.received + (match seg with | .receive data => data.length | _ => 0) := by
  unfold received proceed
  rw [List.map_append, List.sum_append]
  cases seg <;> rfl

theorem ledger_created (h : s.Created) : s.Ledger := by
  have hf := h.fresh
  refine ⟨hf.todo ▸ .nil, hf.quit, hf.size, ?_, ?_, .inr ?_, ?_⟩
  · simp [hf.outstanding, hf.sent, received, hf.done]
  · simp [hf.outstanding, hf.fill]
  · rw [hf.outstanding]
    omega
  · rw [hf.outstanding]
    omega

theorem Ledger.frame (h : s.Ledger) {seg : Segment} (ht : s.todo = seg :: segs)
    (hne : seg ≠ .maybeRequest) (hq : (s.stream.exec seg).1.sink.quit = s.stream.sink.quit)
    (hsize : (s.stream.exec seg).1.sink.ring.size = s.stream.sink.ring.size)
    (hfill : (s.stream.exec seg).1.sink.ring.fill ≤ s.stream.sink.ring.fill)
    (hout : (s.stream.exec seg).1.outstanding = s.stream.outstanding)
    (hreq : requested (s.stream.exec seg).2 = 0)
    (hrec : (s.proceed seg segs).received = s.received) : (s.proceed seg segs).Ledger := by
  have hset := h.settled.resolve_left fun h' => hne (List.cons.inj (ht.symm.trans h')).1
  have hattr := (s.stream.exec_frame seg).2.1
  refine ⟨(ht ▸ h.pending : Pending (seg :: segs)).tail, hq.trans h.quit, ?_, ?_, ?_, .inr ?_, ?_⟩
  · simpa only [proceed, hattr, hsize] using h.size
  · rw [hrec]
    simpa [proceed, hattr, hout, hreq] using h.balance
  · have := h.within
    simp only [proceed, hattr, hout]
    omega
  · simpa only [proceed, hattr, hout] using hset
  · simpa only [proceed, hattr, hout] using h.floor

theorem Ledger.receive (h : s.Ledger) {data : List UInt8} (hlen : data.length ≤ absoluteMaxBuffer)
    (ht : s.todo = onData data) : (s.proceed (.receive data) [.maybeRequest]).Ledger := by
  have hset := h.settled.resolve_left fun h' => by cases ht.symm.trans h'
  have hring := s.stream.receive_ring h.quit data
  have hout : (s.stream.receive data).1.outstanding = s.stream.outstanding - data.length := rfl
  have hattr : (s.stream.receive data).1.attr = s.stream.attr := rfl
  refine ⟨.request, (s.stream.receive_quit data).trans h.quit, ?_, ?_, ?_, .inl rfl, ?_⟩
  · simp only [proceed, Stream.exec, hring, Ring.push_size, hattr]
    exact h.size
  · have := h.balance
    rw [received_proceed]
    simp only [proceed, Stream.exec, hout, hattr, requested_append, Stream.receive_requested]
    push_cast
    omega
  · have := h.within
    have hacc : s.stream.sink.ring.accepts data.length ≤ data.length := min_le_left _ _
    simp only [proceed, Stream.exec, hring, Ring.push_fill, hout, hattr]
    push_cast
    omega
  · simp only [proceed, Stream.exec, hout, hattr]
    omega

theorem Ledger.request (h : s.Ledger) : (s.proceed .maybeRequest []).Ledger := by
  have htarget := s.stream.maybeRequest_target
  have hfill : s.stream.sink.ring.fill ≤ s.stream.attr.maxlength.toNat :=
    h.size ▸ s.stream.sink.ring.fill_le_size
  have hmin := s.stream.sane.minreq_le
  have hpos := s.stream.sane.minreq_pos
  have hlt := h.owed_lt
  have hbal := h.balance
  have hwithin := h.within
  have hrec : (s.proceed .maybeRequest []).received = s.received := received_proceed _ _ _
  simp only [OhosSink.buffered] at htarget
  by_cases hc : s.stream.owed < s.stream.attr.minreq.toNat
  · have he : s.stream.maybeRequest = (s.stream, []) := if_pos hc
    have hp : s.proceed .maybeRequest [] =
        { s with todo := [], done := s.done ++ [.maybeRequest] } := by
      simp only [proceed, Stream.exec, he, List.append_nil]
    rw [he] at htarget
    rw [hp] at hrec ⊢
    refine ⟨.nil, h.quit, h.size, hrec ▸ hbal, hwithin, .inr ?_, h.floor⟩
    dsimp only at htarget ⊢
    omega
  · have he : s.stream.maybeRequest = ({ s.stream with
        outstanding := s.stream.outstanding + s.stream.owed },
        [.request s.stream.channel (UInt32.ofInt s.stream.owed)]) := if_neg hc
    have hamount := Stream.ofInt_toNat (n := s.stream.owed) (by omega) hlt
    have howed : s.stream.owed =
        s.stream.attr.tlength.toNat - s.stream.sink.ring.fill - s.stream.outstanding := rfl
    have hsum : requested (s.sent ++ s.stream.maybeRequest.2) =
        requested s.sent + (UInt32.ofInt s.stream.owed).toNat := by
      rw [requested_append, he]
      rfl
    refine ⟨.nil, ?_, ?_, ?_, ?_, .inr ?_, ?_⟩
    · simp only [proceed, Stream.exec, he]
      exact h.quit
    · simp only [proceed, Stream.exec, he]
      exact h.size
    · rw [hrec]
      simp only [proceed, Stream.exec, hsum]
      simp only [he]
      push_cast
      omega
    all_goals
      simp only [proceed, Stream.exec, he]
      omega

variable {s s' : Live}

theorem step_ledger (h : s.Ledger) (hs : s.Step s') : s'.Ledger := by
  cases hs with
  | begin hd ht ha =>
    have hset := h.settled.resolve_left fun h' => by cases ht.symm.trans h'
    exact { h with pending := .program ha, settled := .inr hset }
  | render sink hr =>
    obtain ⟨hq, hsize, hfill⟩ := hr.frame
    have hwithin := h.within
    refine { h with quit := hq.trans h.quit, size := hsize.trans h.size, within := ?_ }
    simp only [withSink]
    omega
  | proceed seg segs ht =>
    have hp : Pending (seg :: segs) := ht ▸ h.pending
    cases hp with
    | receive data hlen => exact h.receive hlen ht
    | request => exact h.request
    | cork | drain | latency =>
      exact h.frame ht (by simp) rfl rfl (le_refl _) rfl rfl (received_proceed _ _ _)
    | flush tag =>
      exact h.frame ht (by simp) rfl rfl (Nat.zero_le _) rfl rfl (received_proceed _ _ _)
    | pump version =>
      exact h.frame ht (by simp) rfl rfl (le_refl _) rfl (Stream.takeEvents_requested _ _)
        (received_proceed _ _ _)

theorem run_ledger {s₀ : Live} {as : List Action} (h₀ : s₀.Created) (h : run step s₀ as = some s) :
    s.Ledger :=
  run_invariant (fun _ _ _ hi hs => step_ledger hi (step_inv hs)) h (ledger_created h₀)

theorem step_attr (h : s.Step s') : s'.stream.attr = s.stream.attr := by
  cases h with
  | begin => rfl
  | proceed seg segs => exact (s.stream.exec_frame seg).2.1
  | render => rfl

def credit (s : Live) : Int := s.stream.attr.tlength.toNat + requested s.sent - s.received

def InCredit (s : Live) : Action → Prop
  | .begin (.data bs) => (bs.length : Int) ≤ s.credit
  | _ => True

structure Honest (s : Live) : Prop where
  ledger : s.Ledger
  fits : ∀ data segs, s.todo = .receive data :: segs → (data.length : Int) ≤ s.stream.outstanding
  quiet : ∀ ch, Message.overflow ch ∉ s.sent

theorem Ledger.accepts (h : s.Ledger) {n : Nat} (hn : (n : Int) ≤ s.stream.outstanding) :
    s.stream.sink.ring.accepts n = n := by
  have h₁ := h.within
  have h₂ := s.stream.sane.tlength_le
  have h₃ := h.size
  exact min_eq_left (by omega)

theorem Honest.push (h : s.Honest) {data : List UInt8}
    (ht : s.todo = .receive data :: segs) : (s.stream.sink.push data).1 = data.length := by
  simp only [OhosSink.push, h.ledger.quit]
  exact h.ledger.accepts (h.fits data segs ht)

theorem Honest.exec_quiet (h : s.Honest) {seg : Segment}
    (ht : s.todo = seg :: segs) (ch : UInt32) : Message.overflow ch ∉ (s.stream.exec seg).2 := by
  intro hm
  cases seg with
  | receive data =>
    have hfull := h.push ht
    simp [Stream.exec, Stream.receive, hfull] at hm
  | maybeRequest =>
    simp only [Stream.exec, Stream.maybeRequest] at hm
    split at hm <;> simp at hm
  | takeEvents version =>
    rcases Stream.takeEvents_mem hm with h | ⟨_, h⟩ | ⟨h, -⟩ <;> cases h
  | _ => simp [Stream.exec, Stream.cork, Stream.flush, Stream.drain, Stream.latencyReply] at hm

theorem step_honest {a : Action} (h : s.Honest) (ha : s.InCredit a) (hs : s.step a = some s') :
    s'.Honest := by
  have hl := step_ledger h.ledger (step_inv hs)
  cases a with
  | begin hd =>
    simp only [step] at hs
    split at hs
    · cases hs
      refine ⟨hl, fun data segs ht => ?_, h.quiet⟩
      cases hd with
      | data bs =>
        obtain ⟨rfl, -⟩ : bs = data ∧ _ := by simpa [Handler.program, onData] using ht
        exact h.ledger.balance ▸ ha
      | _ => simp [Handler.program, onCork, onFlush, onDrain, onLatency, onPump] at ht
    · cases hs
  | render r =>
    obtain ⟨sink, -, rfl⟩ := Option.map_eq_some_iff.mp hs
    exact ⟨hl, h.fits, h.quiet⟩
  | proceed =>
    simp only [step] at hs
    split at hs
    · cases hs
    · next seg segs ht =>
        cases hs
        have hp : Pending (seg :: segs) := ht ▸ h.ledger.pending
        refine ⟨hl, fun data rest hr => ?_, fun ch hm => ?_⟩
        · cases hp <;> cases hr
        · rcases List.mem_append.mp hm with hm | hn
          · exact h.quiet ch hm
          · exact h.exec_quiet ht ch hn

theorem run_honest {s₀ : Live} {as : List Action} (h₀ : s₀.Created)
    (hc : Along step InCredit s₀ as) (h : run step s₀ as = some s) : s.Honest := by
  have hf := h₀.fresh
  refine run_invariant_along (fun _ _ _ hi ha hs => step_honest hi ha hs) hc h
    ⟨ledger_created h₀, fun data segs ht => ?_, fun ch hm => ?_⟩
  · rw [hf.todo] at ht
    cases ht
  · rw [hf.sent] at hm
    cases hm

structure FlowControl (s₀ : Live) (as : List Action) (s : Live) : Prop where
  /-- The account: the initial target and all REQUESTs, less all bytes received. -/
  balance : s.stream.outstanding = s₀.stream.attr.tlength.toNat + requested s.sent - s.received
  /-- Buffered and outstanding bytes fit the target, and the target fits the ring. -/
  within : (s.stream.sink.buffered : Int) + s.stream.outstanding ≤ s₀.stream.attr.tlength.toNat ∧
    s₀.stream.attr.tlength ≤ s₀.stream.attr.maxlength ∧ s.stream.sink.ring.size =
    s₀.stream.attr.maxlength.toNat
  /-- A client that keeps to its credit has every byte accepted and is never sent OVERFLOW. -/
  accepted : Along step InCredit s₀ as → (∀ ch, Message.overflow ch ∉ s.sent) ∧
    ∀ data segs, s.todo = .receive data :: segs → (s.stream.sink.push data).1 = data.length
  /-- After a `MaybeRequest`, what it found buffered and what is outstanding are less than `minreq`
  short of the target; with an empty ring, the client holds credit. -/
  target : ∀ segs s', s.todo = .maybeRequest :: segs → s.step .proceed = some s' →
    (s₀.stream.attr.tlength.toNat
    : Int) - s₀.stream.attr.minreq.toNat < s.stream.sink.buffered + s'.stream.outstanding ∧
    (s.stream.sink.buffered = 0 → 0 < s'.stream.outstanding)
  amount : ∀ ch amount, Message.request ch amount ∈ s.stream.maybeRequest.2 →
    (amount.toNat : Int) = s.stream.owed
  /-- The signed sums of the code are those of the integers. -/
  exact : -2 ^ 63 ≤ s.stream.outstanding ∧ s.stream.outstanding < 2 ^ 63 ∧
    -2 ^ 63 ≤ s.stream.owed ∧ s.stream.owed < 2 ^ 63

theorem Ledger.amount (h : s.Ledger) {ch amount : UInt32}
    (hm : Message.request ch amount ∈ s.stream.maybeRequest.2) :
    (amount.toNat : Int) = s.stream.owed := by
  simp only [Stream.maybeRequest] at hm
  split at hm
  · cases hm
  · next hc =>
      obtain ⟨-, rfl⟩ : ch = s.stream.channel ∧ amount = UInt32.ofInt s.stream.owed := by
        simpa using hm
      exact Stream.ofInt_toNat (by omega) h.owed_lt

/-- **Flow control**, in every interleaving of the client's packets and commands with the passes
over the sinks and the render thread. -/
theorem flow_control {s₀ s : Live} {as : List Action} (h₀ : s₀.Created)
    (h : run step s₀ as = some s) : FlowControl s₀ as s := by
  have hl := run_ledger h₀ h
  have hattr : s.stream.attr = s₀.stream.attr :=
    run_invariant (I := fun s => s.stream.attr = s₀.stream.attr)
      (fun _ _ _ hi hs => (step_attr (step_inv hs)).trans hi) h rfl
  have hwithin := hl.within
  have htl := s.stream.sane.tlength_le
  have hmax := s.stream.sane.maxlength_le
  have hfloor := hl.floor
  have hlt := hl.owed_lt
  have habs : absoluteMaxBuffer = 16777216 := by decide
  refine ⟨hattr ▸ hl.balance, ⟨hattr ▸ hl.within, hattr ▸ htl, hattr ▸ hl.size⟩, ?_, ?_,
    fun ch amount hm => hl.amount hm, ?_⟩
  · intro hc
    have hh := run_honest h₀ hc h
    exact ⟨hh.quiet, fun data segs ht => hh.push ht⟩
  · intro segs s' ht hs
    have htarget := s.stream.maybeRequest_target
    have hle := s.stream.sane.minreq_le
    obtain rfl : s.proceed .maybeRequest segs = s' := by simpa [step, ht] using hs
    rw [← hattr]
    refine ⟨htarget, fun h0 => ?_⟩
    have hout : (s.proceed .maybeRequest segs).stream.outstanding =
        s.stream.maybeRequest.1.outstanding := rfl
    omega
  · have howed : s.stream.owed =
        s.stream.attr.tlength.toNat - s.stream.sink.ring.fill - s.stream.outstanding := rfl
    omega

def overdraft : List Action :=
  [.begin (.data [0, 1, 2, 3, 4, 5, 6, 7, 8, 9, 10, 11]), .proceed, .render .wake, .proceed]

theorem flow_control_overdraft : twoFrames.Created ∧ (run step twoFrames overdraft).isSome ∧
      ∀ s, run step twoFrames overdraft = some s → FlowControl twoFrames overdraft s :=
  ⟨twoFrames_created, by decide, fun _ h => flow_control twoFrames_created h⟩

end Live

end OniroSoc.Audio

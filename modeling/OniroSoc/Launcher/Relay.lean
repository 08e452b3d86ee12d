import OniroSoc.Support.Runs

/-!
# The TCP relay

`forward` of `tcprelay.c` passes what it reads from either of two sockets on to the other.  Both
directions work on one array of descriptors; at the end of a socket its entry is negated so that
`poll` ignores it.
-/

namespace OniroSoc.Launcher.Relay
open Support List Function

inductive Side where
  | a
  | b
deriving DecidableEq, Repr

def Side.other : Side → Side
  | .a => .b
  | .b => .a

@[simp] theorem Side.other_other (i : Side) : i.other.other = i := by cases i <;> rfl

theorem Side.other_ne (i : Side) : i.other ≠ i := by cases i <;> nofun

theorem Side.eq_or (i j : Side) : j = i ∨ j = i.other := by cases i <;> cases j <;> simp [Side.other]

structure Ends where
  fd : Side → Int
  nonneg : ∀ i, 0 ≤ fd i
  distinct : fd .a ≠ fd .b

def Ends.socketAt (ends : Ends) (fd : Int) : Option Side :=
  if fd = ends.fd .a then some .a else if fd = ends.fd .b then some .b else none

structure Pollfd where
  fd : Int
  revents : Bool := false

structure Socket where
  read : List UInt8 := []
  ended : Bool := false
  written : List UInt8 := []
  shut : Bool := false
deriving DecidableEq, Repr

inductive Point where
  | poll
  | serve (i : Side)
  | copy (i : Side) (rest : List UInt8)
  | returned
deriving DecidableEq, Repr

structure State where
  pfd : Side → Pollfd
  openDirs : Nat := 2
  point : Point := .poll
  socket : Side → Socket := fun _ => {}
  failed : Bool := false

def start (ends : Ends) : State where
  pfd i := { fd := ends.fd i }

inductive Action where
  | poll (ready : Side → Bool)
  | interrupted
  | failed
  | pass
  | read (chunk : List UInt8)
  | write (n : Nat)
  | refused

def bufSize : Nat := 65536

namespace State

def setSocket (s : State) (i : Side) (sock : Socket) : State :=
  { s with socket := Function.update s.socket i sock }

def next (s : State) : Side → State
  | .a => { s with point := .serve .b }
  | .b => { s with point := if 0 < s.openDirs then .poll else .returned }

def shutdown (ends : Ends) (s : State) (fd : Int) : State :=
  match ends.socketAt fd with
  | some k => s.setSocket k { s.socket k with shut := true }
  | none => s

def ignore (s : State) (i : Side) : State :=
  { s with
    pfd := Function.update s.pfd i { s.pfd i with fd := -(s.pfd i).fd - 1 }
    openDirs := s.openDirs - 1 }

def afterRead (ends : Ends) (s : State) (i j : Side) (chunk : List UInt8) : State :=
  if chunk = [] then
    (((s.setSocket j { s.socket j with ended := true }).shutdown ends (s.pfd i.other).fd).ignore
      i).next i
  else { s.setSocket j { s.socket j with read := (s.socket j).read ++ chunk } with point := .copy i chunk }

def afterWrite (s : State) (i k : Side) (rest : List UInt8) (n : Nat) : State :=
  let s' := s.setSocket k { s.socket k with written := (s.socket k).written ++ rest.take n }
  if rest.drop n = [] then s'.next i else { s' with point := .copy i (rest.drop n) }

def step (ends : Ends) (s : State) (act : Action) : Option State :=
  match s.point, act with
  | .poll, .poll ready =>
    -- a negative descriptor is ignored
    if (∀ i ∈ [Side.a, .b], ready i → 0 ≤ (s.pfd i).fd) ∧ (ready .a || ready .b) then
      some { s with pfd := fun i => { s.pfd i with revents := ready i }, point := .serve .a }
    else none
  | .poll, .interrupted => some s
  | .poll, .failed => some { s with point := .returned, failed := true }
  | .serve i, .pass => if (s.pfd i).revents then none else some (s.next i)
  | .serve i, .read chunk =>
    if (s.pfd i).revents ∧ chunk.length ≤ bufSize then
      (ends.socketAt (s.pfd i).fd).map fun j => s.afterRead ends i j chunk
    else none
  | .copy i rest, .write n =>
    match ends.socketAt (s.pfd i.other).fd with
    | some k => if 0 < n ∧ n ≤ rest.length then some (s.afterWrite i k rest n) else none
    | none => some { s with point := .returned }
  | .copy i _, .refused =>
    (ends.socketAt (s.pfd i.other).fd).map fun _ => { s with point := .returned, failed := true }
  | _, _ => none

def pending (s : State) (i : Side) : List UInt8 :=
  match s.point with
  | .copy j rest => if j = i then rest else []
  | _ => []

/-- What the relay is for. -/
structure Delivers (ends : Ends) (s : State) : Prop where
  /-- Each socket has been written what was read from the other, but for what is under way. -/
  bytes : s.failed = false → ∀ i, (s.socket i.other).written ++ s.pending i = (s.socket i).read
  /-- A socket is half-closed when the other has ended, and not before. -/
  halfClosed : ∀ i, (s.socket i.other).shut = (s.socket i).ended
  /-- `forward` goes on until both have ended. -/
  goesOn : s.failed = false → s.point = .returned → ∀ i, (s.socket i).ended = true
  /-- A socket that has not ended is still polled. -/
  polled : s.failed = false → ∀ i, (s.socket i).ended = false → (s.pfd i).fd = ends.fd i

def passesTo (s : State) (act : Action) : Option Side :=
  match s.point, act with
  | .serve i, .read [] => some i.other
  | .copy i _, .write _ => some i.other
  | _, _ => none

def Unused (s : State) (act : Action) : Prop := ∀ k ∈ s.passesTo act, (s.socket k).ended = false

instance : DecidableRel Unused := fun _ _ => inferInstanceAs (Decidable (∀ _ ∈ _, _))

end State

theorem Ends.socketAt_fd (ends : Ends) (i : Side) : ends.socketAt (ends.fd i) = some i := by
  cases i with
  | a => exact if_pos rfl
  | b => rw [socketAt, if_neg ends.distinct.symm, if_pos rfl]

theorem Ends.socketAt_negated (ends : Ends) (i : Side) : ends.socketAt (-ends.fd i - 1) = none := by
  have hi := ends.nonneg i
  have ha := ends.nonneg .a
  have hb := ends.nonneg .b
  rw [socketAt, if_neg (by omega), if_neg (by omega)]

def Point.ahead : Point → Side → Bool
  | .serve .a, _ => true
  | .serve .b, .b => true
  | .copy .a _, .b => true
  | _, _ => false

namespace State

structure Wired (ends : Ends) (s : State) : Prop where
  fds : ∀ i, (s.pfd i).fd = if (s.socket i).ended then -ends.fd i - 1 else ends.fd i
  shut : ∀ i, (s.socket i.other).shut = (s.socket i).ended
  one : ∀ i, (s.socket i).ended = true → (s.socket i.other).ended = false
  dirs : 0 < s.openDirs
  both : (∀ i, (s.socket i).ended = false) → s.openDirs = 2

structure Inv (ends : Ends) (s : State) : Prop extends Wired ends s where
  sound : s.failed = false
  bytes : ∀ i, (s.socket i.other).written ++ s.pending i = (s.socket i).read
  running : s.point ≠ .returned
  ahead : ∀ j, s.point.ahead j = true → (s.pfd j).revents = true → (s.socket j).ended = false
  copying : ∀ i rest, s.point = .copy i rest → (s.socket i).ended = false ∧ rest ≠ []

variable {ends : Ends} {s s' : State}

theorem inv_start (ends : Ends) : Inv ends (start ends) where
  fds _ := rfl
  shut _ := rfl
  one := nofun
  dirs := Nat.two_pos
  both _ := rfl
  sound := rfl
  bytes _ := rfl
  running := nofun
  ahead := nofun
  copying := nofun

variable {i : Side} {rest : List UInt8}

theorem Wired.fd_open (h : Wired ends s) (hi : (s.socket i).ended = false) :
    (s.pfd i).fd = ends.fd i := by
  rw [h.fds, hi]
  rfl

theorem Inv.delivers (h : Inv ends s) : Delivers ends s :=
  ⟨fun _ => h.bytes, h.shut, fun _ hr => absurd hr h.running, fun _ _ hi => h.fd_open hi⟩

theorem Wired.fd_ended (h : Wired ends s) (hi : (s.socket i).ended = true) :
    (s.pfd i).fd = -ends.fd i - 1 := by
  rw [h.fds, hi]
  rfl

theorem inv_next (h : Wired ends s) (hsound : s.failed = false)
    (hbytes : ∀ j, (s.socket j.other).written = (s.socket j).read)
    (hahead : i = .a → (s.pfd .b).revents = true → (s.socket .b).ended = false) :
    Inv ends (s.next i) := by
  cases i with
  | a =>
    refine ⟨{ h with }, hsound, ?_, nofun, ?_, nofun⟩
    · exact fun j => (append_nil _).trans (hbytes j)
    · intro j hj hr
      cases j with
      | a => cases hj
      | b => exact hahead rfl hr
  | b =>
    have hnext : s.next .b = { s with point := .poll } := by simp only [next, h.dirs, if_true]
    rw [hnext]
    exact ⟨{ h with }, hsound, fun j => (append_nil _).trans (hbytes j),
      nofun, nofun, nofun⟩

theorem pending_serve (hp : s.point = .serve i) (j : Side) : s.pending j = [] := by
  rw [pending, hp]

theorem pending_copy (hp : s.point = .copy i rest) :
    s.pending i = rest ∧ s.pending i.other = [] := by
  rw [pending, pending, hp]
  exact ⟨if_pos rfl, if_neg i.other_ne.symm⟩

theorem Inv.idle (h : Inv ends s) (hp : ∀ i, s.pending i = []) (j : Side) :
    (s.socket j.other).written = (s.socket j).read := by
  have := h.bytes j
  rwa [hp, append_nil] at this

theorem Inv.socketAt_serve (h : Inv ends s) (hp : s.point = .serve i)
    (hr : (s.pfd i).revents = true) :
    (s.socket i).ended = false ∧ ends.socketAt (s.pfd i).fd = some i := by
  have hi : (s.socket i).ended = false := h.ahead i (by rw [hp]; cases i <;> rfl) hr
  exact ⟨hi, by rw [h.fd_open hi, ends.socketAt_fd]⟩

theorem Inv.poll (h : Inv ends s) {ready : Side → Bool}
    (hready : ∀ i, ready i = true → 0 ≤ (s.pfd i).fd) (hp : s.point = .poll) :
    Inv ends
      { s with pfd := fun i => { s.pfd i with revents := ready i }, point := .serve .a } := by
  have hidle := h.idle fun i => by rw [pending, hp]
  refine ⟨{ h with }, h.sound, fun j => (append_nil _).trans (hidle j), nofun,
    ?_, nofun⟩
  intro j _ hj
  by_contra hn
  have hneg := h.fd_ended (Bool.eq_true_of_not_eq_false hn)
  have hfd := ends.nonneg j
  have := hready j hj
  omega

theorem Inv.pass (h : Inv ends s) (hp : s.point = .serve i) : Inv ends (s.next i) := by
  refine inv_next h.toWired h.sound (h.idle (pending_serve hp)) ?_
  rintro rfl
  exact h.ahead .b (by rw [hp]; rfl)

@[simp] theorem setSocket_self (s : State) (i : Side) (sock : Socket) :
    (s.setSocket i sock).socket i = sock :=
  update_self ..

@[simp] theorem setSocket_other (s : State) (i : Side) (sock : Socket) :
    (s.setSocket i sock).socket i.other = s.socket i.other :=
  update_of_ne i.other_ne ..

@[simp] theorem setSocket_of_other (s : State) (i : Side) (sock : Socket) :
    (s.setSocket i.other sock).socket i = s.socket i :=
  update_of_ne i.other_ne.symm ..

theorem Wired.setSocket (h : Wired ends s) {sock : Socket}
    (hended : sock.ended = (s.socket i).ended) (hshut : sock.shut = (s.socket i).shut) :
    Wired ends (s.setSocket i sock) := by
  have hkeep : ∀ j, ((s.setSocket i sock).socket j).ended = (s.socket j).ended ∧
      ((s.setSocket i sock).socket j).shut = (s.socket j).shut := by
    intro j
    obtain rfl | rfl := i.eq_or j <;> simp [hended, hshut]
  refine ⟨fun j => ?_, fun j => ?_, fun j => ?_, h.dirs, fun hall => ?_⟩
  · rw [(hkeep j).1]
    exact h.fds j
  · rw [(hkeep j).1, (hkeep _).2]
    exact h.shut j
  · rw [(hkeep j).1, (hkeep _).1]
    exact h.one j
  · exact h.both fun j => (hkeep j).1.symm.trans (hall j)

theorem Inv.readBytes (h : Inv ends s) {chunk : List UInt8} (hp : s.point = .serve i)
    (hi : (s.socket i).ended = false) (hc : chunk ≠ []) :
    Inv ends (s.afterRead ends i i chunk) := by
  have hidle := h.idle (pending_serve hp)
  have hw : Wired ends (s.setSocket i { s.socket i with read := (s.socket i).read ++ chunk }) :=
    h.toWired.setSocket rfl rfl
  rw [afterRead, if_neg hc]
  refine ⟨{ hw with }, h.sound, fun j => ?_, nofun, fun j hj hr => ?_, ?_⟩
  · obtain rfl | rfl := i.eq_or j
    · simp [pending, hidle j]
    · have := hidle i.other
      simp_all [pending, i.other_ne.symm]
  · have hj' : j ≠ i ∧ s.point.ahead j = true := by
      rw [hp]
      revert hj
      cases i <;> cases j <;> simp [Point.ahead]
    have hsame := (i.eq_or j).resolve_left hj'.1
    subst hsame
    simpa using h.ahead i.other hj'.2 hr
  · rintro j rest ⟨⟩
    exact ⟨by simpa using hi, hc⟩

theorem Inv.writeBytes (h : Inv ends s) {n : Nat} (hp : s.point = .copy i rest) :
    Inv ends (s.afterWrite i i.other rest n) := by
  obtain ⟨hmine, hothers⟩ := pending_copy hp
  have hw : Wired ends (s.setSocket i.other
      { s.socket i.other with written := (s.socket i.other).written ++ rest.take n }) :=
    h.toWired.setSocket rfl rfl
  have hi := (h.copying i rest hp).1
  -- what was under way is what is written now and what is left
  have hsplit : (s.socket i.other).written ++ rest.take n ++ rest.drop n = (s.socket i).read := by
    rw [append_assoc, take_append_drop, ← hmine]
    exact h.bytes i
  have hback : (s.socket i).written = (s.socket i.other).read := by
    have := h.bytes i.other
    rwa [hothers, append_nil, Side.other_other] at this
  have hahead : i = .a → (s.pfd .b).revents = true → (s.socket .b).ended = false := by
    rintro rfl
    exact h.ahead .b (by rw [hp]; rfl)
  rw [afterWrite]
  by_cases hrest : rest.drop n = []
  · rw [if_pos hrest]
    refine inv_next hw h.sound (fun j => ?_) ?_
    · rw [hrest, append_nil] at hsplit
      obtain rfl | rfl := i.eq_or j
      · simpa using hsplit
      · simpa using hback
    · rintro rfl
      exact fun hr => hahead rfl hr
  · rw [if_neg hrest]
    refine ⟨{ hw with }, h.sound, fun j => ?_, nofun, fun j hj hr => ?_, ?_⟩
    · obtain rfl | rfl := i.eq_or j
      · simpa [pending] using hsplit
      · simpa [pending, i.other_ne.symm] using hback
    · have hij : i = .a ∧ j = .b := by
        revert hj
        cases i <;> cases j <;> simp [Point.ahead]
      obtain ⟨rfl, rfl⟩ := hij
      simpa [Side.other] using hahead rfl hr
    · rintro j rest ⟨⟩
      exact ⟨by simpa using hi, hrest⟩

def ended (s : State) (i : Side) : State :=
  ((s.setSocket i { s.socket i with ended := true }).setSocket i.other
    { s.socket i.other with shut := true }).ignore i

theorem afterRead_end (hw : Wired ends s) (ho : (s.socket i.other).ended = false) :
    s.afterRead ends i i [] = (s.ended i).next i := by
  rw [afterRead, if_pos rfl, hw.fd_open ho, shutdown, ends.socketAt_fd, ended]
  simp only [setSocket_other]

@[simp] theorem ended_self (s : State) (i : Side) :
    (s.ended i).socket i = { s.socket i with ended := true } := by
  simp [ended, ignore]

@[simp] theorem ended_other (s : State) (i : Side) :
    (s.ended i).socket i.other = { s.socket i.other with shut := true } := by
  simp [ended, ignore]

theorem ended_pfd_self (s : State) (i : Side) : ((s.ended i).pfd i).fd = -(s.pfd i).fd - 1 := by
  simp [ended, ignore, setSocket]

theorem ended_pfd_other (s : State) (i : Side) : (s.ended i).pfd i.other = s.pfd i.other :=
  update_of_ne i.other_ne ..

theorem Wired.ended (h : Wired ends s) (hi : (s.socket i).ended = false)
    (ho : (s.socket i.other).ended = false) : Wired ends (s.ended i) := by
  have hback := h.shut i.other
  rw [Side.other_other] at hback
  have hdirs : s.openDirs = 2 := h.both fun j => by obtain rfl | rfl := i.eq_or j <;> assumption
  refine ⟨fun j => ?_, fun j => ?_, fun j => ?_, ?_, fun hall => ?_⟩
  · obtain rfl | rfl := i.eq_or j
    · simp [ended_pfd_self, h.fd_open hi]
    · simp [ended_pfd_other, h.fd_open ho, ho]
  · obtain rfl | rfl := i.eq_or j <;> simp [hback, ho]
  · obtain rfl | rfl := i.eq_or j <;> simp [ho]
  · change 0 < s.openDirs - 1
    omega
  · have := hall i
    simp at this

theorem Inv.readEnd (h : Inv ends s) (hp : s.point = .serve i) (hi : (s.socket i).ended = false)
    (ho : (s.socket i.other).ended = false) : Inv ends (s.afterRead ends i i []) := by
  have hidle := h.idle (pending_serve hp)
  rw [afterRead_end h.toWired ho]
  refine inv_next (h.toWired.ended hi ho) h.sound (fun j => ?_) ?_
  · have hback := hidle i.other
    obtain rfl | rfl := i.eq_or j <;> simp_all
  · rintro rfl _
    rw [show Side.b = Side.a.other from rfl, ended_other]
    exact ho

structure GivenUp (s : State) : Prop where
  failed : s.failed = true
  returned : s.point = .returned
  halfClosed : ∀ i, (s.socket i.other).shut = (s.socket i).ended

theorem GivenUp.delivers (h : GivenUp s) : Delivers ends s where
  bytes hf := absurd (h.failed.symm.trans hf) nofun
  halfClosed := h.halfClosed
  goesOn hf := absurd (h.failed.symm.trans hf) nofun
  polled hf := absurd (h.failed.symm.trans hf) nofun

theorem GivenUp.stays (h : GivenUp s) (act : Action) : step ends s act = none := by
  simp only [step, h.returned]

theorem unused_end (hp : s.point = .serve i) :
    Unused s (.read []) ↔ (s.socket i.other).ended = false := by
  simp [Unused, passesTo, hp]

theorem unused_write {n : Nat} (hp : s.point = .copy i rest) :
    Unused s (.write n) ↔ (s.socket i.other).ended = false := by
  simp [Unused, passesTo, hp]

@[simp] theorem next_socket (s : State) (i : Side) : (s.next i).socket = s.socket := by cases i <;> rfl

theorem Inv.readEnd_ended (h : Inv ends s) (hi : (s.socket i).ended = false)
    (ho : (s.socket i.other).ended = true) : ¬ Delivers ends (s.afterRead ends i i []) := by
  intro hd
  have hshut := hd.halfClosed i
  rw [afterRead, if_pos rfl, h.fd_ended ho, shutdown, ends.socketAt_negated] at hshut
  simp only [next_socket, ignore, setSocket_other, setSocket_self, h.shut i, hi] at hshut
  cases hshut

theorem Inv.kept (h : Inv ends s) {act : Action} (hok : Unused s act)
    (hs : step ends s act = some s') : Inv ends s' ∨ GivenUp s' := by
  cases hp : s.point with
  | poll =>
    cases act with
    | poll ready =>
      simp only [State.step, hp] at hs
      split at hs
      next hready =>
        cases hs
        refine .inl (h.poll (fun i hi => hready.1 i ?_ hi) hp)
        cases i <;> simp
      next => cases hs
    | interrupted =>
      simp only [State.step, hp, Option.some.injEq] at hs
      exact .inl (hs ▸ h)
    | failed =>
      simp only [State.step, hp, Option.some.injEq] at hs
      exact .inr (hs ▸ ⟨rfl, rfl, h.shut⟩)
    | _ => simp [State.step, hp] at hs
  | serve i =>
    cases act with
    | pass =>
      simp only [State.step, hp] at hs
      split at hs
      next => cases hs
      next =>
        cases hs
        exact .inl (h.pass hp)
    | read chunk =>
      simp only [State.step, hp] at hs
      split at hs
      next hr =>
        obtain ⟨hi, hsock⟩ := h.socketAt_serve hp hr.1
        rw [hsock] at hs
        cases hs
        left
        cases chunk with
        | nil =>
          exact h.readEnd hp hi ((unused_end hp).mp hok)
        | cons c cs => exact h.readBytes hp hi (cons_ne_nil c cs)
      next => cases hs
    | _ => simp [State.step, hp] at hs
  | copy i rest =>
    cases act with
    | write n =>
      simp only [State.step, hp, h.fd_open ((unused_write hp).mp hok), ends.socketAt_fd] at hs
      split at hs
      next =>
        cases hs
        exact .inl (h.writeBytes hp)
      next => cases hs
    | refused =>
      simp only [State.step, hp] at hs
      obtain ⟨k, -, rfl⟩ := Option.map_eq_some_iff.mp hs
      exact .inr ⟨rfl, rfl, h.shut⟩
    | _ => simp [State.step, hp] at hs
  | returned => exact absurd hp h.running

theorem Inv.lost (h : Inv ends s) {act : Action} (hbad : ¬ Unused s act)
    (hs : step ends s act = some s') : ¬ Delivers ends s' := by
  intro hd
  cases hp : s.point with
  | serve i =>
    cases act with
    | read chunk =>
      cases chunk with
      | nil =>
        have ho := Bool.eq_true_of_not_eq_false (mt (unused_end hp).mpr hbad)
        simp only [State.step, hp] at hs
        split at hs
        next hr =>
          obtain ⟨hi, hsock⟩ := h.socketAt_serve hp hr.1
          rw [hsock] at hs
          cases hs
          exact h.readEnd_ended hi ho hd
        next => cases hs
      | cons c cs => simp [Unused, passesTo, hp] at hbad
    | _ => simp [Unused, passesTo, hp] at hbad
  | copy i rest =>
    cases act with
    | write n =>
      have ho := Bool.eq_true_of_not_eq_false (mt (unused_write hp).mpr hbad)
      simp only [State.step, hp, h.fd_ended ho, ends.socketAt_negated, Option.some.injEq] at hs
      subst hs
      have := hd.goesOn h.sound rfl i
      exact absurd ((h.copying i rest hp).1.symm.trans this) nofun
    | _ => simp [Unused, passesTo, hp] at hbad
  | _ => cases act <;> simp [Unused, passesTo, hp] at hbad

/-- **The relay delivers, up to the first end**: exactly if in no step something is passed on to a
socket that has ended. -/
theorem relay_delivers_iff (ends : Ends) (as : List Action) (s : State)
    (hrun : run (step ends) (start ends) as = some s) :
    Always (step ends) (Delivers ends) (start ends) as ↔
      Along (step ends) Unused (start ends) as := by
  refine always_iff_along (J := fun s => Inv ends s ∨ GivenUp s) ?_ ?_ ?_ hrun
    (.inl (inv_start ends))
  · rintro s (h | h)
    · exact h.delivers
    · exact h.delivers
  · rintro s act s₁ (h | h) hok hs
    · exact h.kept hok hs
    · exact absurd (hs.symm.trans (h.stays act)) nofun
  · rintro s act s₁ (h | h) hbad hs
    · exact h.lost hbad hs
    · exact absurd (hs.symm.trans (h.stays act)) nofun

end State

def clientServer : Ends where
  fd | .a => 3 | .b => 4
  nonneg i := by cases i <;> decide
  distinct := by decide

def only (i : Side) : Action := .poll (· = i)

def answered : List Action :=
  [only .a, .read [1, 2], .write 1, .write 1, .pass, only .b, .pass, .read [3], .write 1, only .b,
    .pass, .read []]

def halfClosed : List Action :=
  [only .a, .read [1, 2], .write 2, .pass, only .a, .read [], .pass, only .b, .pass, .read [3],
    .write 1]

theorem relay_delivers_answered :
    Always (State.step clientServer) (State.Delivers clientServer) (start clientServer)
      answered := by
  have hrun : ∃ s, run (State.step clientServer) (start clientServer) answered = some s := ⟨_, rfl⟩
  obtain ⟨s, hrun⟩ := hrun
  refine (State.relay_delivers_iff clientServer answered s hrun).mpr ?_
  exact along_of_check (fun s act => of_decide_eq_true (p := State.Unused s act)) (by decide)

theorem answer_lost : ∃ s, run (State.step clientServer) (start clientServer) halfClosed = some s ∧
    s.point = .returned ∧ s.failed = false ∧ (s.socket .b).ended = false ∧
    (s.socket .b).read = [3] ∧ (s.socket .a).written = [] ∧ ¬ s.Delivers clientServer :=
  ⟨_, rfl, rfl, rfl, rfl, rfl, rfl, fun h => absurd (h.bytes rfl .b) (by decide)⟩

end OniroSoc.Launcher.Relay

import OniroSoc.Support.Runs

/-!
# The HEVC decoder bridge

`Decode` queues an access unit to the hardware codec and hands out the oldest finished picture.
While more pictures wait it reports nothing consumed, and the caller presents the sample again.
`Flush` drains the codec, and the next sample rearms it.
-/

namespace OniroSoc.Codec
open Support List

structure Sample where
  addr : Nat
  bytes : List UInt8
  pts : Nat
  addr_ne : addr ≠ 0
  bytes_ne : bytes ≠ []

def Sample.len (x : Sample) : Nat := x.bytes.length

inductive Input where
  | unit (bytes : List UInt8) (pts : Nat)
  | endOfStream (pts : Nat)

/-- What `dequeueOutputBuffer` returns, with the output format of then (if there is one).  A buffer
has no content if it is null or empty. -/
inductive Output (L B : Type) where
  | formatChanged (format : Option L)
  | buffersChanged
  | buffer (content : Option B) (eos : Bool) (format : Option L)

def Output.eos {L B : Type} : Output L B → Bool
  | .buffer _ eos _ => eos
  | _ => false

structure Session (L P : Type) where
  layout : L
  ready : List P := []
  lastPts : Nat := 0
  pending : Option (Nat × Nat) := none
  queuedSinceRearm : Nat := 0
  (eosQueued eosSeen : Bool := false)
  inputs : List Input := []
  (produced discarded : List P := [])

def inputTries : Nat := 50

/-- The codec's answers to one call: to `flush`, to the tries for an input buffer that failed (each
of them is followed by a drain), to the input itself, to the drain of `Decode`, and to the drains of
`Flush` before its deadline. -/
structure Env (L B : Type) where
  flushed : Bool := true
  tries : List (List (Output L B)) := []
  accepted : Bool := true
  outputs : List (Output L B) := []
  turns : List (List (Output L B)) := []

inductive Ret where
  | picture
  | noPicture
  | drained
  | error
deriving DecidableEq

structure Reply (P : Type) where
  ret : Ret
  consumed : Nat := 0
  picture : Option P := none

section Model
variable {L B P : Type} (blank : L → Bool) (convert : L → B → Option P)

namespace Session

def readLayout (s : Session L P) (format : Option L) : Session L P :=
  { s with layout := format.getD s.layout }

def collect (s : Session L P) : Output L B → Session L P
  | .formatChanged format => s.readLayout format
  | .buffersChanged => s
  | .buffer content eos format =>
    let s := if blank s.layout then s.readLayout format else s
    match content.bind (convert s.layout) with
    | some picture =>
      { s with
        ready := s.ready ++ [picture]
        produced := s.produced ++ [picture]
        eosSeen := s.eosSeen || eos }
    | none => { s with eosSeen := s.eosSeen || eos }

def drain (s : Session L P) (outputs : List (Output L B)) : Session L P :=
  outputs.foldl (collect blank convert) s

def queue (s : Session L P) (input : Input) (tries : List (List (Output L B))) (accepted : Bool) :
    Session L P × Bool :=
  let s := (tries.take inputTries).foldl (drain blank convert) s
  if tries.length < inputTries ∧ accepted = true then
    match input with
    | .unit _ pts =>
      ({ s with lastPts := pts, queuedSinceRearm := s.queuedSinceRearm + 1, inputs := s.inputs ++ [input] },
        true)
    | .endOfStream pts => ({ s with lastPts := pts, inputs := s.inputs ++ [input] }, true)
  else (s, false)

def rearm (s : Session L P) (flushed : Bool) : Session L P × Bool :=
  if !s.eosQueued && !s.eosSeen then (s, true)
  else if flushed then ({ s with
        ready := []
        eosQueued := false
        eosSeen := false
        queuedSinceRearm := 0
        discarded := s.discarded ++ s.ready }, true)
  else (s, false)

def hand (s : Session L P) : Option P × Session L P :=
  match s.ready with
  | [] => (none, s)
  | picture :: ready => (some picture, { s with ready := ready })

def report (s : Session L P) (input : Option Sample) : Session L P × Reply P :=
  let (picture, s) := s.hand
  let ret := if picture.isSome then Ret.picture else Ret.noPicture
  match input with
  | some x =>
    if picture.isNone || s.ready.isEmpty then ({ s with pending := none }, ⟨ret, x.len, picture⟩)
    else (s, ⟨ret, 0, picture⟩)
  | none => (s, ⟨ret, 0, picture⟩)

def decode (s : Session L P) (input : Option Sample) (env : Env L B) : Session L P × Reply P :=
  match input with
  | none => (s.drain blank convert env.outputs).report none
  | some x =>
    if s.pending = some (x.addr, x.len) then (s.drain blank convert env.outputs).report (some x)
    else
      match s.rearm env.flushed with
      | (s, false) => (s, ⟨.error, 0, none⟩)
      | (s, true) =>
        match s.queue blank convert (.unit x.bytes x.pts) env.tries env.accepted with
        | (s, false) => (s, ⟨.error, 0, none⟩)
        | (s, true) =>
          ({ s with pending := some (x.addr, x.len) }.drain blank convert env.outputs).report (some x)

def endStream (s : Session L P) (env : Env L B) : Session L P :=
  if s.eosQueued || s.eosSeen then s
  else if s.queuedSinceRearm = 0 then { s with eosSeen := true }
  else
    match s.queue blank convert (.endOfStream s.lastPts) env.tries env.accepted with
    | (s, true) => { s with eosQueued := true }
    | (s, false) => { s with eosSeen := true }

def await (s : Session L P) : List (List (Output L B)) → Session L P
  | [] => s
  | outputs :: turns =>
    if s.ready.isEmpty && !s.eosSeen then await (s.drain blank convert outputs) turns else s

def flush (s : Session L P) (env : Env L B) : Session L P × Reply P :=
  match ((s.endStream blank convert env).await blank convert env.turns).hand with
  | (some picture, s) => (s, ⟨.picture, 0, some picture⟩)
  | (none, s) => ({ s with eosSeen := true }, ⟨.drained, 0, none⟩)

end Session

/-! ### The caller -/

inductive Phase where
  | idle
  | repeating (x : Sample)
  | draining
  | failed

structure Bridge (L P : Type) where
  session : Session L P
  phase : Phase := .idle
  presented : List Sample := []
  handed : List P := []
  repeats : Nat := 0
  drained : Bool := false
  early : Bool := false

def Bridge.start {L P : Type} (layout : L) : Bridge L P := { session := { layout := layout } }

inductive Action (L B : Type) where
  | present (x : Sample) (env : Env L B)
  | again (env : Env L B)
  | flush (env : Env L B)

/-- The codec has an input buffer within the retry limit and reports no error, and it marks the end
of the stream only when that was queued. -/
def answers (s : Session L P) (x : Option Sample) (env : Env L B) : Bool :=
  env.flushed && env.tries.length < inputTries && env.accepted && env.tries.flatten.all (!·.eos) &&
    x.all fun x => env.outputs.all (!·.eos) || (s.eosQueued && s.pending = some (x.addr, x.len))

def Bridge.decoded (b : Bridge L P) (x : Sample) (r : Session L P × Reply P) : Bridge L P :=
  { b with
    session := r.1
    phase := if r.2.ret = .error then .failed else if r.2.consumed = 0 then .repeating x else .idle
    handed := b.handed ++ r.2.picture.toList
    repeats := if r.2.consumed = 0 then b.repeats + 1 else 0
    drained := b.drained && r.1.eosSeen
    early := b.early || (!b.drained && b.session.discarded.length < r.1.discarded.length) }

def Bridge.flushed (b : Bridge L P) (r : Session L P × Reply P) : Bridge L P :=
  { b with
    session := r.1
    phase := if r.2.ret = .picture then .draining else .idle
    handed := b.handed ++ r.2.picture.toList
    repeats := 0
    drained := b.drained || r.2.ret = .drained }

def step (b : Bridge L P) : Action L B → Option (Bridge L P)
  | .present x env =>
    match b.phase with
    | .idle =>
      if answers b.session (some x) env then
        some ({ b with presented := b.presented ++ [x] }.decoded x
          (b.session.decode blank convert (some x) env))
      else none
    | _ => none
  | .again env =>
    match b.phase with
    | .repeating x =>
      if answers b.session (some x) env then some (b.decoded x (b.session.decode blank convert (some x) env))
      else none
    | _ => none
  | .flush env =>
    match b.phase with
    | .failed => none
    | _ => if answers b.session none env then some (b.flushed (b.session.flush blank convert env))
      else none

end Model

/-! ### The property and the condition -/

def units (inputs : List Input) : List (List UInt8 × Nat) :=
  inputs.filterMap fun
    | .unit bytes pts => some (bytes, pts)
    | .endOfStream _ => none

def Fates {P : Type} (produced ready handed discarded : List P) : Prop :=
  ∃ left : List (P × Bool), produced = left.map Prod.fst ++ ready ∧
    handed = (left.filter fun l => l.2).map Prod.fst ∧ discarded =
    (left.filter fun l => !l.2).map Prod.fst

structure Good {L P : Type} (b : Bridge L P) : Prop where
  queued : units b.session.inputs = b.presented.map fun x => (x.bytes, x.pts)
  pictures : Fates b.session.produced b.session.ready b.handed b.session.discarded
  late : b.early = false
  repeats : b.repeats + b.session.ready.length ≤ b.session.produced.length

def Fits {L B P : Type} (b : Bridge L P) : Action L B → Prop
  | .present x _ => b.session.pending ≠ some (x.addr, x.len)
  | _ => True

/-! ### What has become of the pictures -/

section Pictures
variable {P : Type} {produced ready handed discarded : List P}

theorem Fates.produce (h : Fates produced ready handed discarded) (pictures : List P) :
    Fates (produced ++ pictures) (ready ++ pictures) handed discarded := by
  obtain ⟨left, hproduced, hhanded, hdiscarded⟩ := h
  exact ⟨left, by rw [hproduced, append_assoc], hhanded, hdiscarded⟩

theorem Fates.hand {picture : P} (h : Fates produced (picture :: ready) handed discarded) :
    Fates produced ready (handed ++ [picture]) discarded := by
  obtain ⟨left, hproduced, hhanded, hdiscarded⟩ := h
  refine ⟨left ++ [(picture, true)], ?_, ?_, ?_⟩
  · rw [hproduced, map_append, append_assoc]
    rfl
  · rw [hhanded, filter_append, map_append]
    rfl
  · rw [hdiscarded, filter_append, map_append]
    exact (append_nil _).symm

theorem Fates.discard (h : Fates produced ready handed discarded) :
    Fates produced [] handed (discarded ++ ready) := by
  obtain ⟨left, hproduced, hhanded, hdiscarded⟩ := h
  have hmap : (ready.map fun picture => (picture, false)).map Prod.fst = ready := by
    rw [map_map]
    exact map_id ready
  refine ⟨left ++ ready.map fun picture => (picture, false), ?_, ?_, ?_⟩
  · rw [hproduced, map_append, hmap, append_nil]
  · have hnone : (ready.map fun picture => (picture, false)).filter (fun l => l.2) = [] := by simp
    rw [hhanded, filter_append, hnone, append_nil]
  · have hall : (ready.map fun picture => (picture, false)).filter (fun l => !l.2) =
        ready.map fun picture => (picture, false) := by simp
    rw [hdiscarded, filter_append, hall, map_append, hmap]

theorem Fates.length (h : Fates produced ready handed discarded) :
    handed.length + ready.length ≤ produced.length := by
  obtain ⟨left, rfl, rfl, -⟩ := h
  rw [length_append, length_map, length_map]
  have hle := length_filter_le (fun l : P × Bool => l.2) left
  omega

end Pictures

/-! ### What the calls do -/

structure Collects {L P : Type} (s s' : Session L P) : Prop where
  inputs : s'.inputs = s.inputs
  discarded : s'.discarded = s.discarded
  pending : s'.pending = s.pending
  eosQueued : s'.eosQueued = s.eosQueued
  pictures : ∃ pictures, s'.ready = s.ready ++ pictures ∧ s'.produced = s.produced ++ pictures

section Calls
variable {L B P : Type} {blank : L → Bool} {convert : L → B → Option P} {s s' s'' : Session L P}

theorem Collects.refl (s : Session L P) : Collects s s :=
  ⟨rfl, rfl, rfl, rfl, [], (append_nil _).symm, (append_nil _).symm⟩

theorem Collects.trans (h : Collects s s') (h' : Collects s' s'') : Collects s s'' := by
  obtain ⟨pictures, hready, hproduced⟩ := h.pictures
  obtain ⟨pictures', hready', hproduced'⟩ := h'.pictures
  refine ⟨h'.inputs.trans h.inputs, h'.discarded.trans h.discarded, h'.pending.trans h.pending,
    h'.eosQueued.trans h.eosQueued, pictures ++ pictures', ?_, ?_⟩
  · rw [hready', hready, append_assoc]
  · rw [hproduced', hproduced, append_assoc]

theorem collects_collect (s : Session L P) (output : Output L B) :
    Collects s (s.collect blank convert output) := by
  cases output with
  | formatChanged format => exact { Collects.refl s with }
  | buffersChanged => exact .refl s
  | buffer content eos format =>
    rw [Session.collect]
    have hlayout : Collects s (if blank s.layout then s.readLayout format else s) := by
      split
      · exact { Collects.refl s with }
      · exact .refl s
    generalize (if blank s.layout then s.readLayout format else s) = s₁ at hlayout
    refine hlayout.trans ?_
    split
    · exact ⟨rfl, rfl, rfl, rfl, _, rfl, rfl⟩
    · exact { Collects.refl s₁ with }

theorem eosSeen_collect {output : Output L B} (h : output.eos = false) :
    (s.collect blank convert output).eosSeen = s.eosSeen := by
  cases output with
  | formatChanged format => rfl
  | buffersChanged => rfl
  | buffer content eos format =>
    obtain rfl : eos = false := h
    rw [Session.collect]
    have hlayout : (if blank s.layout then s.readLayout format else s).eosSeen = s.eosSeen := by
      split <;> rfl
    generalize (if blank s.layout then s.readLayout format else s) = s₁ at hlayout
    split <;> simp only [Bool.or_false, hlayout]

theorem collects_drain (s : Session L P) (outputs : List (Output L B)) :
    Collects s (s.drain blank convert outputs) := by
  induction outputs generalizing s with
  | nil => exact .refl s
  | cons output outputs ih => exact (collects_collect s output).trans (ih _)

theorem eosSeen_drain {outputs : List (Output L B)} (h : ∀ output ∈ outputs, output.eos = false) :
    (s.drain blank convert outputs).eosSeen = s.eosSeen := by
  induction outputs generalizing s with
  | nil => rfl
  | cons output outputs ih =>
    obtain ⟨houtput, houtputs⟩ := forall_mem_cons.mp h
    exact (ih houtputs).trans (eosSeen_collect houtput)

theorem collects_drains (s : Session L P) (tries : List (List (Output L B))) :
    Collects s (tries.foldl (Session.drain blank convert) s) := by
  induction tries generalizing s with
  | nil => exact .refl s
  | cons outputs tries ih => exact (collects_drain s outputs).trans (ih _)

theorem eosSeen_drains {tries : List (List (Output L B))}
    (h : ∀ output ∈ tries.flatten, output.eos = false) :
    (tries.foldl (Session.drain blank convert) s).eosSeen = s.eosSeen := by
  induction tries generalizing s with
  | nil => rfl
  | cons outputs tries ih =>
    rw [flatten_cons] at h
    obtain ⟨houtputs, htries⟩ := forall_mem_append.mp h
    exact (ih htries).trans (eosSeen_drain houtputs)

theorem queue_accepted {input : Input} {tries : List (List (Output L B))}
    (hlength : tries.length < inputTries) (heos : ∀ output ∈ tries.flatten, output.eos = false) :
    ∃ s₁, s.queue blank convert input tries true = (s₁, true) ∧ s₁.inputs = s.inputs ++ [input] ∧
      s₁.discarded = s.discarded ∧ s₁.eosQueued = s.eosQueued ∧ s₁.eosSeen = s.eosSeen ∧
      ∃ pictures, s₁.ready = s.ready ++ pictures ∧ s₁.produced = s.produced ++ pictures := by
  have htake : tries.take inputTries = tries := take_of_length_le hlength.le
  have hcollects : Collects s (tries.foldl (Session.drain blank convert) s) :=
    collects_drains s tries
  have hseen : (tries.foldl (Session.drain blank convert) s).eosSeen = s.eosSeen :=
    eosSeen_drains heos
  unfold Session.queue
  dsimp only
  rw [htake, if_pos ⟨hlength, rfl⟩]
  cases input with
  | unit | endOfStream =>
    exact ⟨_, rfl, by rw [hcollects.inputs], hcollects.discarded, hcollects.eosQueued, hseen,
      hcollects.pictures⟩

theorem collects_await (s : Session L P) (turns : List (List (Output L B))) :
    Collects s (s.await blank convert turns) := by
  induction turns generalizing s with
  | nil => exact .refl s
  | cons outputs turns ih =>
    rw [Session.await]
    split_ifs
    · exact (collects_drain s outputs).trans (ih _)
    · exact .refl s

theorem rearm_flushed (s : Session L P) :
    ∃ s₁, s.rearm true = (s₁, true) ∧ s₁.inputs = s.inputs ∧ s₁.produced = s.produced ∧
      s₁.eosQueued = false ∧ s₁.eosSeen = false ∧
      ((s₁.ready = s.ready ∧ s₁.discarded = s.discarded) ∨
       ((s.eosQueued = true ∨ s.eosSeen = true) ∧
        s₁.ready = [] ∧
        s₁.discarded = s.discarded ++ s.ready)) := by
  rw [Session.rearm]
  split_ifs with hrunning
  · obtain ⟨hqueued, hseen⟩ := Bool.and_eq_true_iff.mp hrunning
    rw [Bool.not_eq_true'] at hqueued hseen
    exact ⟨s, rfl, rfl, rfl, hqueued, hseen, .inl ⟨rfl, rfl⟩⟩
  · refine ⟨_, rfl, rfl, rfl, rfl, rfl, .inr ⟨?_, rfl, rfl⟩⟩
    cases hqueued : s.eosQueued with
    | true => exact .inl rfl
    | false =>
      cases hseen : s.eosSeen with
      | true => exact .inr rfl
      | false => exact absurd (by rw [hqueued, hseen]; rfl) hrunning
  · rename_i hnot
    exact absurd rfl hnot

theorem hand_nil (h : s.ready = []) : s.hand = (none, s) := by
  rw [Session.hand, h]

variable {picture : P}

theorem hand_cons {ready : List P} (h : s.ready = picture :: ready) :
    s.hand = (some picture, { s with ready := ready }) := by
  rw [Session.hand, h]

variable {x : Sample}

theorem report_nil (h : s.ready = []) :
    s.report (some x) = ({ s with pending := none }, ⟨.noPicture, x.len, none⟩) := by
  cases s
  cases h
  rfl

theorem report_one (h : s.ready = [picture]) :
    s.report (some x) =
      ({ s with ready := [], pending := none }, ⟨.picture, x.len, some picture⟩) := by
  cases s
  cases h
  rfl

theorem report_more {next : P} {ready : List P} (h : s.ready = picture :: next :: ready) :
    s.report (some x) = ({ s with ready := next :: ready }, ⟨.picture, 0, some picture⟩) := by
  cases s
  cases h
  rfl

theorem decode_again {env : Env L B} (h : s.pending = some (x.addr, x.len)) :
    s.decode blank convert (some x) env = (s.drain blank convert env.outputs).report (some x) :=
      if_pos h

theorem decode_new {env : Env L B} (h : s.pending ≠ some (x.addr, x.len))
    (hrearm : s.rearm env.flushed = (s', true))
    (hqueue : s'.queue blank convert (.unit x.bytes x.pts) env.tries env.accepted = (s'', true)) :
    s.decode blank convert (some x) env =
      ({ s'' with pending := some (x.addr, x.len) }.drain blank convert env.outputs).report
        (some x) := by
  unfold Session.decode
  dsimp only
  rw [if_neg h, hrearm]
  dsimp only
  rw [hqueue]

theorem units_append_unit (inputs : List Input) (bytes : List UInt8) (pts : Nat) :
    units (inputs ++ [.unit bytes pts]) = units inputs ++ [(bytes, pts)] := filterMap_append

theorem units_append_endOfStream (inputs : List Input) (pts : Nat) :
    units (inputs ++ [.endOfStream pts]) = units inputs :=
  filterMap_append.trans (append_nil _)

end Calls

structure Inv {L P : Type} (b : Bridge L P) : Prop where
  queued : units b.session.inputs = b.presented.map fun x => (x.bytes, x.pts)
  pictures : Fates b.session.produced b.session.ready b.handed b.session.discarded
  late : b.early = false
  repeats : b.repeats ≤ b.handed.length
  waiting : ∀ x, b.phase = .repeating x → b.session.pending = some (x.addr, x.len) ∧
    b.session.eosQueued = false ∧ b.session.eosSeen = false
  eos : b.session.eosQueued = true ∨ b.session.eosSeen = true → b.drained = true ∨
    b.phase = .draining
  running : b.phase ≠ .failed

section Steps
variable {L B P : Type} {blank : L → Bool} {convert : L → B → Option P} {b : Bridge L P}
  {s : Session L P} {x : Sample} {env : Env L B}

theorem Inv.good (h : Inv b) : Good b := by
  refine { h with repeats := ?_ }
  have hlength := h.pictures.length
  have hrepeats := h.repeats
  omega

theorem inv_decoded (hqueued : units s.inputs = b.presented.map fun x => (x.bytes, x.pts))
    (hpictures : Fates s.produced s.ready b.handed s.discarded) (hlate : b.early = false)
    (hdiscarded : b.drained = false → s.discarded = b.session.discarded)
    (hrepeats : b.repeats ≤ b.handed.length) (hpending : s.pending = some (x.addr, x.len))
    (heosQueued : s.eosQueued = false) (heosSeen : s.eosSeen = false) :
    Inv (b.decoded x (s.report (some x))) := by
  have hlen : x.len ≠ 0 := fun hzero => x.bytes_ne (length_eq_zero_iff.mp hzero)
  have hearly : (b.early ||
    (!b.drained && decide (b.session.discarded.length < s.discarded.length))) =
      false := by
    cases hdrained : b.drained with
    | true => rw [hlate]; rfl
    | false => rw [hlate, hdiscarded hdrained, decide_eq_false (lt_irrefl _)]; rfl
  have heos : ¬ (s.eosQueued = true ∨ s.eosSeen = true) := by
    rw [heosQueued, heosSeen]
    decide
  cases hready : s.ready with
  | nil =>
    rw [report_nil hready, Bridge.decoded]
    refine ⟨hqueued, ?_, hearly, ?_, fun y hy => ?_, fun h => absurd h heos, ?_⟩
    · exact (append_nil b.handed).symm ▸ hpictures
    · exact (if_neg hlen).trans_le (Nat.zero_le _)
    · rw [if_neg nofun, if_neg hlen] at hy
      cases hy
    · rw [if_neg nofun, if_neg hlen]
      exact nofun
  | cons picture ready =>
    rw [hready] at hpictures
    cases ready with
    | nil =>
      rw [report_one hready, Bridge.decoded]
      refine ⟨hqueued, hpictures.hand, hearly, ?_, fun y hy => ?_, fun h => absurd h heos, ?_⟩
      · exact (if_neg hlen).trans_le (Nat.zero_le _)
      · rw [if_neg nofun, if_neg hlen] at hy
        cases hy
      · rw [if_neg nofun, if_neg hlen]
        exact nofun
    | cons next ready =>
      rw [report_more hready, Bridge.decoded]
      refine ⟨hqueued, hpictures.hand, hearly, ?_, fun y hy => ?_, fun h => absurd h heos, ?_⟩
      · rw [if_pos rfl, Option.toList_some, length_append, length_singleton]
        exact Nat.succ_le_succ hrepeats
      · rw [if_neg nofun, if_pos rfl] at hy
        obtain rfl := Phase.repeating.inj hy
        exact ⟨hpending, heosQueued, heosSeen⟩
      · rw [if_neg nofun, if_pos rfl]
        exact nofun

theorem outputs_eos (h : answers b.session (some x) env = true)
    (hrunning : b.session.pending ≠ some (x.addr, x.len) ∨ b.session.eosQueued = false) :
    ∀ output ∈ env.outputs, output.eos = false := by
  have houtputs : (env.outputs.all (!·.eos) ||
      (b.session.eosQueued && decide (b.session.pending = some (x.addr, x.len)))) = true :=
    (Bool.and_eq_true_iff.mp h).2
  rcases Bool.or_eq_true_iff.mp houtputs with hall | hlate
  · exact fun output hmem => by simpa using all_eq_true.mp hall output hmem
  · obtain ⟨hqueued, hpending⟩ := Bool.and_eq_true_iff.mp hlate
    rcases hrunning with hne | hrunning
    · exact absurd (of_decide_eq_true hpending) hne
    · cases hrunning.symm.trans hqueued

theorem answers_queue {y : Option Sample} (h : answers s y env = true) :
    env.flushed = true ∧ env.tries.length < inputTries ∧ env.accepted = true ∧
    ∀ output ∈ env.tries.flatten, output.eos = false := by
  rw [answers, Bool.and_assoc, Bool.and_assoc, Bool.and_assoc] at h
  obtain ⟨hflushed, h⟩ := Bool.and_eq_true_iff.mp h
  obtain ⟨hlength, h⟩ := Bool.and_eq_true_iff.mp h
  obtain ⟨haccepted, h⟩ := Bool.and_eq_true_iff.mp h
  refine ⟨hflushed, of_decide_eq_true hlength, haccepted, fun output hmem => ?_⟩
  simpa using all_eq_true.mp (Bool.and_eq_true_iff.mp h).1 output hmem

theorem Fates.collects {s' : Session L P} {handed : List P}
    (h : Fates s.produced s.ready handed s.discarded) (hcollects : Collects s s') :
    Fates s'.produced s'.ready handed s'.discarded := by
  obtain ⟨pictures, hready, hproduced⟩ := hcollects.pictures
  rw [hready, hproduced, hcollects.discarded]
  exact h.produce pictures

theorem inv_again (h : Inv b) (hphase : b.phase = .repeating x)
    (hanswers : answers b.session (some x) env = true) :
    Inv (b.decoded x (b.session.decode blank convert (some x) env)) := by
  obtain ⟨hpending, heosQueued, heosSeen⟩ := h.waiting x hphase
  have hcollects : Collects b.session (b.session.drain blank convert env.outputs) :=
    collects_drain _ _
  rw [decode_again hpending]
  refine inv_decoded ?_ (h.pictures.collects hcollects) h.late
    (fun _ => hcollects.discarded) h.repeats ?_ ?_ ?_
  · rw [hcollects.inputs]
    exact h.queued
  · exact hcollects.pending.trans hpending
  · exact hcollects.eosQueued.trans heosQueued
  · exact (eosSeen_drain (outputs_eos hanswers (.inr heosQueued))).trans heosSeen

theorem inv_present (h : Inv b) (hphase : b.phase = .idle)
    (hanswers : answers b.session (some x) env = true)
    (hfits : b.session.pending ≠ some (x.addr, x.len)) :
    Inv
      ({ b with presented := b.presented ++ [x] }.decoded x
         (b.session.decode blank convert (some x) env)) := by
  obtain ⟨hflushed, hlength, haccepted, htries⟩ := answers_queue hanswers
  obtain ⟨s₁, hrearm, hinputs₁, hproduced₁, hqueued₁, hseen₁, hpictures₁⟩ := rearm_flushed b.session
  obtain ⟨s₂, hqueue, hinputs₂, hdiscarded₂, hqueued₂, hseen₂, pictures, hready₂, hproduced₂⟩ :
      ∃ s₂, s₁.queue blank convert (.unit x.bytes x.pts) env.tries true = (s₂, true) ∧ _ :=
    queue_accepted hlength htries
  rw [decode_new hfits (by rw [hflushed, hrearm]) (by rw [haccepted, hqueue])]
  have hcollects : Collects { s₂ with pending := some (x.addr, x.len) }
      ({ s₂ with pending := some (x.addr, x.len) }.drain blank convert env.outputs) :=
        collects_drain _ _
  have hfates : Fates s₁.produced s₁.ready b.handed s₁.discarded := by
    rw [hproduced₁]
    rcases hpictures₁ with ⟨hready, hdiscarded⟩ | ⟨-, hready, hdiscarded⟩
    · rw [hready, hdiscarded]
      exact h.pictures
    · rw [hready, hdiscarded]
      exact h.pictures.discard
  have hfates₂ : Fates s₂.produced s₂.ready b.handed s₂.discarded := by
    rw [hproduced₂, hready₂, hdiscarded₂]
    exact hfates.produce pictures
  refine inv_decoded ?_
    (Fates.collects (s := { s₂ with pending := some (x.addr, x.len) }) hfates₂ hcollects)
    h.late (fun hdrained => ?_) h.repeats hcollects.pending ?_ ?_
  · rw [hcollects.inputs, hinputs₂, units_append_unit, hinputs₁, h.queued, map_append]
    rfl
  · -- without a drain there was nothing to rearm
    rw [hcollects.discarded, hdiscarded₂]
    rcases hpictures₁ with ⟨-, hdiscarded⟩ | ⟨heos, -, -⟩
    · exact hdiscarded
    · rcases h.eos heos with hdrained' | hdraining
      · cases hdrained.symm.trans hdrained'
      · cases hphase.symm.trans hdraining
  · exact hcollects.eosQueued.trans (hqueued₂.trans hqueued₁)
  · exact (eosSeen_drain (outputs_eos hanswers (.inl hfits))).trans (hseen₂.trans hseen₁)

theorem endStream_spec (hanswers : answers s none env = true) :
    ∃ pictures, (s.endStream blank convert env).ready = s.ready ++ pictures ∧
      (s.endStream blank convert env).produced = s.produced ++ pictures ∧
      (s.endStream blank convert env).discarded = s.discarded ∧
      units (s.endStream blank convert env).inputs = units s.inputs := by
  obtain ⟨-, hlength, haccepted, htries⟩ := answers_queue hanswers
  rw [Session.endStream]
  split_ifs
  · exact ⟨[], (append_nil _).symm, (append_nil _).symm, rfl, rfl⟩
  · exact ⟨[], (append_nil _).symm, (append_nil _).symm, rfl, rfl⟩
  · obtain ⟨s₁, hqueue, hinputs, hdiscarded, -, -, pictures, hready, hproduced⟩ :
        ∃ s₁, s.queue blank convert (.endOfStream s.lastPts) env.tries true = (s₁, true) ∧ _ :=
      queue_accepted hlength htries
    rw [haccepted, hqueue]
    exact ⟨pictures, hready, hproduced, hdiscarded, by rw [hinputs, units_append_endOfStream]⟩

theorem inv_flushed (h : Inv b) (hanswers : answers b.session none env = true) :
    Inv (b.flushed (b.session.flush blank convert env)) := by
  obtain ⟨pictures, hready, hproduced, hdiscarded, hunits⟩ :
      ∃ pictures, (b.session.endStream blank convert env).ready = b.session.ready ++ pictures ∧ _ :=
    endStream_spec hanswers
  have hcollects : Collects (b.session.endStream blank convert env)
      ((b.session.endStream blank convert env).await blank convert env.turns) := collects_await _ _
  have hended : Fates (b.session.endStream blank convert env).produced
    (b.session.endStream blank convert
      env).ready b.handed (b.session.endStream blank convert env).discarded := by
    rw [hready, hproduced, hdiscarded]
    exact h.pictures.produce pictures
  have hfates := hended.collects hcollects
  have hqueued := (congrArg units hcollects.inputs).trans (hunits.trans h.queued)
  rw [Session.flush]
  generalize (b.session.endStream blank convert env).await blank convert env.turns =
    s at hfates hqueued
  cases hs : s.ready with
  | nil =>
    rw [← append_nil b.handed] at hfates
    rw [hand_nil hs]
    exact ⟨hqueued, hfates, h.late, Nat.zero_le _, nofun, fun _ => .inl (Bool.or_true _), nofun⟩
  | cons picture ready =>
    rw [hs] at hfates
    rw [hand_cons hs]
    exact ⟨hqueued, hfates.hand, h.late, Nat.zero_le _, nofun, fun _ => .inr rfl, nofun⟩

theorem not_good_present (h : Inv b) (hfits : b.session.pending = some (x.addr, x.len)) :
    ¬ Good
        ({ b with presented := b.presented ++ [x] }.decoded x
           (b.session.decode blank convert (some x) env)) := by
  intro hgood
  have hinputs : (b.session.decode blank convert (some x) env).1.inputs = b.session.inputs := by
    have hcollects : Collects b.session (b.session.drain blank convert env.outputs) :=
      collects_drain _ _
    rw [decode_again hfits, ← hcollects.inputs]
    generalize b.session.drain blank convert env.outputs = s
    cases hready : s.ready with
    | nil => rw [report_nil hready]
    | cons picture ready =>
      cases ready with
      | nil => rw [report_one hready]
      | cons next ready => rw [report_more hready]
  have hqueued : units (b.session.decode blank convert (some x) env).1.inputs =
      (b.presented ++ [x]).map fun x => (x.bytes, x.pts) := hgood.queued
  rw [hinputs, h.queued] at hqueued
  have hlength := congrArg List.length hqueued
  simp at hlength

end Steps

section Runs
variable {L B P : Type} {blank : L → Bool} {convert : L → B → Option P}

theorem inv_step {b b' : Bridge L P} {a : Action L B} (h : Inv b) (hfits : Fits b a)
    (hstep : step blank convert b a = some b') : Inv b' := by
  cases a with
  | present x env =>
    rw [step] at hstep
    split at hstep
    · rename_i hphase
      split_ifs at hstep with hanswers
      cases hstep
      exact inv_present h hphase hanswers hfits
    · cases hstep
  | again env =>
    rw [step] at hstep
    split at hstep
    · rename_i x hphase
      split_ifs at hstep with hanswers
      cases hstep
      exact inv_again h hphase hanswers
    · cases hstep
  | flush env =>
    rw [step] at hstep
    split at hstep
    · cases hstep
    · split_ifs at hstep with hanswers
      cases hstep
      exact inv_flushed h hanswers

theorem not_good_step {b b' : Bridge L P} {a : Action L B} (h : Inv b) (hfits : ¬ Fits b a)
    (hstep : step blank convert b a = some b') : ¬ Good b' := by
  cases a with
  | present x env =>
    rw [step] at hstep
    split at hstep
    · split_ifs at hstep
      cases hstep
      exact not_good_present h (not_not.mp hfits)
    · cases hstep
  | again env => exact absurd trivial hfits
  | flush env => exact absurd trivial hfits

/-- **The bridge loses and repeats nothing** exactly if no new sample has the address and the length
of one that was never consumed. -/
theorem bridge_good_iff {layout : L} {actions : List (Action L B)} {b : Bridge L P}
    (hrun : run (step blank convert) (.start layout) actions = some b) :
    Always (step blank convert) Good (.start layout) actions ↔
      Along (step blank convert) Fits (.start layout) actions := by
  refine always_iff_along (J := Inv) (fun b h => h.good)
    (fun b a b' h hfits hs => inv_step h hfits hs)
    (fun b a b' h hfits hs => not_good_step h hfits hs) hrun ?_
  exact ⟨rfl, ⟨[], rfl, rfl, rfl⟩, rfl, le_rfl, nofun, nofun, nofun⟩

end Runs

def keyFrame : Sample := ⟨1, [40], 0, by decide, by decide⟩
def afterSeek : Sample := ⟨1, [38], 90, by decide, by decide⟩
def elsewhere : Sample := ⟨2, [38], 90, by decide, by decide⟩

def playback : List (Action Nat Nat) :=
  [.present keyFrame { outputs := [.formatChanged (some 1), .buffer (some 7) false none,
     .buffer (some 8) false none] },
   .again {}, .flush { turns := [[], [.buffer (some 9) true none]] }, .flush {},
     .present elsewhere {}]

abbrev numbers : Bridge Nat Nat → Action Nat Nat → Option (Bridge Nat Nat) :=
  step (· == 0) fun _ buffer => some buffer

theorem bridge_good_playback : Always numbers Good (.start 0) playback := by
  refine (bridge_good_iff rfl).mpr ?_
  refine along_cons nofun rfl ?_
  iterate 3 refine along_cons trivial rfl ?_
  exact along_cons nofun rfl trivial

def seek : List (Action Nat Nat) :=
  [.present keyFrame { outputs := [.formatChanged (some 1), .buffer (some 7) false none,
     .buffer (some 8) false none] },
   .flush {}, .flush { turns := [[.buffer none true none]] }, .present afterSeek {}]

theorem sample_skipped :
    ∃ b, run numbers (.start 0) seek = some b ∧ ¬ Good b ∧ b.presented = [keyFrame, afterSeek] ∧
      units b.session.inputs = [([40], 0)] ∧ b.phase = .idle ∧ b.session.eosSeen = true := by
  refine ⟨_, rfl, fun hgood => ?_, rfl, rfl, rfl, rfl⟩
  exact absurd hgood.queued (by decide)

end OniroSoc.Codec

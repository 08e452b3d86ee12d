import OniroSoc.Camera.Device

/-!
# Who has an Android object

At any time an object of the camera library is in one place: the device in its field or in the hands
of a thread, the objects of the operator in its guarded fields, and what was taken out of them in
the programs that close it.
-/

namespace OniroSoc.Camera.Device
open List Option
open Support Support.Handles

/-! ### Who has an object -/

def own (o : Option Object) : Multiset Object := (o.toList : Multiset Object)

@[simp] theorem own_none : own none = 0 := rfl

@[simp] theorem own_some (o : Object) : own (some o) = {o} := rfl

def Stream.owns (stream : Stream) : Multiset Object :=
  {stream.reader} + own stream.output + own stream.target +
    (stream.lensReaders.map (·.reader) : Multiset Object)

def ownedBy (streams : List Stream) : Multiset Object := (streams.map Stream.owns).sum

@[simp] theorem ownedBy_nil : ownedBy [] = 0 := rfl

@[simp] theorem ownedBy_cons (stream : Stream) (streams : List Stream) :
    ownedBy (stream :: streams) = stream.owns + ownedBy streams := by simp [ownedBy]

@[simp] theorem ownedBy_append (streams streams' : List Stream) :
    ownedBy (streams ++ streams') = ownedBy streams + ownedBy streams' := by simp [ownedBy]

def Guarded.owns (g : Guarded) : Multiset Object :=
  own g.session + own g.repeatingRequest + own g.outputs + ownedBy g.streams

theorem ownedBy_map {f : Stream → Stream} (hf : ∀ stream, (f stream).owns = stream.owns)
    (streams : List Stream) : ownedBy (streams.map f) = ownedBy streams := by
  rw [ownedBy, ownedBy, List.map_map]
  exact congrArg List.sum (map_congr_left fun stream _ => hf stream)

namespace Guarded
variable (g : Guarded)

@[simp] theorem owns_mark (captureId : Int) (streamIds : List Int) (streaming : Bool) :
    (g.mark captureId streamIds streaming).owns = g.owns := by
  rw [owns, owns, mark, ownedBy_map]
  intro stream
  split_ifs <;> rfl

@[simp] theorem owns_unmark (captureId : Int) : (g.unmark captureId).owns = g.owns := by
  rw [owns, owns, unmark, ownedBy_map]
  intro stream
  split_ifs <;> rfl

variable {g} {o : Object}

theorem mem_owns_of_target {stream : Stream} (hstream : stream ∈ g.streams)
    (ho : stream.target = some o) : o ∈ g.owns := by
  have hmem : o ∈ ownedBy g.streams := by
    refine Multiset.mem_of_le (single_le_sum (by simp) _ (List.mem_map_of_mem hstream)) ?_
    simp [Stream.owns, ho]
  exact Multiset.mem_add.mpr (.inr hmem)

theorem mem_owns_of_targets (ho : o ∈ g.targets) : o ∈ g.owns := by
  obtain ⟨stream, hstream, ho⟩ := mem_filterMap.mp ho
  exact mem_owns_of_target (mem_filter.mp hstream).1 ho

theorem mem_owns_of_targetsOf {streamIds : List Int} {targets : List Object}
    (h : g.targetsOf streamIds = some targets) (ho : o ∈ targets) : o ∈ g.owns := by
  induction streamIds generalizing targets with
  | nil =>
    cases h
    cases ho
  | cons id ids ih =>
    rw [targetsOf, mapM_cons] at h
    obtain ⟨target, htarget, h⟩ := bind_eq_some_iff.mp h
    obtain ⟨later, hlater, h⟩ := bind_eq_some_iff.mp h
    obtain rfl := Option.some.inj h
    rcases mem_cons.mp ho with rfl | ho
    · obtain ⟨stream, hfind, ho⟩ := bind_eq_some_iff.mp htarget
      exact mem_owns_of_target (mem_of_find?_eq_some hfind) ho
    · exact ih hlater ho

theorem mem_owns_of_session (ho : g.session = some o) : o ∈ g.owns := by
  simp [owns, ho]

theorem mem_owns_of_outputs (ho : g.outputs = some o) : o ∈ g.owns := by
  simp [owns, ho]

end Guarded

namespace Instr

/-- The guarded fields, when the thread holds `lock_`. -/
def guards : Instr → Option Guarded
  | .createNext g _ | .getWindow g _ _ _ | .createContainer g _ | .sessionDevice g _
  | .createSession g _ _ | .repeatLocked g _ | .createRepeating g _ _ | .setRepeating g _ _
  | .createStill g _ _ _ _ | .shoot g _ => some g
  | .buildStream b left => some (b.guarded left)
  | .createOutput b stream left | .createTarget b stream left => some (b.guarded (stream :: left))
  | _ => none

/-- The objects that only this instruction knows. -/
def owns : Instr → Multiset Object
  | .getWindow _ o _ _ | .setRepeating _ o _ | .shoot _ o | .stopAndClose o | .unlisten o
  | .free o => {o}
  | .publish device _ _ | .shutdown device => own device
  | _ => 0

end Instr

/-- How far the holder of `switchLock_` is. -/
inductive Phase where
  | held
  | torn
  | opening
  | building

def Phase.Holds (device : Option Object) (g : Guarded) : Phase → Prop
  | .held => True
  | .torn => g.session = none ∧ g.outputs = none
  | .opening => (g.session = none ∧ g.outputs = none) ∧ device = none
  | .building => g.session = none ∧ g.outputs.isSome

namespace Instr

def phase : Instr → Option Phase
  | .commitSwap | .settingsSwap | .submitCapture _ _ _ | .createStill _ _ _ _ _ | .shoot _ _
  | .repeatLocked _ true | .createRepeating _ _ true | .setRepeating _ _ true | .unlockSwitch =>
    some .held
  | .commitLens _ | .switchLens _ _ | .rebuild _ | .createContainer _ _ => some .torn
  | .openCamera _ _ _ | .reopen _ _ | .publish _ _ _ => some .opening
  | .buildStream _ _ | .createOutput _ _ _ | .createTarget _ _ _ | .sessionDevice _ _
  | .createSession _ _ _ => some .building
  | _ => none

def switches (i : Instr) : Bool := i.phase.isSome

/-- The device that was read and is still to be used. -/
def reads : Instr → Option Object
  | .createSession _ device _ | .createRepeating _ device _ | .createStill _ device _ _ _ => device
  | _ => none

/-- What the calls are made on is there, and what they create is not. -/
def Supplied : Instr → Prop
  | .createOutput _ stream _ => stream.output = none ∧ stream.target = none
  | .createTarget _ stream _ => stream.target = none
  | .createSession _ device _ => device.isSome
  | .createRepeating g device _ => device.isSome ∧ g.session.isSome
  | .createStill g device _ _ targets =>
    device.isSome ∧ g.session.isSome ∧ ∀ o ∈ targets, o ∈ g.owns
  | .setRepeating g _ _ | .shoot g _ => g.session.isSome
  | _ => True

def fills : Instr → Bool
  | .createNext _ _ | .repeatLocked _ _ => false
  | i => i.guards.isSome

/-- The session to be stopped though the thread does not own it. -/
def stops : Instr → Option Object
  | .stopRepeating session => some session
  | _ => none

def closes : Instr → Option Object
  | .stopAndClose o | .free o => some o
  | _ => none

def shuts : Instr → Option (Option Object)
  | .shutdown device => some device
  | _ => none

end Instr

/-- The guarded fields, in their place or with the holder of `lock_`. -/
def guardeds (s : Device) (work : List Instr) : List Guarded :=
  s.op.toList ++ work.filterMap Instr.guards

def ownedIn (work : List Instr) : Multiset Object := (work.map Instr.owns).sum

@[simp] theorem ownedIn_nil : ownedIn [] = 0 := rfl

@[simp] theorem ownedIn_cons (i : Instr) (work : List Instr) :
    ownedIn (i :: work) = i.owns + ownedIn work := by simp [ownedIn]

@[simp] theorem ownedIn_append (work work' : List Instr) :
    ownedIn (work ++ work') = ownedIn work + ownedIn work' := by simp [ownedIn]

/-- The invariant; `g` are the guarded fields. -/
structure Kept (s : Device) (work : List Instr) (g : Guarded) : Prop where
  guarded : guardeds s work = [g]
  owned : Owns s.ndk (own s.device + g.owns + ownedIn work)
  switch : work.countP Instr.switches = s.switchLock.toNat
  supplied : ∀ i ∈ work, i.Supplied
  phase : ∀ i ∈ work, ∀ p ∈ i.phase, p.Holds s.device g
  reads : ∀ i ∈ work, ∀ d ∈ i.reads, s.device = some d ∨ ∃ j ∈ work, some d ∈ j.shuts
  stops : ∀ i ∈ work, ∀ x ∈ i.stops, g.session = some x ∨ ∃ j ∈ work, x ∈ j.closes
  shut : s.shut = true → g = {} ∧ s.streamOperator = false ∧ ∀ i ∈ work, i.fills = false
  closing : s.streamOperator = false → s.device = none ∧
    (s.shut = true ∨ ∃ i ∈ work, i.shuts.isSome)
  shutting : ∀ i ∈ work, i.shuts.isSome → s.streamOperator = false

/-! ### What the views say about each other -/

namespace Instr
variable {i : Instr}

/-- An instruction that does not carry the guarded fields reads no device, fills nothing and builds
nothing. -/
theorem of_unguarded (h : i.guards = none) :
    i.reads = none ∧ i.fills = false ∧ .building ∉ i.phase := by
  cases i <;> first | cases h; done | exact ⟨rfl, rfl, by simp [phase]⟩

theorem switches_or_session {d : Object} (h : d ∈ i.reads) (hi : i.Supplied) :
    i.switches = true ∨ ∃ g, i.guards = some g ∧ g.session.isSome := by
  cases i with
  | createSession g device again => exact .inl rfl
  | createRepeating g device switch => exact .inr ⟨g, rfl, hi.2⟩
  | createStill g device captureId streamIds targets => exact .inl rfl
  | _ => cases h

end Instr

section Views
variable {s : Device} {work work' rest todo : List Instr} {i j : Instr} {g g₀ : Guarded}

theorem Kept.perm (h : Kept s work g) (hperm : work.Perm work') : Kept s work' g := by
  have hmem : ∀ i, i ∈ work' ↔ i ∈ work := fun i => hperm.mem_iff.symm
  refine ⟨?_, ?_, ?_, ?_, ?_, ?_, ?_, ?_, ?_, ?_⟩
  · have hg : (guardeds s work).Perm (guardeds s work') := (hperm.filterMap _).append_left _
    rw [h.guarded] at hg
    exact (singleton_perm.mp hg).symm
  · exact h.owned.congr (by rw [ownedIn, ownedIn, (hperm.map _).sum_eq])
  · rw [← hperm.countP_eq]
    exact h.switch
  all_goals simp only [hmem]
  · exact h.supplied
  · exact h.phase
  · exact h.reads
  · exact h.stops
  · exact h.shut
  · exact h.closing
  · exact h.shutting

theorem Kept.alone (h : Kept s (i :: rest) g) (hi : i.switches = true) (hj : j ∈ rest) :
    j.phase = none :=
  not_isSome_iff_eq_none.mp (Bool.eq_false_iff.mp ((Machine.alone_of_countP h.switch hi).2 j hj))

theorem Kept.unguarded (h : Kept s (i :: rest) g) (hg : guardeds s [i] = [g₀]) :
    g = g₀ ∧ rest.filterMap Instr.guards = [] := by
  have hall : guardeds s [i] ++ rest.filterMap Instr.guards = [g] := by
    rw [← h.guarded, guardeds, guardeds, append_assoc, ← filterMap_append]
    rfl
  rw [hg] at hall
  obtain ⟨rfl, hrest⟩ := List.cons.inj hall
  exact ⟨rfl, hrest⟩

theorem guards_eq_none (h : rest.filterMap Instr.guards = []) (hj : j ∈ rest) : j.guards = none :=
  filterMap_eq_nil_iff.mp h j hj

/-- What a pending instruction promised is still pending after `i` ran, if `i` passes its own
promise on. -/
theorem exists_later {P : Instr → Prop} (hi : P i → ∃ j ∈ todo, P j) (h : ∃ j ∈ i :: rest, P j) :
    ∃ j ∈ todo ++ rest, P j := by
  obtain ⟨j, hj, hP⟩ := h
  rcases mem_cons.mp hj with rfl | hj
  · obtain ⟨k, hk, hP⟩ := hi hP
    exact ⟨k, mem_append_left _ hk, hP⟩
  · exact ⟨j, mem_append_right _ hj, hP⟩

end Views

/-! ### What a step has to show -/

/-- A step by a thread that has the guarded fields `g` or takes them, and leaves `g'`. -/
structure Exchange (s : Device) (i : Instr) (rest : List Instr) (g : Guarded) (s' : Device)
    (todo : List Instr) (g' : Guarded) : Prop where
  before : guardeds s [i] = [g]
  after : guardeds s' todo = [g']
  device : s'.device = s.device
  lock : s'.switchLock = s.switchLock
  operator : s'.streamOperator = s.streamOperator
  switch : todo.countP Instr.switches = [i].countP Instr.switches
  owned : Owns s'.ndk (own s.device + g'.owns + (ownedIn todo + ownedIn rest))
  supplied : ∀ j ∈ todo, j.Supplied
  phase : ∀ j ∈ todo, ∀ p ∈ j.phase, p.Holds s.device g'
  reads : ∀ j ∈ todo, ∀ d ∈ j.reads, s.device = some d
  torn : i.switches = true ∨
    (g.session = none → g.outputs = none → g'.session = none ∧ g'.outputs = none)
  session : ∀ x, g.session = some x → g'.session = some x ∨ ∃ j ∈ todo, x ∈ j.closes
  stops : ∀ j ∈ todo, ∀ x ∈ j.stops, g'.session = some x
  closes : i.closes = none
  shut : s'.shut = true → g' = {} ∧ s.streamOperator = false ∧ ∀ j ∈ todo, j.fills = false
  shuts : s.shut = true ∨ i.shuts.isSome → s'.shut = true
  shutting : ∀ j ∈ todo, j.shuts = none

section Steps
variable {s s' : Device} {rest todo : List Instr} {i j : Instr} {g g' : Guarded}

theorem Kept.exchange (h : Kept s (i :: rest) g) (e : Exchange s i rest g s' todo g') :
    Kept s' (todo ++ rest) g' := by
  obtain ⟨-, hrest⟩ := h.unguarded e.before
  -- the fields are with `i` alone, so what waits behind it neither reads a device nor fills or builds
  have hnone := fun j hj => Instr.of_unguarded (guards_eq_none hrest (j := j) hj)
  refine ⟨?_, ?_, ?_, ?_, ?_, ?_, ?_, ?_, ?_, ?_⟩
  · rw [guardeds, filterMap_append, hrest, append_nil, ← guardeds, e.after]
  · rw [e.device, ownedIn_append]
    exact e.owned
  · rw [countP_append, e.switch, ← countP_append, e.lock]
    exact h.switch
  · exact forall_mem_append.mpr ⟨e.supplied, fun j hj => h.supplied j (.tail _ hj)⟩
  · rw [e.device]
    refine forall_mem_append.mpr ⟨e.phase, fun j hj p hp => ?_⟩
    rcases e.torn with hi | htorn
    · rw [h.alone hi hj] at hp
      cases hp
    · have hold := h.phase j (.tail _ hj) p hp
      cases p with
      | held => trivial
      | torn => exact htorn hold.1 hold.2
      | opening => exact ⟨htorn hold.1.1 hold.1.2, hold.2⟩
      | building => exact absurd hp (hnone j hj).2.2
  · refine forall_mem_append.mpr
      ⟨fun j hj d hd => .inl (e.device ▸ e.reads j hj d hd), fun j hj d hd => ?_⟩
    rw [(hnone j hj).1] at hd
    cases hd
  · refine forall_mem_append.mpr ⟨fun j hj x hx => .inl (e.stops j hj x hx), fun j hj x hx => ?_⟩
    rcases h.stops j (.tail _ hj) x hx with hsession | hcloses
    · refine (e.session x hsession).imp_right ?_
      rintro ⟨k, hk, hcloses⟩
      exact ⟨k, mem_append_left _ hk, hcloses⟩
    · exact .inr (exists_later (by simp [e.closes]) hcloses)
  · intro hshut
    obtain ⟨hempty, hoperator, hfills⟩ := e.shut hshut
    exact ⟨hempty, e.operator.trans hoperator,
      forall_mem_append.mpr ⟨hfills, fun j hj => (hnone j hj).2.1⟩⟩
  · intro hclosed
    obtain ⟨hdevice, hshut | hshuts⟩ := h.closing (e.operator ▸ hclosed)
    · exact ⟨e.device.trans hdevice, .inl (e.shuts (.inl hshut))⟩
    · refine ⟨e.device.trans hdevice, ?_⟩
      by_cases hi : i.shuts.isSome
      · exact .inl (e.shuts (.inr hi))
      · exact .inr (exists_later (fun h => absurd h hi) hshuts)
  · rw [e.operator]
    refine forall_mem_append.mpr ⟨fun j hj hshuts => ?_, fun j hj => h.shutting j (.tail _ hj)⟩
    rw [e.shutting j hj] at hshuts
    cases hshuts

/-- A step that does not touch the guarded fields. -/
structure Aside (s : Device) (i : Instr) (rest : List Instr) (g : Guarded) (s' : Device)
    (todo : List Instr) : Prop where
  op : s'.op = s.op
  shut : s'.shut = s.shut
  outside : i.guards = none ∧ ∀ j ∈ todo, j.guards = none
  switch : todo.countP Instr.switches + s.switchLock.toNat = s'.switchLock.toNat +
    [i].countP Instr.switches
  owned : Owns s'.ndk (own s'.device + g.owns + (ownedIn todo + ownedIn rest))
  supplied : ∀ j ∈ todo, j.Supplied
  phase : ∀ j ∈ todo, ∀ p ∈ j.phase, p.Holds s'.device g
  device : s'.device = s.device ∨ s'.device = none ∧
    (∀ d ∈ s.device, ∃ j ∈ todo, some d ∈ j.shuts) ∨ .torn ∈ i.phase ∨ .opening ∈ i.phase
  stops : ∀ j ∈ todo, j.stops = none
  closes : ∀ x ∈ i.closes, (∃ j ∈ todo, x ∈ j.closes) ∨ ∀ j ∈ rest, j.stops ≠ some x
  shuts : i.shuts = none
  closing : s'.streamOperator = false → (s.streamOperator = false → s.device = none) →
    s'.device = none ∧ (s.streamOperator = false ∨ ∃ j ∈ todo, j.shuts.isSome)
  operator : s.streamOperator = false → s'.streamOperator = false
  shutting : ∀ j ∈ todo, j.shuts.isSome → s'.streamOperator = false

theorem Kept.guards_eq {work : List Instr} (h : Kept s work g) (hj : j ∈ work)
    (hg : j.guards = some g') : g' = g := by
  have hmem : g' ∈ guardeds s work := mem_append_right _ (mem_filterMap.mpr ⟨j, hj, hg⟩)
  rw [h.guarded] at hmem
  exact mem_singleton.mp hmem

theorem Kept.not_reads (h : Kept s (i :: rest) g) (hi : i.switches = true)
    (hsession : g.session = none) (hj : j ∈ rest) : j.reads = none := by
  refine eq_none_iff_forall_not_mem.mpr fun d hd => ?_
  have hj' := mem_cons_of_mem i hj
  rcases Instr.switches_or_session hd (h.supplied j hj') with hswitch | ⟨g', hg', hsome⟩
  · rw [Instr.switches, h.alone hi hj] at hswitch
    cases hswitch
  · rw [h.guards_eq hj' hg', hsession] at hsome
    cases hsome

theorem Phase.Holds.of_none {p : Phase} {device : Option Object} (h : p.Holds device g) :
    p.Holds none g := by
  cases p with
  | held => trivial
  | torn => exact h
  | opening => exact ⟨h.1, rfl⟩
  | building => exact h

theorem Kept.aside (h : Kept s (i :: rest) g) (e : Aside s i rest g s' todo) :
    Kept s' (todo ++ rest) g := by
  have hnone := fun j hj => Instr.of_unguarded (e.outside.2 j hj)
  refine ⟨?_, ?_, ?_, ?_, ?_, ?_, ?_, ?_, ?_, ?_⟩
  · have htodo : todo.filterMap Instr.guards = [] := filterMap_eq_nil_iff.mpr e.outside.2
    rw [guardeds, e.op, filterMap_append, htodo, nil_append, ← h.guarded, guardeds,
      filterMap_cons_none e.outside.1]
  · exact e.owned.congr (by rw [ownedIn_append])
  · have hcount := h.switch
    have hswitch := e.switch
    rw [← singleton_append, countP_append] at hcount
    rw [countP_append]
    omega
  · exact forall_mem_append.mpr ⟨e.supplied, fun j hj => h.supplied j (.tail _ hj)⟩
  · refine forall_mem_append.mpr ⟨e.phase, fun j hj p hp => ?_⟩
    have hold := h.phase j (.tail _ hj) p hp
    rcases e.device with hdevice | ⟨hdevice, -⟩ | hi
    · rw [hdevice]
      exact hold
    · rw [hdevice]
      exact hold.of_none
    · have hi : i.switches = true := by rcases hi with hi | hi <;> exact isSome_of_mem hi
      rw [h.alone hi hj] at hp
      cases hp
  · refine forall_mem_append.mpr ⟨fun j hj d hd => ?_, fun j hj d hd => ?_⟩
    · rw [(hnone j hj).1] at hd
      cases hd
    rcases h.reads j (.tail _ hj) d hd with hold | hshuts
    · rcases e.device with hdevice | ⟨-, htaken⟩ | hi
      · exact .inl (hdevice.trans hold)
      · obtain ⟨k, hk, hshuts⟩ := htaken d hold
        exact .inr ⟨k, mem_append_left _ hk, hshuts⟩
      · have hsession : i.switches = true ∧ g.session = none := by
          rcases hi with hi | hi
          · exact ⟨isSome_of_mem hi, (h.phase i (.head _) _ hi).1⟩
          · exact ⟨isSome_of_mem hi, (h.phase i (.head _) _ hi).1.1⟩
        rw [h.not_reads hsession.1 hsession.2 hj] at hd
        cases hd
    · exact .inr (exists_later (by simp [e.shuts]) hshuts)
  · refine forall_mem_append.mpr ⟨fun j hj x hx => ?_, fun j hj x hx => ?_⟩
    · rw [e.stops j hj] at hx
      cases hx
    · refine (h.stops j (.tail _ hj) x hx).imp_right (exists_later fun hcloses => ?_)
      exact (e.closes x hcloses).resolve_right fun hnone => hnone j hj hx
  · intro hshut
    obtain ⟨hempty, hoperator, hfills⟩ := h.shut (e.shut ▸ hshut)
    exact ⟨hempty, e.operator hoperator, forall_mem_append.mpr
      ⟨fun j hj => (hnone j hj).2.1, fun j hj => hfills j (.tail _ hj)⟩⟩
  · intro hclosed
    obtain ⟨hdevice, hclosed | ⟨k, hk, hshuts⟩⟩ := e.closing hclosed fun h' => (h.closing h').1
    · refine ⟨hdevice, ?_⟩
      rcases (h.closing hclosed).2 with hshut | hshuts
      · exact .inl (e.shut.trans hshut)
      · exact .inr (exists_later (by simp [e.shuts]) hshuts)
    · exact ⟨hdevice, .inr ⟨k, mem_append_left _ hk, hshuts⟩⟩
  · exact forall_mem_append.mpr
      ⟨e.shutting, fun j hj hshuts => e.operator (h.shutting j (.tail _ hj) hshuts)⟩

theorem guardeds_of_op (hop : s.op = some g) (hi : i.guards = none) : guardeds s [i] = [g] := by
  rw [guardeds, hop, filterMap_cons_none hi]
  rfl

theorem Kept.op_none (h : Kept s (i :: rest) g) (hi : i.guards = some g) : s.op = none := by
  have hg := h.guarded
  rw [guardeds, filterMap_cons_some hi] at hg
  cases hop : s.op with
  | none => rfl
  | some g₀ => simp [hop] at hg

theorem Kept.guardeds_of_guards (h : Kept s (i :: rest) g) (hi : i.guards = some g) :
    guardeds s [i] = [g] := by
  rw [guardeds, filterMap_cons_some hi, h.op_none hi]
  rfl

theorem Kept.not_shut (h : Kept s (i :: rest) g) (hi : i.fills = true) : ¬ s.shut = true := by
  intro hshut
  have hfills := (h.shut hshut).2.2 i (.head _)
  rw [hi] at hfills
  cases hfills

theorem Instr.of_guards (h : i.guards = some g) :
    i.closes = none ∧ i.stops = none ∧ i.shuts = none := by
  cases i <;> first | exact ⟨rfl, rfl, rfl⟩ | cases h

variable {ndk : Handles Kind}

/-- `i` gives the fields on as `g'`: to the operator, or to an instruction of `todo`. -/
theorem Kept.hand {op : Option Guarded} (h : Kept s (i :: rest) g) (hg : guardeds s [i] = [g])
    (hi : i.closes = none ∧ i.shuts = none) (hafter : guardeds { s with ndk, op } todo = [g'])
    (hswitch : todo.countP Instr.switches = [i].countP Instr.switches)
    (howned : Owns ndk (own s.device + g'.owns + (ownedIn todo + ownedIn rest)))
    (htodo : ∀ j ∈ todo, j.Supplied ∧ j.stops = none ∧ j.shuts = none)
    (hphase : ∀ j ∈ todo, ∀ p ∈ j.phase, p.Holds s.device g')
    (hreads : ∀ j ∈ todo, ∀ d ∈ j.reads, s.device = some d)
    (htorn : i.switches = true ∨ (g'.session = g.session ∧ g'.outputs = g.outputs))
    (hsession : ∀ x, g.session = some x → g'.session = some x)
    (hshut : s.shut = true → g' = {} ∧ ∀ j ∈ todo, j.fills = false) :
    Kept { s with ndk, op } (todo ++ rest) g' := by
  refine h.exchange ⟨hg, hafter, rfl, rfl, rfl, hswitch, howned, fun j hj => (htodo j hj).1, hphase,
    hreads, ?_, fun x hx => .inl (hsession x hx), ?_, hi.1, ?_, ?_, fun j hj => (htodo j hj).2.2⟩
  case refine_1 =>
    refine htorn.imp_right fun heq hs ho => ?_
    rw [heq.1, heq.2]
    exact ⟨hs, ho⟩
  case refine_2 =>
    intro j hj x hx
    rw [(htodo j hj).2.1] at hx
    cases hx
  case refine_3 => exact fun hs => ⟨(hshut hs).1, (h.shut hs).2.1, (hshut hs).2⟩
  case refine_4 => exact fun hs => hs.resolve_right (by simp [hi.2])

theorem Kept.carry {op : Option Guarded} (h : Kept s (i :: rest) g) (hg : guardeds s [i] = [g])
    (hi : i.closes = none ∧ i.shuts = none) (hop : op = none) (hj : j.guards = some g')
    (hswitch : j.switches = i.switches)
    (howned : Owns ndk (own s.device + g'.owns + (j.owns + ownedIn rest)))
    (hsupplied : j.Supplied) (hphase : ∀ p ∈ j.phase, p.Holds s.device g')
    (hreads : ∀ d ∈ j.reads, s.device = some d)
    (htorn : i.switches = true ∨ (g'.session = g.session ∧ g'.outputs = g.outputs))
    (hsession : ∀ x, g.session = some x → g'.session = some x)
    (hshut : s.shut = true → g' = {} ∧ j.fills = false) :
    Kept { s with ndk, op } (j :: rest) g' := by
  subst hop
  obtain ⟨-, hstops, hshuts⟩ := Instr.of_guards hj
  show Kept _ ([j] ++ rest) g'
  refine h.hand hg hi ?_ ?_ (howned.congr (by simp)) ?_ ?_ ?_ htorn hsession ?_
  · rw [guardeds, filterMap_cons_some hj]
    rfl
  · rw [countP_singleton, countP_singleton, hswitch]
  · simpa using ⟨hsupplied, hstops, hshuts⟩
  · simpa using hphase
  · simpa using hreads
  · simpa using hshut

theorem Kept.proceed {ndk : Handles Kind} (h : Kept s (i :: rest) g) (hopen : ¬ s.shut = true)
    (hi : i.guards = some g) (hj : j.guards = some g') (hswitch : j.switches = i.switches)
    (howned : Owns ndk (own s.device + g'.owns + (j.owns + ownedIn rest)))
    (hsupplied : j.Supplied) (hphase : ∀ p ∈ j.phase, p.Holds s.device g')
    (hreads : ∀ d ∈ j.reads, s.device = some d)
    (hsame : g'.session = g.session ∧ (i.switches = true ∨ g'.outputs = g.outputs)) :
    Kept { s with ndk } (j :: rest) g' := by
  obtain ⟨hcloses, -, hshuts⟩ := Instr.of_guards hi
  refine h.carry (h.guardeds_of_guards hi) ⟨hcloses, hshuts⟩
    (h.op_none hi) hj hswitch howned hsupplied
    hphase hreads (hsame.2.imp_right fun ho => ⟨hsame.1, ho⟩) (fun x hx => hsame.1.trans hx) ?_
  exact fun hs => absurd hs hopen

variable {switch : Bool}

theorem Kept.leave (h : Kept s (i :: rest) g) (hg : guardeds s [i] = [g])
    (hi : i.closes = none ∧ i.shuts = none) (hswitch : i.switches = switch)
    (howned : Owns ndk (own s.device + g'.owns + ownedIn rest))
    (htorn : i.switches = true ∨ (g'.session = g.session ∧ g'.outputs = g.outputs))
    (hsession : ∀ x, g.session = some x → g'.session = some x)
    (hshut : s.shut = true → g' = {}) :
    Kept { s with ndk, op := some g' } ((if switch then [.unlockSwitch] else []) ++ rest) g' := by
  -- releasing the lock of the switch supplies, reads and fills nothing
  have hmem : ∀ j ∈ (if switch then [.unlockSwitch] else []), j = Instr.unlockSwitch := by
    cases switch <;> simp
  refine h.hand hg hi ?_ ?_ ?_ ?_ ?_ ?_ htorn hsession fun hs =>
    ⟨hshut hs, fun j hj => hmem j hj ▸ rfl⟩
  · cases switch <;> rfl
  · rw [countP_singleton, hswitch]
    cases switch <;> rfl
  · exact howned.congr (by cases switch <;> simp [Instr.owns])
  · exact fun j hj => hmem j hj ▸ ⟨trivial, rfl, rfl⟩
  · intro j hj p hp
    cases hmem j hj
    cases hp
    trivial
  · intro j hj d hd
    cases hmem j hj
    cases hd

theorem Kept.leave_same (h : Kept s (i :: rest) g) (hg : guardeds s [i] = [g])
    (hi : i.closes = none ∧ i.shuts = none) (hswitch : i.switches = switch)
    (howned : Owns ndk (own s.device + g.owns + ownedIn rest)) :
    Kept { s with ndk, op := some g } ((if switch then [.unlockSwitch] else []) ++ rest) g :=
  h.leave hg hi hswitch howned (.inr ⟨rfl, rfl⟩) (fun _ hx => hx) fun hs => (h.shut hs).1

theorem Kept.leave_unchanged (h : Kept s (i :: rest) g) (hg : guardeds s [i] = [g])
    (hi : i.closes = none ∧ i.shuts = none) (hswitch : i.switches = switch) (howns : i.owns = 0) :
    Kept { s with op := some g } ((if switch then [.unlockSwitch] else []) ++ rest) g :=
  h.leave_same hg hi hswitch (h.owned.congr (by rw [ownedIn_cons, howns, zero_add]))

theorem mem_ownedIn {work : List Instr} {o : Object} (hj : j ∈ work) (ho : o ∈ j.owns) :
    o ∈ ownedIn work := by
  induction work with
  | nil => cases hj
  | cons k work ih =>
    rw [ownedIn_cons, Multiset.mem_add]
    rcases mem_cons.mp hj with rfl | hj
    · exact .inl ho
    · exact .inr (ih hj)

theorem Kept.mem_of_reads {d : Object} (h : Kept s (i :: rest) g) (hd : d ∈ i.reads) :
    d ∈ own s.device + g.owns + ownedIn (i :: rest) := by
  rw [Multiset.mem_add, Multiset.mem_add]
  rcases h.reads i (.head _) d hd with hdevice | ⟨j, hj, hshuts⟩
  · rw [hdevice]
    exact .inl (.inl (Multiset.mem_singleton_self d))
  · refine .inr (mem_ownedIn hj ?_)
    cases j <;> cases hshuts
    exact Multiset.mem_singleton_self d

theorem Kept.mem_of_stops {x : Object} (h : Kept s (i :: rest) g) (hx : x ∈ i.stops) :
    x ∈ own s.device + g.owns + ownedIn (i :: rest) := by
  rw [Multiset.mem_add, Multiset.mem_add]
  rcases h.stops i (.head _) x hx with hsession | ⟨j, hj, hcloses⟩
  · refine .inl (.inr ?_)
    simp [Guarded.owns, hsession]
  · refine .inr (mem_ownedIn hj ?_)
    cases j <;> cases hcloses <;> exact Multiset.mem_singleton_self _

end Steps

/-! ### The forms of a step that closes something, and of a call -/

def Instr.plain : Instr → Bool
  | .stopAndClose _ | .unlisten _ | .free _ => true
  | _ => false

theorem Instr.of_plain {i : Instr} (h : i.plain = true) :
    i.guards = none ∧ i.phase = none ∧ i.Supplied ∧ i.stops = none ∧ i.shuts = none := by
  cases i <;> first | exact ⟨rfl, rfl, trivial, rfl, rfl⟩ | cases h

section Forms
variable {s : Device} {i j : Instr} {rest todo closing last : List Instr} {g g' : Guarded}

theorem Kept.within {shut : Bool} (h : Kept s (i :: rest) g) (hop : s.op = some g)
    (hi : i.guards = none ∧ i.closes = none) (hclosing : ∀ j ∈ closing, j.plain = true)
    (hlast : ∀ j ∈ last, j.guards = none ∧ j.Supplied ∧ j.shuts = none)
    (hstops : ∀ j ∈ last, ∀ x ∈ j.stops, g'.session = some x)
    (hswitch : last.countP Instr.switches = [i].countP Instr.switches)
    (howned : Owns s.ndk (own s.device + g'.owns + (ownedIn closing + ownedIn last + ownedIn rest)))
    (hphase : ∀ j ∈ last, ∀ p ∈ j.phase, p.Holds s.device g')
    (htorn : g.session = none → g.outputs = none → g'.session = none ∧ g'.outputs = none)
    (hsession : ∀ x, g.session = some x → g'.session = some x ∨ .stopAndClose x ∈ closing)
    (hshut : shut = true → g' = {} ∧ s.streamOperator = false)
    (hshuts : s.shut = true ∨ i.shuts.isSome → shut = true) :
    Kept { s with op := some g', shut } (closing ++ last ++ rest) g' := by
  have hall : ∀ j ∈ closing ++ last, j.guards = none ∧ j.Supplied ∧ j.shuts = none := by
    intro j hj
    rcases mem_append.mp hj with hj | hj
    · obtain ⟨hguards, -, hsupplied, -, hshuts⟩ := Instr.of_plain (hclosing j hj)
      exact ⟨hguards, hsupplied, hshuts⟩
    · exact hlast j hj
  have hcount : closing.countP Instr.switches = 0 := by
    refine countP_eq_zero.mpr fun j hj => ?_
    rw [Instr.switches, (Instr.of_plain (hclosing j hj)).2.1]
    exact Bool.false_ne_true
  refine h.exchange ?_
  constructor
  case before => exact guardeds_of_op hop hi.1
  case after => rw [guardeds, filterMap_eq_nil_iff.mpr fun j hj => (hall j hj).1]; rfl
  case device => rfl
  case lock => rfl
  case operator => rfl
  case switch => rw [countP_append, hcount, zero_add, hswitch]
  case owned => exact howned.congr (by rw [ownedIn_append])
  case supplied => exact fun j hj => (hall j hj).2.1
  case phase =>
    intro j hj p hp
    rcases mem_append.mp hj with hj | hj
    · rw [(Instr.of_plain (hclosing j hj)).2.1] at hp
      cases hp
    · exact hphase j hj p hp
  case reads =>
    intro j hj d hd
    rw [(Instr.of_unguarded (hall j hj).1).1] at hd
    cases hd
  case torn => exact .inr htorn
  case session =>
    intro x hx
    refine (hsession x hx).imp_right fun hmem => ⟨_, mem_append_left _ hmem, rfl⟩
  case stops =>
    intro j hj x hx
    rcases mem_append.mp hj with hj | hj
    · rw [(Instr.of_plain (hclosing j hj)).2.2.2.1] at hx
      cases hx
    · exact hstops j hj x hx
  case closes => exact hi.2
  case shut =>
    exact fun hs => ⟨(hshut hs).1, (hshut hs).2, fun j hj => (Instr.of_unguarded (hall j hj).1).2.1⟩
  case shuts => exact hshuts
  case shutting => exact fun j hj => (hall j hj).2.2

theorem Kept.call {ndk : Handles Kind} {switchLock : Bool} (h : Kept s (i :: rest) g)
    (hi : i.guards = none ∧ i.shuts = none)
    (htodo : ∀ j ∈ todo, j.guards = none ∧ j.Supplied ∧ j.stops = none ∧ j.shuts = none)
    (hswitch : todo.countP Instr.switches + s.switchLock.toNat =
      switchLock.toNat + [i].countP Instr.switches)
    (howned : Owns ndk (own s.device + g.owns + (ownedIn todo + ownedIn rest)))
    (hphase : ∀ j ∈ todo, ∀ p ∈ j.phase, p.Holds s.device g)
    (hcloses : ∀ x ∈ i.closes, (∃ j ∈ todo, x ∈ j.closes) ∨ ∀ j ∈ rest, j.stops ≠ some x) :
    Kept { s with ndk, switchLock } (todo ++ rest) g := by
  refine h.aside ?_
  constructor
  case op => rfl
  case shut => rfl
  case outside => exact ⟨hi.1, fun j hj => (htodo j hj).1⟩
  case switch => exact hswitch
  case owned => exact howned
  case supplied => exact fun j hj => (htodo j hj).2.1
  case phase => exact hphase
  case device => exact .inl rfl
  case stops => exact fun j hj => (htodo j hj).2.2.1
  case closes => exact hcloses
  case shuts => exact hi.2
  case closing => exact fun hclosed hdevice => ⟨hdevice hclosed, .inl hclosed⟩
  case operator => exact fun hclosed => hclosed
  case shutting =>
    intro j hj hshuts
    rw [(htodo j hj).2.2.2] at hshuts
    cases hshuts

theorem Kept.next {ndk : Handles Kind} (h : Kept s (i :: rest) g)
    (hi : i.guards = none ∧ i.shuts = none ∧ i.closes = none)
    (hj : j.guards = none ∧ j.Supplied ∧ j.stops = none ∧ j.shuts = none)
    (hswitch : j.switches = i.switches)
    (howned : Owns ndk (own s.device + g.owns + (j.owns + ownedIn rest)))
    (hphase : ∀ p ∈ j.phase, p.Holds s.device g) : Kept { s with ndk } (j :: rest) g := by
  have hkept : Kept { s with ndk } ([j] ++ rest) g := by
    refine h.call ⟨hi.1, hi.2.1⟩ ?_ ?_ (howned.congr (by simp)) ?_ ?_
    · intro k hk
      obtain rfl := mem_singleton.mp hk
      exact hj
    · rw [countP_singleton, countP_singleton, hswitch, add_comm]
    · intro k hk
      obtain rfl := mem_singleton.mp hk
      exact hphase
    · simp [hi.2.2]
  exact hkept

end Forms

end OniroSoc.Camera.Device

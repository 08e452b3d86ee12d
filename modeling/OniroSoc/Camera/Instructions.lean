import OniroSoc.Camera.Ownership

/-!
# Each instruction of a camera keeps the objects

* `Timely`: the condition on an instruction.
* `Keeps`: under that condition the instruction keeps `Kept`, with one lemma for each.
-/

namespace OniroSoc.Camera.Device
open List Option
open Support Support.Handles

/-- The condition on an instruction, with what is left to do besides it. -/
def Timely (s : Device) (others : List Instr) (env : Env) : Instr → Prop
  -- No stream is created after `Shutdown`, and a new reader has a window.
  | .createNext _ (_ :: _) => s.shut = false
  | .getWindow _ _ _ _ => env.ok = true
  -- A switch of lenses does not end after `Close` has begun.
  | .publish (some _) _ _ => s.streamOperator = true
  -- When the device is read to be used, it is there; when the repeat is issued, so is the session.
  | .sessionDevice _ _ => s.device.isSome
  | .repeatLocked g _ => g.targets ≠ [] → g.session.isSome ∧ s.device.isSome
  | .submitCapture _ streamIds false => ∀ g ∈ s.op, g.committed = true → g.session.isSome →
      (g.targetsOf streamIds).isSome → s.device.isSome
  -- A session is not closed while a cancelled capture is still going to stop it.
  | .free o => ∀ j ∈ others, j.stops ≠ some o
  | _ => True

section Locked
variable {s : Device} {env : Env} {i : Instr} {rest : List Instr} {g : Guarded}

def Keeps (s : Device) (env : Env) (rest : List Instr) (i : Instr) : Prop :=
  ∀ {g s' todo}, Kept s (i :: rest) g → Timely s rest env i → exec s env i = some (s', todo) →
    ∃ g', Kept s' (todo ++ rest) g'

theorem keeps_locked (hi : i.guards = some g)
    (hkeep : ∀ {s' todo}, Kept s (i :: rest) g → guardeds s [i] = [g] → Timely s rest env i →
      exec s env i = some (s', todo) → ∃ g', Kept s' (todo ++ rest) g') : Keeps s env rest i := by
  intro g' s' todo h ht hexec
  obtain rfl := h.guards_eq (.head _) hi
  exact hkeep h (h.guardeds_of_guards hi) ht hexec

theorem keeps_waiting {f : Guarded → Device × List Instr} (hf : exec s env i = s.op.map f)
    (hi : i.guards = none)
    (hkeep : ∀ g s' todo,
      Kept s (i :: rest) g → s.op = some g → guardeds s [i] = [g] → Timely s rest env i →
      f g = (s', todo) → ∃ g', Kept s' (todo ++ rest) g') : Keeps s env rest i := by
  intro g s' todo h ht hexec
  obtain ⟨g₀, hop, heq⟩ := map_eq_some_iff.mp (hf.symm.trans hexec)
  have hg := guardeds_of_op hop hi
  obtain rfl := (h.unguarded hg).1
  exact hkeep g s' todo h hop hg ht heq

theorem keeps_createNext {infos : List StreamInfo} : Keeps s env rest (.createNext g infos) := by
  refine keeps_locked rfl fun h hg ht hexec => ?_
  have hunchanged := h.leave_unchanged hg ⟨rfl, rfl⟩ rfl rfl
  cases infos with
  | nil =>
    cases hexec
    exact ⟨g, hunchanged⟩
  | cons info infos =>
    have hopen : ¬ s.shut = true := Bool.eq_false_iff.mp ht
    rw [exec] at hexec
    split_ifs at hexec with hexists hfail
    · cases hexec
      exact ⟨g, h.proceed hopen rfl rfl rfl h.owned trivial (by rintro _ ⟨⟩) (by rintro _ ⟨⟩) ⟨rfl, .inr rfl⟩⟩
    · cases hexec
      exact ⟨g, hunchanged⟩
    · cases hexec
      refine ⟨g, h.proceed hopen rfl rfl rfl ?_ trivial (by rintro _ ⟨⟩) (by rintro _ ⟨⟩) ⟨rfl, .inr rfl⟩⟩
      refine (h.owned.create .reader).congr ?_
      simp only [ownedIn_cons, Instr.owns, create]
      abel

theorem keeps_getWindow {reader : Object} {info : StreamInfo} {infos : List StreamInfo} :
    Keeps s env rest (.getWindow g reader info infos) := by
  refine keeps_locked rfl fun h hg ht hexec => ?_
  rw [exec, if_neg (by rw [show env.ok = true from ht]; decide)] at hexec
  cases hexec
  refine ⟨_, h.proceed (h.not_shut rfl) rfl rfl rfl ?_ trivial (by rintro _ ⟨⟩) (by rintro _ ⟨⟩)
    ⟨rfl, .inr rfl⟩⟩
  have hreader : reader ∈ own s.device + g.owns + ownedIn
      (.getWindow g reader info infos :: rest) := by
    simp [Instr.owns]
  refine (h.owned.use hreader).congr ?_
  simp only [ownedIn_cons, Instr.owns, Guarded.owns, ownedBy_append, ownedBy_cons, ownedBy_nil,
    Stream.owns, own_none, map_nil, Multiset.coe_nil]
  abel

variable {again : Bool}

theorem keeps_createContainer : Keeps s env rest (.createContainer g again) := by
  refine keeps_locked rfl fun h hg _ hexec => ?_
  obtain ⟨hsession, houtputs⟩ : g.session = none ∧ g.outputs = none :=
    h.phase _ (.head _) .torn rfl
  rw [exec] at hexec
  split_ifs at hexec with hok
  · cases hexec
    refine ⟨_, h.proceed (h.not_shut rfl) rfl rfl rfl ?_ trivial ?_ (by rintro _ ⟨⟩)
      ⟨rfl, .inl rfl⟩⟩
    · refine (h.owned.create .container).congr ?_
      simp only [ownedIn_cons, Instr.owns, Guarded.owns, Build.guarded, houtputs, own_none,
        own_some, nil_append, create]
      abel
    · rintro p ⟨⟩
      exact ⟨hsession, rfl⟩
  · cases hexec
    exact ⟨g, h.leave_unchanged hg ⟨rfl, rfl⟩ rfl rfl⟩

variable {stream : Stream} {left : List Stream} {device : Option Object}

theorem windowForLens_owned {others : Multiset Object} (env : Env) (lens : Int)
    (hown : Owns s.ndk (stream.owns + others)) :
    Owns (s.windowForLens env stream lens).1
      ((s.windowForLens env stream lens).2.1.owns + others) := by
  rw [windowForLens]
  split
  · exact hown
  split
  · exact hown
  split
  · exact hown
  split
  · exact hown
  · refine ((hown.create .reader).use ?_).congr ?_
    · exact mem_singleton_add
    · simp only [Stream.owns, map_append, map_cons, map_nil, ← Multiset.coe_add, Multiset.coe_singleton, create]
      abel

theorem windowForLens_bare (env : Env) (lens : Int)
    (hbare : stream.output = none ∧ stream.target = none) :
    (s.windowForLens env stream lens).2.1.output = none ∧
    (s.windowForLens env stream lens).2.1.target = none := by
  rw [windowForLens]
  split
  · exact hbare
  split
  · exact hbare
  split
  · exact hbare
  split <;> exact hbare

@[simp] theorem Build.owns_guarded (b : Build) (left : List Stream) :
    (b.guarded left).owns =
      own b.g.session + own b.g.repeatingRequest + own b.g.outputs +
        (ownedBy b.done + ownedBy left) := by
  simp [Build.guarded, Guarded.owns]

variable {b : Build}

theorem keeps_buildStream : Keeps s env rest (.buildStream b left) := by
  refine keeps_locked rfl fun {s' todo} h hg _ hexec => ?_
  have hphase : Phase.Holds s.device (b.guarded left) .building := h.phase _ (.head _) _ rfl
  have hopen := h.not_shut rfl
  cases left with
  | nil =>
    cases hexec
    refine ⟨_, h.proceed hopen rfl rfl rfl h.owned trivial ?_ (by rintro _ ⟨⟩) ⟨rfl, .inl rfl⟩⟩
    rintro p ⟨⟩
    exact hphase
  | cons stream left =>
    -- The output and the target of the last session go, and a reader may come.
    have hdropped : Owns (s.dropOutput stream).1.ndk ((s.dropOutput stream).2.owns +
        (own s.device + (b.guarded left).owns + ownedIn rest)) := by
      refine (h.owned.congr ?_).closeAll
      simp only [dropOutput, ownedIn_cons, Instr.owns, Build.owns_guarded, ownedBy_cons,
        Stream.owns, own, ← Multiset.coe_add, toList_none, Multiset.coe_nil]
      abel
    have hwindow := windowForLens_owned env b.lens hdropped
    obtain ⟨w, hw⟩ : ∃ w, (s.dropOutput stream).1.windowForLens env (s.dropOutput stream).2 b.lens =
      w := ⟨_, rfl⟩
    have hbare := windowForLens_bare env b.lens (s := (s.dropOutput stream).1)
      (⟨rfl, rfl⟩ : (s.dropOutput stream).2.output = none ∧ (s.dropOutput stream).2.target = none)
    rw [hw] at hwindow hbare
    replace hexec : (if w.2.2 then some ({ s with ndk := w.1 }, [Instr.createOutput b w.2.1 left])
        else some ({ s with ndk := w.1, op := some (b.guarded (w.2.1 :: left)) }, [.unlockSwitch])) =
          some (s', todo) := hw ▸ hexec
    have howned : Owns w.1 (own s.device + (b.guarded (w.2.1 :: left)).owns + ownedIn rest) := by
      refine hwindow.congr ?_
      simp only [Build.owns_guarded, ownedBy_cons]
      abel
    split_ifs at hexec with hthere
    · cases hexec
      refine ⟨_, h.proceed hopen rfl rfl rfl ?_ hbare ?_ (by rintro _ ⟨⟩) ⟨rfl, .inl rfl⟩⟩
      · exact howned.congr (by simp only [Instr.owns, zero_add])
      · rintro p ⟨⟩
        exact hphase
    · cases hexec
      exact ⟨_, h.leave hg ⟨rfl, rfl⟩ rfl howned (.inl rfl) (fun _ hx => hx) fun hs => absurd hs hopen⟩

theorem keeps_createOutput : Keeps s env rest (.createOutput b stream left) := by
  refine keeps_locked rfl fun h hg _ hexec => ?_
  have hphase : Phase.Holds s.device (b.guarded (stream :: left)) .building :=
    h.phase _ (.head _) _ rfl
  obtain ⟨container, hcontainer⟩ := isSome_iff_exists.mp hphase.2
  obtain ⟨houtput, htarget⟩ : stream.output = none ∧ stream.target = none :=
    h.supplied _ (.head _)
  rw [exec] at hexec
  split_ifs at hexec with hok
  · cases hexec
    refine ⟨_, h.proceed (h.not_shut rfl) rfl rfl rfl ?_ htarget ?_ (by rintro _ ⟨⟩)
      ⟨rfl, .inl rfl⟩⟩
    · have hcontainer : b.g.outputs = some container := hcontainer
      rw [hcontainer]
      have hnew := h.owned.create .output
      refine ((hnew.use ?_).use ?_).congr ?_
      · simp [hcontainer]
      · exact mem_singleton_add
      · simp only [ownedIn_cons, Instr.owns, Build.owns_guarded, ownedBy_cons, Stream.owns, houtput,
          own_none, own_some, create]
        abel
    · rintro p ⟨⟩
      exact hphase
  · cases hexec
    exact ⟨_, h.leave_unchanged hg ⟨rfl, rfl⟩ rfl rfl⟩

theorem keeps_createTarget : Keeps s env rest (.createTarget b stream left) := by
  refine keeps_locked rfl fun h hg _ hexec => ?_
  have hphase : Phase.Holds s.device (b.guarded (stream :: left)) .building :=
    h.phase _ (.head _) _ rfl
  have htarget : stream.target = none := h.supplied _ (.head _)
  rw [exec] at hexec
  split_ifs at hexec with hok
  · cases hexec
    refine ⟨_, h.proceed (h.not_shut rfl) rfl rfl rfl ?_ trivial ?_ (by rintro _ ⟨⟩)
      ⟨rfl, .inl rfl⟩⟩
    · refine (h.owned.create .target).congr ?_
      simp only [ownedIn_cons, Instr.owns, Build.owns_guarded, ownedBy_cons, ownedBy_append,
        ownedBy_nil, Stream.owns, htarget, own_none, own_some, create]
      abel
    · rintro p ⟨⟩
      exact hphase
  · cases hexec
    refine ⟨_, h.proceed (h.not_shut rfl) rfl rfl rfl ?_ trivial ?_ (by rintro _ ⟨⟩)
      ⟨rfl, .inl rfl⟩⟩
    · refine h.owned.congr ?_
      simp only [ownedIn_cons, Instr.owns, Build.owns_guarded, ownedBy_cons, ownedBy_append, ownedBy_nil]
      abel
    · rintro p ⟨⟩
      exact hphase

theorem keeps_sessionDevice : Keeps s env rest (.sessionDevice g again) := by
  refine keeps_locked rfl fun h hg ht hexec => ?_
  cases hexec
  refine ⟨g, h.proceed (h.not_shut rfl) rfl rfl rfl h.owned ht ?_ (fun _ hd => hd) ⟨rfl, .inl rfl⟩⟩
  rintro p ⟨⟩
  exact h.phase _ (.head _) .building rfl

theorem keeps_createSession : Keeps s env rest (.createSession g device again) := by
  refine keeps_locked rfl fun h hg _ hexec => ?_
  obtain ⟨hsession, hcontainer⟩ : g.session = none ∧ g.outputs.isSome :=
    h.phase _ (.head _) .building rfl
  obtain ⟨container, hcontainer⟩ := isSome_iff_exists.mp hcontainer
  obtain ⟨d, rfl⟩ := isSome_iff_exists.mp (h.supplied _ (.head _) : device.isSome)
  have hnosession : ∀ x, ¬ g.session = some x := by simp [hsession]
  have hopen := h.not_shut rfl
  -- The calls are on the device and on the container.
  have hused : Owns ((s.ndk.use (some d)).use g.outputs)
      (own s.device + g.owns + ownedIn (.createSession g (some d) again :: rest)) := by
    rw [hcontainer]
    refine (h.owned.use (h.mem_of_reads rfl)).use ?_
    exact Multiset.mem_add.mpr
      (.inl (Multiset.mem_add.mpr (.inr (g.mem_owns_of_outputs hcontainer))))
  rw [exec] at hexec
  split_ifs at hexec with hok
  · have hnew := hused.create .session
    have howned : Owns (((s.ndk.use (some d)).use g.outputs).create .session).1
        (own s.device + Guarded.owns { g with
          session := some (((s.ndk.use (some d)).use g.outputs).create .session).2
          committed := true } + ownedIn rest) := by
      refine hnew.congr ?_
      simp only [ownedIn_cons, Instr.owns, Guarded.owns, hsession, own_none, own_some]
      abel
    replace hexec := Option.some.inj hexec
    split_ifs at hexec with hrepeat
    · cases hexec
      refine ⟨_, h.carry hg ⟨rfl, rfl⟩ (h.op_none rfl) rfl rfl ?_ trivial ?_ (by rintro _ ⟨⟩) (.inl rfl)
        (fun x hx => absurd hx (hnosession x)) fun hs => absurd hs hopen⟩
      · exact howned.congr (by simp only [Instr.owns, zero_add, create])
      · rintro p ⟨⟩
        trivial
    · cases hexec
      exact ⟨_, h.leave hg ⟨rfl, rfl⟩ rfl howned (.inl rfl) (fun x hx => absurd hx (hnosession x))
        fun hs => absurd hs hopen⟩
  · cases hexec
    refine ⟨_, h.leave hg ⟨rfl, rfl⟩ rfl (hused.congr ?_) (.inl rfl)
      (fun x hx => absurd hx (hnosession x)) fun hs => absurd hs hopen⟩
    simp only [ownedIn_cons, Instr.owns, Guarded.owns, hsession, zero_add]

variable {switch : Bool}

theorem keeps_repeatLocked : Keeps s env rest (.repeatLocked g switch) := by
  refine keeps_locked rfl fun h hg ht hexec => ?_
  rw [exec] at hexec
  split_ifs at hexec with htargets
  · cases hexec
    exact ⟨g, h.leave_unchanged hg ⟨rfl, rfl⟩ (by cases switch <;> rfl) rfl⟩
  · cases hexec
    refine ⟨g, h.carry hg ⟨rfl, rfl⟩ (h.op_none rfl) rfl (by cases switch <;> rfl) h.owned
      (ht htargets).symm ?_ (fun _ hd => hd) (.inr ⟨rfl, rfl⟩) (fun _ hx => hx) fun hs => ?_⟩
    · intro p hp
      cases switch <;> cases hp
      trivial
    · rw [(h.shut hs).1] at htargets
      exact absurd rfl htargets

theorem Kept.created {i : Instr} {d : Object} {targets : List Object} (h : Kept s (i :: rest) g)
    (hd : d ∈ i.reads) (htargets : ∀ o ∈ targets, o ∈ g.owns) :
    Owns
      (((s.ndk.use (some d)).create .request).1.useAll
         (((s.ndk.use (some d)).create .request).2 :: targets))
      ({((s.ndk.use (some d)).create .request).2} +
        (own s.device + g.owns + ownedIn (i :: rest))) := by
  refine ((h.owned.use (h.mem_of_reads hd)).create .request).useAll fun o ho => ?_
  rw [Multiset.mem_add, Multiset.mem_add, Multiset.mem_add]
  rcases mem_cons.mp ho with rfl | ho
  · exact .inl (Multiset.mem_singleton_self _)
  · exact .inr (.inl (.inr (htargets o ho)))

theorem keeps_createRepeating : Keeps s env rest (.createRepeating g device switch) := by
  refine keeps_locked rfl fun h hg _ hexec => ?_
  obtain ⟨hdevice, hsession⟩ : device.isSome ∧ g.session.isSome := h.supplied _ (.head _)
  obtain ⟨d, rfl⟩ := isSome_iff_exists.mp hdevice
  rw [exec] at hexec
  split_ifs at hexec with hok
  · cases hexec
    refine ⟨g, h.proceed (h.not_shut rfl) rfl rfl (by cases switch <;> rfl) ?_ hsession ?_
      (by rintro _ ⟨⟩) ⟨rfl, .inr rfl⟩⟩
    · refine (h.created rfl fun o ho => g.mem_owns_of_targets ho).congr ?_
      simp only [ownedIn_cons, Instr.owns, create]
      abel
    · intro p hp
      cases switch <;> cases hp
      trivial
  · cases hexec
    refine ⟨g, h.leave_same hg ⟨rfl, rfl⟩ (by cases switch <;> rfl) ?_⟩
    exact (h.owned.use (h.mem_of_reads rfl)).congr
      (by simp only [ownedIn_cons, Instr.owns, zero_add])

variable {request : Object}

theorem Kept.issued {i : Instr} {x : Object} (h : Kept s (i :: rest) g) (hx : g.session = some x)
    (hi : i.owns = {request}) : Owns ((s.ndk.use g.session).use (some request))
      ({request} + (own s.device + g.owns + ownedIn rest)) := by
  rw [hx]
  have howned := h.owned.congr (show own s.device + g.owns + ownedIn (i :: rest) =
    {request} + (own s.device + g.owns + ownedIn rest) by rw [ownedIn_cons, hi]; abel)
  refine (howned.use ?_).use mem_singleton_add
  rw [Multiset.mem_add, Multiset.mem_add, Multiset.mem_add]
  exact .inr (.inl (.inr (g.mem_owns_of_session hx)))

theorem keeps_setRepeating : Keeps s env rest (.setRepeating g request switch) := by
  refine keeps_locked rfl fun h hg _ hexec => ?_
  obtain ⟨x, hx⟩ := isSome_iff_exists.mp (h.supplied _ (.head _) : g.session.isSome)
  have hissued := h.issued hx rfl
  rw [exec] at hexec
  split_ifs at hexec with hok
  · cases hexec
    refine ⟨_, h.leave hg ⟨rfl, rfl⟩ (by cases switch <;> rfl) ?_ (.inr ⟨rfl, rfl⟩) (fun _ hx => hx)
      fun hs => absurd hs (h.not_shut rfl)⟩
    refine (hissued.congr ?_).closeAll
    simp only [Guarded.owns, own_some]
    simp only [own]
    abel
  · cases hexec
    exact ⟨g, h.leave_same hg ⟨rfl, rfl⟩ (by cases switch <;> rfl) hissued.close⟩

theorem keeps_createStill {captureId : Int} {streamIds : List Int} {targets : List Object} :
    Keeps s env rest (.createStill g device captureId streamIds targets) := by
  refine keeps_locked rfl fun h hg _ hexec => ?_
  obtain ⟨hdevice, hsession, htargets⟩ : device.isSome ∧ g.session.isSome ∧ ∀ o ∈ targets,
    o ∈ g.owns := h.supplied _ (.head _)
  obtain ⟨d, rfl⟩ := isSome_iff_exists.mp hdevice
  rw [exec] at hexec
  split_ifs at hexec with hok
  · cases hexec
    refine ⟨_, h.proceed (h.not_shut rfl) rfl rfl rfl ?_ hsession ?_ (by rintro _ ⟨⟩)
      ⟨rfl, .inr rfl⟩⟩
    · refine (h.created rfl htargets).congr ?_
      simp only [ownedIn_cons, Instr.owns, Guarded.owns_mark, create]
      abel
    · rintro p ⟨⟩
      trivial
  · cases hexec
    refine ⟨g, h.leave_same hg ⟨rfl, rfl⟩ rfl ?_⟩
    exact (h.owned.use (h.mem_of_reads rfl)).congr
      (by simp only [ownedIn_cons, Instr.owns, zero_add])

theorem keeps_shoot : Keeps s env rest (.shoot g request) := by
  refine keeps_locked rfl fun h hg _ hexec => ?_
  obtain ⟨x, hx⟩ := isSome_iff_exists.mp (h.supplied _ (.head _) : g.session.isSome)
  cases hexec
  exact ⟨g, h.leave_same hg ⟨rfl, rfl⟩ rfl (h.issued hx rfl).close⟩

end Locked

/-! ### Instructions that wait for the lock -/

theorem ownedIn_free (o : Option Object) : ownedIn (o.toList.map .free) = own o := by
  cases o <;> simp [Instr.owns]

theorem ownedIn_closeSession (session repeating outputs : Option Object) :
    ownedIn (closeSession session repeating outputs) =
      own session + own repeating + own outputs := by
  have hstop : ownedIn (session.toList.map .stopAndClose) = own session := by
    cases session <;> simp [Instr.owns]
  simp only [closeSession, ownedIn_append, hstop, ownedIn_free]

theorem plain_closeSession {session repeating outputs : Option Object} {j : Instr}
    (hj : j ∈ closeSession session repeating outputs) : j.plain = true := by
  simp only [closeSession, mem_append, List.mem_map] at hj
  rcases hj with (⟨o, -, rfl⟩ | ⟨o, -, rfl⟩) | ⟨o, -, rfl⟩ <;> rfl

theorem mem_closeSession {session repeating outputs : Option Object} {x : Object}
    (hx : session = some x) : .stopAndClose x ∈ closeSession session repeating outputs := by
  simp [closeSession, hx]

theorem ownedIn_destroyStream (stream : Stream) : ownedIn (destroyStream stream) = stream.owns := by
  have hreaders : ∀ entries : List LensReader,
      ownedIn (entries.map fun entry => .unlisten entry.reader) =
      (entries.map (·.reader) : Multiset Object) := by
    intro entries
    induction entries with
    | nil => rfl
    | cons entry entries ih =>
      rw [map_cons, ownedIn_cons, ih]
      rfl
  simp only [destroyStream, ownedIn_append, ownedIn_free, hreaders, ownedIn_cons, ownedIn_nil,
    Instr.owns, Stream.owns]
  abel

theorem ownedIn_destroyStreams (streams : List Stream) :
    ownedIn (streams.flatMap destroyStream) = ownedBy streams := by
  induction streams with
  | nil => rfl
  | cons stream streams ih => simp [ownedIn_destroyStream, ih]

theorem plain_destroyStreams {streams : List Stream} {j : Instr}
    (hj : j ∈ streams.flatMap destroyStream) : j.plain = true := by
  obtain ⟨stream, -, hj⟩ := mem_flatMap.mp hj
  simp only [destroyStream, mem_append, List.mem_map, mem_singleton] at hj
  rcases hj with ((⟨o, -, rfl⟩ | ⟨o, -, rfl⟩) | rfl) | ⟨entry, -, rfl⟩ <;> rfl

theorem ownedBy_takeStreams (streams : List Stream) (ids : List Int) :
    ownedBy (takeStreams streams ids).1 +
      ownedBy (takeStreams streams ids).2 = ownedBy streams := by
  induction ids generalizing streams with
  | nil => simp [takeStreams]
  | cons id ids ih =>
    have hsplit : ownedBy (streams.filter fun stream => stream.id = id) +
        ownedBy (streams.filter fun stream => ¬ stream.id = id) = ownedBy streams := by
      rw [← ownedBy_append, ownedBy, ownedBy]
      have hperm := filter_append_perm (fun stream : Stream => decide (stream.id = id)) streams
      simpa using (hperm.map Stream.owns).sum_eq
    show ownedBy ((streams.filter fun stream => stream.id = id) ++
      (takeStreams (streams.filter fun stream => ¬ stream.id = id) ids).1) +
        ownedBy (takeStreams (streams.filter fun stream => ¬ stream.id = id) ids).2 = ownedBy streams
    rw [ownedBy_append, add_assoc, ih, hsplit]

theorem takeStreams_nil (ids : List Int) : takeStreams [] ids = ([], []) := by
  induction ids with
  | nil => rfl
  | cons id ids ih => simp [takeStreams, ih]

section Waiting
variable {s : Device} {env : Env} {i : Instr} {rest : List Instr} {g : Guarded}

theorem Kept.swapped {j : Instr} (h : Kept s (i :: rest) g) (hop : s.op = some g)
    (hi : i.guards = none ∧ i.closes = none ∧ i.shuts = none ∧ i.owns = 0)
    (hj : (j.guards = none ∧ j.Supplied ∧ j.shuts = none) ∧ j.stops = none ∧ j.owns = 0)
    (hphase : j.phase = some .torn) (hswitch : i.switches = true) :
    Kept { s with op := some g.swapped }
      (closeSession g.session g.repeatingRequest g.outputs ++ [j] ++ rest) g.swapped := by
  refine h.within hop ⟨hi.1, hi.2.1⟩ (fun k hk => plain_closeSession hk) ?_ ?_ ?_ ?_ ?_ ?_ ?_ ?_ ?_
  · intro k hk
    obtain rfl := mem_singleton.mp hk
    exact hj.1
  · intro k hk x hx
    obtain rfl := mem_singleton.mp hk
    rw [hj.2.1] at hx
    cases hx
  · rw [countP_singleton, countP_singleton, hswitch, Instr.switches, hphase]
    rfl
  · refine h.owned.congr ?_
    simp only [ownedIn_cons, hi.2.2.2, hj.2.2, ownedIn_closeSession, ownedIn_nil, Guarded.owns,
      Guarded.swapped, own_none]
    abel
  · intro k hk p hp
    obtain rfl := mem_singleton.mp hk
    rw [hphase] at hp
    cases hp
    exact ⟨rfl, rfl⟩
  · exact fun _ _ => ⟨rfl, rfl⟩
  · exact fun x hx => .inr (mem_closeSession hx)
  · intro hs
    rw [(h.shut hs).1]
    exact ⟨rfl, (h.shut hs).2.1⟩
  · exact fun hs => hs.resolve_right (by simp [hi.2.2.1])

theorem keeps_commitSwap : Keeps s env rest .commitSwap := by
  refine keeps_waiting rfl rfl fun g s' todo h hop hg _ heq => ?_
  cases heq
  exact ⟨_, h.swapped hop ⟨rfl, rfl, rfl, rfl⟩ ⟨⟨rfl, trivial, rfl⟩, rfl, rfl⟩ rfl rfl⟩

theorem keeps_settingsSwap : Keeps s env rest .settingsSwap := by
  refine keeps_waiting rfl rfl fun g s' todo h hop hg _ heq => ?_
  have hunchanged := h.leave_unchanged hg ⟨rfl, rfl⟩ rfl rfl
  split_ifs at heq with hready hlens hany
  · cases heq
    exact ⟨_, hunchanged⟩
  · cases heq
    refine ⟨_, h.carry hg ⟨rfl, rfl⟩ rfl rfl rfl h.owned trivial ?_ nofun (.inl rfl)
      (fun _ hx => hx) fun hs => ⟨(h.shut hs).1, rfl⟩⟩
    rintro p ⟨⟩
    trivial
  · cases heq
    exact ⟨_, hunchanged⟩
  · cases heq
    exact ⟨_, h.swapped hop ⟨rfl, rfl, rfl, rfl⟩ ⟨⟨rfl, trivial, rfl⟩, rfl, rfl⟩ rfl rfl⟩

theorem keeps_rebuild {again : Bool} : Keeps s env rest (.rebuild again) := by
  refine keeps_waiting rfl rfl fun g s' todo h hop hg _ heq => ?_
  split_ifs at heq with hgone
  · cases heq
    exact ⟨_, h.leave_unchanged hg ⟨rfl, rfl⟩ rfl rfl⟩
  · cases heq
    refine ⟨_, h.carry hg ⟨rfl, rfl⟩ rfl rfl rfl h.owned trivial ?_ nofun (.inl rfl)
      (fun _ hx => hx) fun hs => ?_⟩
    · rintro p ⟨⟩
      exact h.phase _ (.head _) .torn rfl
    · -- The device is there, so `Close` has not begun.
      have hnone := (h.closing (h.shut hs).2.1).1
      simp [hnone] at hgone

theorem keeps_createStreams {infos : List StreamInfo} :
    Keeps s env rest (.createStreams infos) := by
  refine keeps_waiting rfl rfl fun g s' todo h hop hg _ heq => ?_
  cases heq
  exact ⟨_, h.carry hg ⟨rfl, rfl⟩ rfl rfl rfl h.owned trivial nofun nofun (.inr ⟨rfl, rfl⟩)
    (fun _ hx => hx) fun hs => ⟨(h.shut hs).1, rfl⟩⟩

theorem keeps_submitCapture {captureId : Int} {streamIds : List Int} {isStreaming : Bool} :
    Keeps s env rest (.submitCapture captureId streamIds isStreaming) := by
  refine keeps_waiting rfl rfl fun g s' todo h hop hg ht heq => ?_
  have hunchanged := h.leave_unchanged hg ⟨rfl, rfl⟩ rfl rfl
  by_cases hready : (!g.committed || g.session.isNone) = true
  · rw [if_pos hready] at heq
    cases heq
    exact ⟨_, hunchanged⟩
  rw [if_neg hready] at heq
  obtain ⟨hcommitted, hsession⟩ : g.committed = true ∧ g.session.isSome := by
    simpa [isSome_iff_ne_none] using hready
  have hopen : ¬ s.shut = true := fun hs => by
    rw [(h.shut hs).1] at hcommitted
    cases hcommitted
  cases htargets : g.targetsOf streamIds with
  | none =>
    rw [htargets] at heq
    cases heq
    exact ⟨_, hunchanged⟩
  | some targets =>
    rw [htargets] at heq
    cases isStreaming with
    | true =>
      cases heq
      refine ⟨_, h.carry hg ⟨rfl, rfl⟩ rfl rfl rfl ?_ trivial ?_ nofun (.inl rfl) (fun _ hx => hx)
        fun hs => absurd hs hopen⟩
      · rw [Guarded.owns_mark]
        exact h.owned
      · rintro p ⟨⟩
        trivial
    | false =>
      have hdevice := ht g hop hcommitted hsession (by rw [htargets]; rfl)
      cases heq
      refine ⟨_, h.carry hg ⟨rfl, rfl⟩ rfl rfl rfl h.owned
        ⟨hdevice, hsession, fun o ho => g.mem_owns_of_targetsOf htargets ho⟩ ?_ (fun _ hd => hd)
        (.inl rfl) (fun _ hx => hx) fun hs => absurd hs hopen⟩
      rintro p ⟨⟩
      trivial

theorem keeps_releaseStreams {streamIds : List Int} :
    Keeps s env rest (.releaseStreams streamIds) := by
  refine keeps_waiting rfl rfl fun g s' todo h hop hg _ heq => ?_
  cases heq
  have hkept : Kept { s with op := some { g with streams := (takeStreams g.streams streamIds).2 } }
      ((takeStreams g.streams streamIds).1.flatMap destroyStream ++ [] ++ rest)
      { g with streams := (takeStreams g.streams streamIds).2 } := by
    refine h.within hop ⟨rfl, rfl⟩ (fun j hj => plain_destroyStreams hj)
      (fun j hj => absurd hj not_mem_nil)
      (fun j hj => absurd hj not_mem_nil) rfl ?_ (fun j hj => absurd hj not_mem_nil)
      (fun hs ho => ⟨hs, ho⟩) (fun x hx => .inl hx) ?_ fun hs => hs.resolve_right Bool.false_ne_true
    · refine h.owned.congr ?_
      simp only [ownedIn_cons, Instr.owns, ownedIn_destroyStreams, ownedIn_nil, Guarded.owns,
        ← ownedBy_takeStreams g.streams streamIds]
      abel
    · intro hs
      obtain ⟨hempty, hoperator, -⟩ := h.shut hs
      rw [hempty, takeStreams_nil]
      exact ⟨rfl, hoperator⟩
  rw [append_nil] at hkept
  exact ⟨_, hkept⟩

theorem keeps_shutdown {device : Option Object} : Keeps s env rest (.shutdown device) := by
  refine keeps_waiting rfl rfl fun g s' todo h hop hg _ heq => ?_
  cases heq
  have hkept : Kept { s with op := some {}, shut := true }
      (closeSession g.session g.repeatingRequest g.outputs ++ g.streams.flatMap destroyStream ++
        device.toList.map .free ++ [] ++ rest) {} := by
    refine h.within hop ⟨rfl, rfl⟩ ?_ (fun j hj => absurd hj not_mem_nil)
      (fun j hj => absurd hj not_mem_nil)
      rfl ?_ (fun j hj => absurd hj not_mem_nil) (fun _ _ => ⟨rfl, rfl⟩) ?_ ?_ fun _ => rfl
    · intro j hj
      rcases mem_append.mp hj with hj | hj
      · rcases mem_append.mp hj with hj | hj
        · exact plain_closeSession hj
        · exact plain_destroyStreams hj
      · obtain ⟨o, -, rfl⟩ := List.mem_map.mp hj
        rfl
    · refine h.owned.congr ?_
      simp only [ownedIn_cons, ownedIn_append, Instr.owns, ownedIn_closeSession,
        ownedIn_destroyStreams, ownedIn_free, ownedIn_nil, Guarded.owns, own_none, ownedBy_nil]
      abel
    · exact fun x hx => .inr (mem_append_left _ (mem_append_left _ (mem_closeSession hx)))
    · exact fun _ => ⟨rfl, h.shutting _ (.head _) rfl⟩
  rw [append_nil] at hkept
  exact ⟨_, hkept⟩

theorem keeps_cancelCapture {captureId : Int} : Keeps s env rest (.cancelCapture captureId) := by
  refine keeps_waiting rfl rfl fun g s' todo h hop hg _ heq => ?_
  have hempty : s.shut = true → g.unmark captureId = {} := fun hs => by rw [(h.shut hs).1]; rfl
  have howned : Owns s.ndk (own s.device + (g.unmark captureId).owns + ownedIn rest) := by
    refine h.owned.congr ?_
    rw [ownedIn_cons, Guarded.owns_unmark]
    simp only [Instr.owns, zero_add]
  replace heq : (if !(g.streams.any fun stream => stream.captureId = captureId && stream.streaming)
    then s.leave (g.unmark captureId) false
    else if (g.unmark captureId).anyStreamingLocked then
      ({ s with op := none }, [.repeatLocked (g.unmark captureId) false])
    else ({ s with op := some { g.unmark captureId with repeatingRequest := none } },
      g.session.toList.map .stopRepeating ++ g.repeatingRequest.toList.map .free)) =
      (s', todo) := heq
  split_ifs at heq with hwas hany
  · cases heq
    exact ⟨_, h.leave hg ⟨rfl, rfl⟩ rfl howned (.inr ⟨rfl, rfl⟩) (fun _ hx => hx) hempty⟩
  · cases heq
    exact ⟨_, h.carry hg ⟨rfl, rfl⟩ rfl rfl rfl
      (howned.congr (by simp only [Instr.owns, zero_add])) trivial
      (by rintro _ ⟨⟩) (by rintro _ ⟨⟩) (.inr ⟨rfl, rfl⟩) (fun _ hx => hx) fun hs =>
      ⟨hempty hs, rfl⟩⟩
  · cases heq
    have hstop : ∀ j ∈ g.session.toList.map Instr.stopRepeating,
        ∃ x, g.session = some x ∧ j = .stopRepeating x := by
      intro j hj
      obtain ⟨x, hx, rfl⟩ := List.mem_map.mp hj
      exact ⟨x, mem_toList.mp hx, rfl⟩
    have hkept : Kept { s with op := some { g.unmark captureId with repeatingRequest := none } }
        (g.repeatingRequest.toList.map .free ++ g.session.toList.map .stopRepeating ++ rest)
        { g.unmark captureId with repeatingRequest := none } := by
      refine h.within hop ⟨rfl, rfl⟩ ?_ ?_ ?_ ?_ ?_ ?_ (fun hs ho => ⟨hs, ho⟩) (fun x hx => .inl hx) ?_
        fun hs => hs.resolve_right Bool.false_ne_true
      · intro j hj
        obtain ⟨o, -, rfl⟩ := List.mem_map.mp hj
        rfl
      · intro j hj
        obtain ⟨x, -, rfl⟩ := hstop j hj
        exact ⟨rfl, trivial, rfl⟩
      · intro j hj y hy
        obtain ⟨x, hx, rfl⟩ := hstop j hj
        cases hy
        exact hx
      · cases g.session <;> rfl
      · have hnone : ownedIn (g.session.toList.map .stopRepeating) = 0 := by
          cases g.session <;> simp [Instr.owns]
        refine howned.congr ?_
        rw [ownedIn_free, hnone]
        simp only [Guarded.owns, Guarded.unmark, own_none]
        abel
      · intro j hj p hp
        obtain ⟨x, -, rfl⟩ := hstop j hj
        cases hp
      · intro hs
        rw [hempty hs]
        exact ⟨rfl, (h.shut hs).2.1⟩
    exact ⟨_, hkept.perm (perm_append_comm.append_right rest)⟩

end Waiting

/-! ### Instructions that need no guarded field -/

section Free
variable {s s' : Device} {env : Env} {i j : Instr} {rest todo : List Instr} {g : Guarded}

theorem Kept.lockSwitch (h : Kept s (i :: rest) g) (hfree : ¬ s.switchLock = true)
    (hi : i.guards = none ∧ i.shuts = none ∧ i.closes = none ∧ i.phase = none ∧ i.owns = 0)
    (hj : j.guards = none ∧ j.Supplied ∧ j.stops = none ∧ j.shuts = none) (howns : j.owns = 0)
    (hphase : j.phase = some .held) : Kept { s with switchLock := true } ([j] ++ rest) g := by
  refine h.call ⟨hi.1, hi.2.1⟩ (by simpa using hj) ?_ (h.owned.congr ?_) ?_ (by simp [hi.2.2.1])
  · simp [Instr.switches, hphase, hi.2.2.2.1, hfree]
  · simp only [ownedIn_cons, hi.2.2.2.2, howns, ownedIn_nil, add_zero]
  · intro k hk p hp
    obtain rfl := mem_singleton.mp hk
    rw [hphase] at hp
    cases hp
    trivial

theorem Kept.unlockSwitch (h : Kept s (.unlockSwitch :: rest) g) :
    Kept { s with switchLock := false } ([] ++ rest) g := by
  have hheld : s.switchLock = true := (Machine.alone_of_countP h.switch rfl).1
  exact h.call ⟨rfl, rfl⟩ (by simp) (by rw [hheld]; rfl) (h.owned.congr (by simp [Instr.owns]))
    (by simp) (by simp [Instr.closes])

variable {again : Bool} {lens : Int}

theorem Kept.takeDevice (h : Kept s (.switchLens lens again :: rest) g)
    (hj : j.guards = none ∧ j.Supplied ∧ j.stops = none ∧ j.shuts = none) (howns : j.owns = 0)
    (hphase : j.phase = some .opening ∨ j.phase = some .torn) :
    Kept { s with device := none } (s.device.toList.map .free ++ [j] ++ rest) g := by
  have htorn : g.session = none ∧ g.outputs = none := h.phase _ (.head _) .torn rfl
  have hmem : ∀ k ∈ s.device.toList.map Instr.free ++ [j],
      (k.phase = none ∨ k = j) ∧ k.guards = none ∧ k.Supplied ∧ k.stops = none ∧ k.shuts = none :=
        by
    intro k hk
    rcases mem_append.mp hk with hk | hk
    · obtain ⟨d, -, rfl⟩ := List.mem_map.mp hk
      exact ⟨.inl rfl, rfl, trivial, rfl, rfl⟩
    · obtain rfl := mem_singleton.mp hk
      exact ⟨.inr rfl, hj⟩
  refine h.aside ?_
  constructor
  case op => rfl
  case shut => rfl
  case outside => exact ⟨rfl, fun k hk => (hmem k hk).2.1⟩
  case switch =>
    have hswitch : j.switches = true := by
      rcases hphase with hp | hp <;> rw [Instr.switches, hp] <;> rfl
    have hnone : (s.device.toList.map Instr.free).countP Instr.switches = 0 := by
      cases s.device <;> rfl
    rw [countP_append, hnone, countP_singleton, hswitch, zero_add, add_comm]
    rfl
  case owned =>
    have hi : (Instr.switchLens lens again).owns = 0 := rfl
    refine h.owned.congr ?_
    simp only [ownedIn_append, ownedIn_free, ownedIn_cons, ownedIn_nil, howns, hi, own_none]
    abel
  case supplied => exact fun k hk => (hmem k hk).2.2.1
  case phase =>
    intro k hk p hp
    rcases (hmem k hk).1 with hnone | rfl
    · rw [hnone] at hp
      cases hp
    · rcases hphase with hphase | hphase <;> rw [hphase] at hp <;> cases hp
      · exact ⟨htorn, rfl⟩
      · exact htorn
  case device => exact .inr (.inr (.inl rfl))
  case stops => exact fun k hk => (hmem k hk).2.2.2.1
  case closes => simp [Instr.closes]
  case shuts => rfl
  case closing => exact fun hclosed _ => ⟨rfl, .inl hclosed⟩
  case operator => exact fun hclosed => hclosed
  case shutting =>
    intro k hk hshuts
    rw [(hmem k hk).2.2.2.2] at hshuts
    cases hshuts

theorem Kept.publish {device : Option Object} (h : Kept s (.publish device lens again :: rest) g)
    (ht : Timely s rest env (.publish device lens again)) :
    Kept { s with device, lens } (.rebuild again :: rest) g := by
  obtain ⟨htorn, hdevice⟩ : (g.session = none ∧ g.outputs = none) ∧ s.device = none :=
    h.phase _ (.head _) .opening rfl
  suffices e : Aside s (.publish device lens again) rest g { s with device, lens }
    [.rebuild again] from h.aside e
  constructor
  case op => rfl
  case shut => rfl
  case outside => exact ⟨rfl, by simp [Instr.guards]⟩
  case switch => exact add_comm _ _
  case owned =>
    refine h.owned.congr ?_
    simp only [ownedIn_cons, ownedIn_nil, Instr.owns, hdevice, own_none]
    abel
  case supplied => simp [Instr.Supplied]
  case phase =>
    intro k hk p hp
    obtain rfl := mem_singleton.mp hk
    cases hp
    exact htorn
  case device => exact .inr (.inr (.inr rfl))
  case stops => simp [Instr.stops]
  case closes => simp [Instr.closes]
  case shuts => rfl
  case closing =>
    intro hclosed _
    refine ⟨?_, .inl hclosed⟩
    cases device with
    | none => rfl
    | some d =>
      have hclosed : s.streamOperator = false := hclosed
      rw [show s.streamOperator = true from ht] at hclosed
      cases hclosed
  case operator => exact fun hclosed => hclosed
  case shutting => simp [Instr.shuts]

theorem Kept.close (h : Kept s (.close :: rest) g) (hexec : exec s env .close = some (s', todo)) :
    Kept s' (todo ++ rest) g := by
  rw [exec] at hexec
  split_ifs at hexec with hoperator
  · cases hexec
    refine h.aside ?_
    constructor
    case op => rfl
    case shut => rfl
    case outside => exact ⟨rfl, by simp [Instr.guards]⟩
    case switch => exact add_comm _ _
    case owned =>
      refine h.owned.congr ?_
      simp only [ownedIn_cons, ownedIn_nil, Instr.owns, own_none]
      abel
    case supplied => simp [Instr.Supplied]
    case phase => simp [Instr.phase]
    case device =>
      refine .inr (.inl ⟨rfl, fun d hd => ⟨_, mem_singleton_self _, ?_⟩⟩)
      exact congrArg some hd
    case stops => simp [Instr.stops]
    case closes => simp [Instr.closes]
    case shuts => rfl
    case closing => exact fun _ _ => ⟨rfl, .inr ⟨_, mem_singleton_self _, rfl⟩⟩
    case operator => exact fun _ => rfl
    case shutting => exact fun _ _ _ => rfl
  · -- `Close` was called before, and the device is gone.
    cases hexec
    have hnone := (h.closing (Bool.eq_false_iff.mpr hoperator)).1
    have hsame : { s with device := none } = s := by rw [← hnone]
    have hkept : Kept s ([] ++ rest) g := by
      refine h.call ⟨rfl, rfl⟩ (by simp) (add_comm _ _) (h.owned.congr ?_) (by simp) (by simp [Instr.closes])
      simp [Instr.owns]
    rw [hsame, hnone]
    exact hkept

theorem Kept.free {o : Object} (h : Kept s (.free o :: rest) g) (ht : Timely s rest env (.free o)) :
    Kept { s with ndk := s.ndk.close o } ([] ++ rest) g := by
  refine h.call ⟨rfl, rfl⟩ (by simp) (add_comm _ _) ?_ (by simp) ?_
  · refine (h.owned.congr ?_).close
    simp only [ownedIn_cons, ownedIn_nil, Instr.owns]
    abel
  · rintro x ⟨⟩
    exact .inr ht

theorem Kept.useThenFree {o : Object} (h : Kept s (i :: rest) g)
    (hi : i.guards = none ∧ i.shuts = none) (howns : i.owns = {o}) (hswitch : i.switches = false)
    (hcloses : ∀ x ∈ i.closes, x = o) :
    Kept { s with ndk := s.ndk.use (some o) } ([.free o] ++ rest) g := by
  refine h.call hi ?_ ?_ ?_ ?_ ?_
  · simp [Instr.guards, Instr.Supplied, Instr.stops, Instr.shuts]
  · rw [countP_singleton, countP_singleton, hswitch]
    exact add_comm _ _
  · refine (h.owned.use ?_).congr ?_
    · simp [howns]
    · have hfree : (Instr.free o).owns = {o} := rfl
      simp only [ownedIn_cons, ownedIn_nil, howns, hfree, add_zero]
  · simp [Instr.phase]
  · exact fun x hx => .inl ⟨_, mem_singleton_self _, congrArg some (hcloses x hx).symm⟩

theorem Kept.stopRepeating {session : Object} (h : Kept s (.stopRepeating session :: rest) g) :
    Kept { s with ndk := s.ndk.use (some session) } ([] ++ rest) g := by
  refine h.call ⟨rfl, rfl⟩ (by simp) (add_comm _ _) ?_ (by simp) (by simp [Instr.closes])
  exact (h.owned.use (h.mem_of_stops rfl)).congr (by simp [Instr.owns])

theorem Kept.switchLens (h : Kept s (.switchLens lens again :: rest) g)
    (hexec : exec s env (.switchLens lens again) = some (s', todo)) : Kept s' (todo ++ rest) g := by
  have hrebuild : Kept s (.rebuild again :: rest) g :=
    h.next ⟨rfl, rfl, rfl⟩ ⟨rfl, trivial, rfl, rfl⟩ rfl h.owned fun p hp =>
      h.phase _ (.head _) p hp
  rw [exec] at hexec
  split_ifs at hexec with hrange hsame hmanager
  · cases hexec
    exact hrebuild
  · cases hexec
    exact hrebuild
  · cases hexec
    exact h.takeDevice ⟨rfl, trivial, rfl, rfl⟩ rfl (.inl rfl)
  · cases hexec
    exact h.takeDevice ⟨rfl, trivial, rfl, rfl⟩ rfl (.inr rfl)

theorem Kept.openDevice (h : Kept s (i :: rest) g)
    (hi : i.guards = none ∧ i.shuts = none ∧ i.closes = none) (howns : i.owns = 0)
    (hphase : i.phase = some .opening) :
    Kept { s with ndk := (s.ndk.create .device).1 }
      (.publish (some (s.ndk.create .device).2) lens again :: rest) g := by
  refine h.next hi ⟨rfl, trivial, rfl, rfl⟩ ?_ ?_ fun p hp => ?_
  · rw [Instr.switches, Instr.switches, hphase]
    rfl
  · refine (h.owned.create .device).congr ?_
    have hpublish : (Instr.publish (some (s.ndk.create .device).2) lens again).owns =
      {(s.ndk.create .device).2} := rfl
    rw [ownedIn_cons, howns, hpublish]
    abel
  · exact h.phase i (.head _) p (hphase ▸ hp)

end Free

end OniroSoc.Camera.Device

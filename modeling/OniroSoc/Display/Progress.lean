import OniroSoc.Display.Waits

/-!
# Nobody waits forever

In a `Sound` state every thread's program has one of the shapes of `Calm` and `Holding`, and one
thread at most has the lock.  Safe steps keep it, and every thread that has something left to do can
go on.
-/

namespace OniroSoc.Display.Waits
open Support List Function

section Shapes
variable {s s' : Composer} {rest todo : List Instr} {env : Env} {instr : Instr}

theorem Calm.tail (h : Calm (instr :: rest)) : Calm rest := by
  cases h with
  | cons _ hrest => exact hrest
  | loop object => exact .nil
  | tick object => exact .loop object

theorem frame_erase (s : Composer) (devId : UInt32) :
    (s.erase devId).1.locked = s.locked ∧ (s.erase devId).1.busy = s.busy := by
  rw [Composer.erase]
  split <;> exact ⟨rfl, rfl⟩

theorem frame_handleHotplug (s : Composer) (env : Env) (hwc2Id : Nat) (connected : Bool) :
    (s.handleHotplug env hwc2Id connected).1.locked = s.locked ∧
      (s.handleHotplug env hwc2Id connected).1.busy = s.busy := by
  obtain ⟨-, heq⟩ | ⟨devId, s₁, -, heq, rfl | rfl⟩ :=
    handleHotplug_cases s env hwc2Id connected <;> rw [heq]
  · exact ⟨rfl, rfl⟩
  · exact frame_erase s devId
  · exact frame_erase s devId

variable {object : Nat}

theorem busy_perform (htick : instr ≠ .softwareVblank object)
    (hloop : instr ≠ .swVsyncLoop object) :
    (perform s env instr).1.busy object = s.busy object := by
  cases instr with
  | event e =>
    cases e with
    | hotplug hwc2Id connected =>
      exact congrFun (frame_handleHotplug { s with locked := true } env _ _).2 object
    | vsync hwc2Id => rfl
  | hdi call => exact congrFun (hdi_cases { s with locked := true } call).1.2 object
  | softwareVblank object' =>
    have hne : object ≠ object' := fun heq => htick (by rw [heq])
    exact update_of_ne hne ..
  | swVsyncLoop object' =>
    have hne : object ≠ object' := fun heq => hloop (by rw [heq])
    show (s.swVsyncLoop env object').1.busy object = _
    rw [Composer.swVsyncLoop]
    dsimp only
    split_ifs <;> exact update_of_ne hne ..
  | _ => rfl

theorem holding_joins {joins : List Instr}
    (hjoins : ∀ instr ∈ joins, ∃ object, instr = .join object) (h : Holding rest) :
    Holding (joins ++ rest) := by
  induction joins with
  | nil => exact h
  | cons instr joins ih =>
    obtain ⟨⟨object, rfl⟩, hrest⟩ := forall_mem_cons.mp hjoins
    exact .join object (ih hrest)

theorem mem_erase {devId : UInt32} (h : instr ∈ (s.erase devId).2) :
    ∃ object, instr = .join object := by
  rw [Composer.erase] at h
  split at h
  · rename_i entry hentry
    rw [Composer.destroy] at h
    dsimp only at h
    split_ifs at h
    · cases h
    · exact ⟨_, mem_singleton.mp h⟩
  · cases h

theorem mem_handleHotplug {hwc2Id : Nat} {connected : Bool}
    (h : instr ∈ (s.handleHotplug env hwc2Id connected).2) :
    (∃ object, instr = .join object) ∨ instr = .unlock ∨ instr = .hotplugCallback := by
  obtain ⟨-, heq⟩ | ⟨devId, s₁, -, heq, -⟩ :=
    handleHotplug_cases s env hwc2Id connected <;> rw [heq] at h
  · exact .inr (.inl (mem_singleton.mp h))
  · rcases mem_append.mp h with h | h
    · exact .inl (mem_erase h)
    · exact .inr ((mem_cons.mp h).imp_right mem_fire)

theorem loop_notMem_perform (h : ∀ object', instr ≠ .swVsyncLoop object') :
    .swVsyncLoop object ∉ (perform s env instr).2 := by
  intro hmem
  cases instr with
  | event e =>
    cases e with
    | hotplug hwc2Id connected => rcases mem_handleHotplug hmem with ⟨_, h⟩ | h | h <;> cases h
    | vsync hwc2Id => rcases mem_onVsync hmem with h | h <;> cases h
  | hdi call => rcases mem_hdi hmem with h | h | h <;> cases h
  | swVsyncLoop object' => exact h object' rfl
  | _ => simp [perform] at hmem

theorem holding_handleHotplug (hrest : Calm rest) (hwc2Id : Nat) (connected : Bool) :
    Holding ((s.handleHotplug env hwc2Id connected).2 ++ rest) := by
  have hfire : Calm (s.fire ++ rest) := by
    refine .append (fun instr hmem => ?_) hrest
    rw [mem_fire hmem]
    rfl
  obtain ⟨-, heq⟩ | ⟨devId, s₁, -, heq, -⟩ :=
    handleHotplug_cases s env hwc2Id connected <;> rw [heq]
  · exact .unlock hrest
  · rw [append_assoc]
    exact holding_joins (fun _ => mem_erase) (.unlock hfire)

theorem holding_hdi (hrest : Calm rest) (call : Hdi) : Holding ((s.hdi call).2 ++ rest) := by
  rcases (hdi_cases s call).2 with heq | ⟨next, heq, rfl | rfl⟩ <;> rw [heq]
  · exact .unlock hrest
  · exact .unlock (.cons rfl hrest)
  · exact .unlock (.cons rfl hrest)

theorem holding_perform (hlocks : instr.locks = true) (hrest : Calm rest) :
    Holding ((perform s env instr).2 ++ rest) ∧ (perform s env instr).1.locked = true := by
  cases instr with
  | event e =>
    cases e with
    | hotplug hwc2Id connected =>
      exact ⟨holding_handleHotplug hrest _ _, (frame_handleHotplug _ _ _ _).1⟩
    | vsync hwc2Id =>
      refine ⟨?_, rfl⟩
      show Holding (s.onVsync env hwc2Id ++ rest)
      rw [Composer.onVsync]
      split
      · split_ifs
        · exact .hardwareVblank (.unlock hrest)
        · exact .unlock hrest
      · exact .unlock hrest
  | hdi call => exact ⟨holding_hdi hrest call, (hdi_cases _ call).1.1⟩
  | snapshot =>
    refine ⟨.unlock (.append (fun instr hmem => ?_) hrest), rfl⟩
    obtain ⟨_, -, rfl⟩ := mem_map.mp hmem
    rfl
  | _ => cases hlocks

theorem calm_calls (hrest : Calm rest) (calls : List Hdi) : Calm (calls.map .hdi ++ rest) := by
  refine .append (fun instr hmem => ?_) hrest
  obtain ⟨call, -, rfl⟩ := mem_map.mp hmem
  rfl

theorem swVsyncLoop_program (s : Composer) (env : Env) (object : Nat) :
    (s.swVsyncLoop env object).2 = [] ∨ (s.swVsyncLoop env object).2 = [.swVsyncLoop object] ∨
      (s.swVsyncLoop env object).2 = [.softwareVblank object, .swVsyncLoop object] := by
  rw [Composer.swVsyncLoop]
  dsimp only
  split_ifs
  · exact .inl rfl
  · exact .inr (.inr rfl)
  · exact .inr (.inl rfl)

theorem calm_swVsyncLoop (s : Composer) (env : Env) (object : Nat) :
    Calm (s.swVsyncLoop env object).2 := by
  rcases swVsyncLoop_program s env object with h | h | h <;> rw [h]
  · exact .nil
  · exact .loop object
  · exact .tick object

theorem locked_swVsyncLoop (s : Composer) (env : Env) (object : Nat) :
    (s.swVsyncLoop env object).1.locked = s.locked := by
  rw [Composer.swVsyncLoop]
  dsimp only
  split_ifs <;> rfl

theorem calm_perform (hcalm : Calm (instr :: rest)) (hlocks : instr.locks = false) :
    Calm ((perform s env instr).2 ++ rest) ∧ (perform s env instr).1.locked = s.locked := by
  cases hcalm with
  | cons hplain hrest =>
    cases instr with
    | registerCallback =>
      refine ⟨.append (fun instr hmem => ?_) hrest, rfl⟩
      obtain ⟨e, -, rfl⟩ := mem_map.mp hmem
      rfl
    | hotplugCallback => exact ⟨calm_calls hrest env.calls, rfl⟩
    | event e => cases hlocks
    | hdi call => cases hlocks
    | snapshot => cases hlocks
    | _ => cases hplain
  | loop object =>
    rw [append_nil]
    exact ⟨calm_swVsyncLoop s env object, locked_swVsyncLoop s env object⟩
  | tick object => exact ⟨calm_calls (.loop object) env.calls, rfl⟩

theorem shape_exec (hshape : Calm (instr :: rest) ∨ Holding (instr :: rest))
    (hsafe : Safe s [] env instr) (hheld : holds (instr :: rest) = true → s.locked = true)
    (hexec : exec s env instr = some (s', todo)) :
    (Calm (todo ++ rest) ∨ Holding (todo ++ rest)) ∧
    (holds (todo ++ rest)).toNat + s.locked.toNat =
      (holds (instr :: rest)).toNat + s'.locked.toNat := by
  obtain ⟨hwait, rfl, rfl⟩ := exec_eq hexec
  rcases hshape with hcalm | hholding
  · cases hlocks : instr.locks with
    | true =>
      have hperform : Holding ((perform s env instr).2 ++ rest) ∧ _ :=
        holding_perform hlocks hcalm.tail
      obtain ⟨hholding, hlocked⟩ := hperform
      have hfree : s.locked = false := (waiting_eq hlocks).symm.trans hwait
      refine ⟨.inr hholding, ?_⟩
      rw [hholding.holds_eq, hcalm.holds_eq, hlocked, hfree]
      rfl
    | false =>
      have hperform : Calm ((perform s env instr).2 ++ rest) ∧ _ := calm_perform hcalm hlocks
      obtain ⟨hnew, hlocked⟩ := hperform
      exact ⟨.inl hnew, by rw [hnew.holds_eq, hcalm.holds_eq, hlocked]⟩
  · cases hholding with
    | unlock hrest =>
      refine ⟨.inl hrest, ?_⟩
      show (holds rest).toNat + s.locked.toNat = 1 + 0
      rw [hrest.holds_eq, hheld rfl]
      rfl
    | join object hrest => exact ⟨.inr hrest, rfl⟩
    | hardwareVblank hrest =>
      have hnone : env.calls = [] := hsafe
      rw [show (perform s env .hardwareVblank).2 = [] by rw [perform, hnone]; rfl]
      exact ⟨.inr hrest, rfl⟩

theorem calm_start {call : Call} (hstart : start s call = some (s', todo)) :
    Calm todo ∧ s'.locked = s.locked ∧ s'.busy = s.busy := by
  rcases start_cases hstart with ⟨rfl, instr, hlocks, rfl⟩ | ⟨object, -, rfl, rfl⟩
  · exact ⟨.cons (by cases instr <;> first | rfl | cases hlocks) .nil, rfl, rfl⟩
  · exact ⟨.loop object, rfl, rfl⟩

theorem loop_mem_start {call : Call} (hstart : start s call = some (s', todo))
    (h : .swVsyncLoop object ∈ todo) :
    todo = [.swVsyncLoop object] ∧ s.swVsyncThread object = .created := by
  rcases start_cases hstart with ⟨rfl, instr, hlocks, rfl⟩ | ⟨object', hcreated, rfl, rfl⟩
  · cases mem_singleton.mp h
    cases hlocks
  · cases mem_singleton.mp h
    exact ⟨rfl, hcreated⟩

end Shapes

structure Sound (s : Composer) (threads : List (List Instr)) : Prop where
  tidy : Tidy s threads.flatten
  shapes : ∀ program ∈ threads, Calm program ∨ Holding program
  mutex : threads.countP holds = s.locked.toNat
  handler : ∀ program ∈ threads, ∀ object, .swVsyncLoop object ∈ program → s.busy object = false →
    program = [.swVsyncLoop object] ∨ program = [.softwareVblank object, .swVsyncLoop object]

section Sound
variable {s s' : Composer} {rest todo program : List Instr} {threads others : List (List Instr)}
  {env : Env} {instr : Instr} {object : Nat}

theorem Sound.congr {threads' : List (List Instr)} (hs : Sound s threads)
    (h : threads.Perm threads') : Sound s threads' where
  tidy := hs.tidy.congr h.flatten
  shapes program hmem := hs.shapes program (h.mem_iff.mpr hmem)
  mutex := (h.countP_eq _).symm.trans hs.mutex
  handler program hmem := hs.handler program (h.mem_iff.mpr hmem)

theorem Sound.init (device : Bool) : Sound { device } [] where
  tidy := ⟨fun _ => rfl, nofun, nofun, nofun, nofun, fun _ _ => ⟨rfl, rfl⟩⟩
  shapes := nofun
  mutex := rfl
  handler := nofun

theorem Sound.locked (hs : Sound s (program :: others)) (h : holds program = true) :
    s.locked = true :=
  (Machine.alone_of_countP hs.mutex h).1

theorem Sound.loop_unique (hs : Sound s (program :: others)) (h : .swVsyncLoop object ∈ program) :
    ∀ program' ∈ others, .swVsyncLoop object ∉ program' := by
  intro program' hmem' h'
  have hone := hs.tidy.loops object
  have hfirst := count_pos_iff.mpr h
  have hsecond := count_pos_iff.mpr (mem_flatten_of_mem hmem' h')
  rw [flatten_cons, count_append] at hone
  split_ifs at hone <;> omega

theorem countP_holds_cons (program : List Instr) (others : List (List Instr)) :
    (program :: others).countP holds = others.countP holds + (holds program).toNat := by
  cases h : holds program with
  | true => exact countP_cons_of_pos h
  | false => exact countP_cons_of_neg (Bool.eq_false_iff.mp h)

theorem rest_of_tick
    (h : Calm (.softwareVblank object :: rest) ∨ Holding (.softwareVblank object :: rest)) :
    rest = [.swVsyncLoop object] := by
  rcases h with h | h
  · cases h with
    | cons h _ => cases h
    | tick _ => rfl
  · cases h

theorem Sound.handler_self (hs : Sound s ((instr :: rest) :: others))
    (hexec : exec s env instr = some (s', todo)) (hloop : .swVsyncLoop object ∈ todo ++ rest)
    (hbusy : s'.busy object = false) :
    todo ++ rest = [.swVsyncLoop object] ∨
    todo ++ rest = [.softwareVblank object, .swVsyncLoop object] := by
  obtain ⟨-, rfl, rfl⟩ := exec_eq hexec
  have hshape := hs.shapes _ (.head _)
  have hother : (∀ object, instr ≠ .softwareVblank object) →
      (∀ object, instr ≠ .swVsyncLoop object) → False := by
    intro hno hno'
    have hmem := (mem_append.mp hloop).resolve_left (loop_notMem_perform hno')
    rw [busy_perform (hno object) (hno' object)] at hbusy
    have hform := hs.handler _ (.head _) object (.tail _ hmem) hbusy
    rcases hform with h | h
    · exact hno' object (List.cons.inj h).1
    · exact hno object (List.cons.inj h).1
  cases instr with
  | softwareVblank object' =>
    obtain rfl := rest_of_tick hshape
    obtain rfl : object = object' := by simpa [perform] using hloop
    have hnone : env.calls = [] := by simpa [perform] using hbusy
    rw [perform, hnone]
    exact .inl rfl
  | swVsyncLoop object' =>
    have hrest : rest = [] := by
      rcases hshape with h | h
      · cases h with
        | cons h _ => cases h
        | loop _ => rfl
      · cases h
    subst hrest
    rw [append_nil] at hloop ⊢
    change .swVsyncLoop object ∈ (s.swVsyncLoop env object').2 at hloop
    show (s.swVsyncLoop env object').2 = _ ∨ (s.swVsyncLoop env object').2 = _
    rcases swVsyncLoop_program s env object' with h | h | h <;> rw [h] at hloop ⊢
    · cases hloop
    · obtain rfl : object = object' := by simpa using hloop
      exact .inl rfl
    · obtain rfl : object = object' := by simpa using hloop
      exact .inr rfl
  | _ => exact (hother (by simp) (by simp)).elim

theorem Sound.exec (hs : Sound s ((instr :: rest) :: others))
    (hsafe : Safe s (rest ++ others.flatten) env instr)
    (hexec : exec s env instr = some (s', todo)) : Sound s' ((todo ++ rest) :: others) := by
  obtain ⟨hshape, hothers⟩ := forall_mem_cons.mp hs.shapes
  obtain ⟨hnew, hlock⟩ := shape_exec hshape hsafe hs.locked hexec
  refine ⟨?_, forall_mem_cons.mpr ⟨hnew, hothers⟩, ?_, ?_⟩
  · rw [flatten_cons, append_assoc]
    exact hs.tidy.exec hsafe hexec
  · have hmutex := hs.mutex
    rw [countP_holds_cons] at hmutex ⊢
    omega
  · refine forall_mem_cons.mpr
      ⟨fun object => hs.handler_self hexec, fun program hmem object hloop hbusy => ?_⟩
    -- two threads would run the loop of the display if this step were about its handler
    have hapart : .swVsyncLoop object ∉ instr :: rest :=
      fun h => hs.loop_unique h program hmem hloop
    have hno : instr ≠ .swVsyncLoop object := by
      rintro rfl
      exact hapart (.head _)
    have hno' : instr ≠ .softwareVblank object := by
      rintro rfl
      obtain rfl := rest_of_tick hshape
      exact hapart (.tail _ (.head _))
    obtain ⟨-, rfl, rfl⟩ := exec_eq hexec
    rw [busy_perform hno' hno] at hbusy
    exact hs.handler program (.tail _ hmem) object hloop hbusy

theorem Sound.start {call : Call} (hs : Sound s threads)
    (hstart : start s call = some (s', program)) : Sound s' (program :: threads) := by
  obtain ⟨hcalm, hlocked, hbusy⟩ := calm_start hstart
  refine ⟨hs.tidy.start hstart, forall_mem_cons.mpr ⟨.inl hcalm, hs.shapes⟩, ?_, ?_⟩
  · rw [countP_holds_cons, hcalm.holds_eq, hlocked, ← hs.mutex]
    rfl
  · rw [hbusy]
    exact forall_mem_cons.mpr
      ⟨fun object hloop _ => .inl (loop_mem_start hstart hloop).1, hs.handler⟩

theorem Sound.step {p p' : Pool Composer Instr} {a : PoolAction Call Env}
    (hs : Sound p.shared p.threads) (ha : Machine.Allowed (fun _ _ _ => True) Safe p a)
    (h : machine.step p a = some p') : Sound p'.shared p'.threads :=
  Machine.step_invariant Sound.congr (fun hs _ => hs.start) Sound.exec hs ha h

end Sound

section Proceeds
variable {p p' p'' : Pool Composer Instr} {i : Nat} {instr : Instr} {rest program : List Instr}
  {object : Nat} {env : Env}

structure Leads (p p' : Pool Composer Instr) : Prop where
  run : ∃ actions, run machine.step p actions = some p'
  sound : Sound p'.shared p'.threads

theorem Leads.refl (hs : Sound p.shared p.threads) : Leads p p := ⟨⟨[], rfl⟩, hs⟩

theorem Leads.trans (h : Leads p p') (h' : Leads p' p'') : Leads p p'' := by
  obtain ⟨actions, hrun⟩ := h.run
  obtain ⟨actions', hrun'⟩ := h'.run
  refine ⟨⟨actions ++ actions', ?_⟩, h'.sound⟩
  rw [run_append, hrun]
  exact hrun'

section
variable (hs : Sound p.shared p.threads)
include hs

theorem Leads.exec (hi : p.threads[i]? = some (instr :: rest))
    (env : Env) (hsafe : Safe p.shared (rest ++ (p.threads.eraseIdx i).flatten) env instr)
    (hwait : waiting p.shared instr = false) :
    Leads p
      ⟨(perform p.shared env instr).1,
       p.threads.set i ((perform p.shared env instr).2 ++ rest)⟩ := by
  have hexec : Waits.exec p.shared env instr = some (perform p.shared env instr) := by
    rw [Waits.exec, hwait]
    rfl
  have hstep := Machine.step_run (m := machine) hi hexec
  refine ⟨⟨[.run i env], ?_⟩, hs.step (Machine.allowed_run hi hsafe) hstep⟩
  rw [run_cons, hstep]
  rfl

theorem loop_ends
    (hi : p.threads[i]? = some [.swVsyncLoop object]) (hrun : p.shared.swVsyncRun object = false) :
    ∃ p', Leads p p' ∧ p'.shared.swVsyncThread object = .ended ∧
      ∀ j ≠ i, p'.threads[j]? = p.threads[j]? := by
  refine ⟨_, .exec hs hi {} trivial rfl, ?_, fun j hne => getElem?_set_ne hne.symm⟩
  show (p.shared.swVsyncLoop {} object).1.swVsyncThread object = .ended
  rw [Composer.swVsyncLoop]
  dsimp only
  rw [hrun]
  exact update_self ..

theorem running_ends
    (hthread : p.shared.swVsyncThread object = .running)
    (hrun : p.shared.swVsyncRun object = false) (hi : p.threads[i]? = some (.join object :: rest)) :
    ∃ p',
      Leads p p' ∧ p'.shared.swVsyncThread object = .ended ∧ p'.threads[i]? = p.threads[i]? := by
  have hbusy : p.shared.busy object = false := by
    cases hbusy : p.shared.busy object with
    | false => rfl
    | true => cases hrun.symm.trans (hs.tidy.busy object hbusy)
  have hone : .swVsyncLoop object ∈ p.threads.flatten := by
    rw [← count_pos_iff, hs.tidy.loops object, if_pos hthread]
    exact Nat.one_pos
  obtain ⟨program, hmem, hloop⟩ := mem_flatten.mp hone
  obtain ⟨k, hk⟩ := mem_iff_getElem?.mp hmem
  have hform := hs.handler program hmem object hloop hbusy
  have hne : i ≠ k := by
    rintro rfl
    cases hi.symm.trans hk
    rcases hform with h | h <;> cases h
  rcases hform with rfl | rfl
  · obtain ⟨p', hleads, hended, hkeep⟩ := loop_ends hs hk hrun
    exact ⟨p', hleads, hended, hkeep i hne⟩
  · -- the handler is called once more, and returns
    have htick := Leads.exec hs hk {} (.inl rfl) rfl
    have hk' : (p.threads.set k [.swVsyncLoop object])[k]? = some [.swVsyncLoop object] :=
      getElem?_set_self (List.getElem?_eq_some_iff.mp hk).1
    obtain ⟨p', hleads, hended, hkeep⟩ := loop_ends htick.sound hk' hrun
    exact ⟨p', htick.trans hleads, hended, (hkeep i hne).trans (getElem?_set_ne hne.symm)⟩

theorem join_ends
    (hi : p.threads[i]? = some (.join object :: rest)) :
    ∃ p',
      Leads p p' ∧ p'.shared.swVsyncThread object = .ended ∧ p'.threads[i]? = p.threads[i]? := by
  have hjoin : .join object ∈ p.threads.flatten :=
    mem_flatten_of_mem (mem_of_getElem? hi) (.head _)
  obtain ⟨hrun, hidle⟩ := hs.tidy.joins object hjoin
  cases hthread : p.shared.swVsyncThread object with
  | idle => exact absurd hthread hidle
  | ended => exact ⟨p, .refl hs, hthread, rfl⟩
  | running => exact running_ends hs hthread hrun hi
  | created =>
    let p₁ : Pool Composer Instr :=
      ⟨{ p.shared with swVsyncThread := Function.update p.shared.swVsyncThread object .running },
        p.threads ++ [[.swVsyncLoop object]]⟩
    have hstep : machine.step p (.start (.swVsyncThread object)) = some p₁ := by
      show (Waits.start p.shared (.swVsyncThread object)).map _ = _
      rw [Waits.start, if_pos hthread]
      rfl
    have hbegin : Leads p p₁ := by
      refine ⟨⟨[.start (.swVsyncThread object)], ?_⟩, hs.step (a := .start (.swVsyncThread object)) trivial hstep⟩
      rw [run_cons, hstep]
      rfl
    have hi₁ : p₁.threads[i]? = some (.join object :: rest) :=
      (getElem?_append_left (List.getElem?_eq_some_iff.mp hi).1).trans hi
    obtain ⟨p', hleads, hended, hkeep⟩ :=
      running_ends hbegin.sound (update_self ..) hrun hi₁
    exact ⟨p', hbegin.trans hleads, hended, hkeep.trans (hi₁.trans hi.symm)⟩

end

theorem released (hprogram : Holding program) (hs : Sound p.shared p.threads)
    (hi : p.threads[i]? = some program) : ∃ p', Leads p p' ∧ p'.shared.locked = false := by
  have hset : ∀ {p : Pool Composer Instr} {program program' : List Instr}, p.threads[i]? =
      some program → (p.threads.set i program')[i]? = some program' := fun hi =>
    getElem?_set_self (List.getElem?_eq_some_iff.mp hi).1
  induction hprogram generalizing p with
  | unlock hrest => exact ⟨_, .exec hs hi {} trivial rfl, rfl⟩
  | join object hrest ih =>
    obtain ⟨p₁, hleads, hended, hkeep⟩ := join_ends hs hi
    have hi₁ := hkeep.trans hi
    have hwait : waiting p₁.shared (.join object) = false := by
      rw [waiting, hended]
      rfl
    have hjoin := Leads.exec hleads.sound hi₁ {} trivial hwait
    obtain ⟨p', hlast, hfree⟩ := ih hjoin.sound (hset hi₁)
    exact ⟨p', (hleads.trans hjoin).trans hlast, hfree⟩
  | hardwareVblank hrest ih =>
    have hcall := Leads.exec hs hi {} rfl rfl
    obtain ⟨p', hlast, hfree⟩ := ih hcall.sound (hset hi)
    exact ⟨p', hcall.trans hlast, hfree⟩

theorem Sound.proceeds (hs : Sound p.shared p.threads) (hi : p.threads[i]? = some (instr :: rest)) :
    machine.Proceeds p i := by
  have hgo : ∀ {p : Pool Composer Instr}, p.threads[i]? = some (instr :: rest) →
      waiting p.shared instr = false → machine.Proceeds p i := by
    intro p hi hwait
    have hexec : Waits.exec p.shared {} instr = some (perform p.shared {} instr) := by
      rw [Waits.exec, hwait]
      rfl
    exact .of_exec hi hexec
  cases hwait : waiting p.shared instr with
  | false => exact hgo hi hwait
  | true =>
    have hlocked : instr.locks = true → machine.Proceeds p i := by
      intro hlocks
      rw [waiting_eq hlocks] at hwait
      have hholder : 0 < p.threads.countP holds := by
        rw [hs.mutex, hwait]
        exact Nat.one_pos
      obtain ⟨program, hmem, hholds⟩ := countP_pos_iff.mp hholder
      have hholding : Holding program := (hs.shapes program hmem).resolve_left fun hcalm => by
        cases hholds.symm.trans hcalm.holds_eq
      obtain ⟨j, hj⟩ := mem_iff_getElem?.mp hmem
      obtain ⟨p', ⟨⟨actions, hrun⟩, -⟩, hfree⟩ := released hholding hs hj
      rcases Machine.stays_or_proceeds hrun hi with h | hi'
      · exact h
      · exact .of_run hrun (hgo hi' ((waiting_eq hlocks).trans hfree))
    cases instr with
    | join object =>
      obtain ⟨p', ⟨⟨actions, hrun⟩, -⟩, hended, hkeep⟩ := join_ends hs hi
      refine .of_run hrun (hgo (hkeep.trans hi) ?_)
      rw [waiting, hended]
      rfl
    | event e => exact hlocked rfl
    | hdi call => exact hlocked rfl
    | snapshot => exact hlocked rfl
    | _ => cases hwait

end Proceeds

end OniroSoc.Display.Waits

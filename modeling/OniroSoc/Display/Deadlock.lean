import OniroSoc.Display.Progress

/-!
# When the composer does not deadlock

The runs that stay `Fluent` are those whose steps all fit: a hardware vsync is for a display without
a vblank callback, and a display that is destroyed never had a software-vsync thread.
-/

namespace OniroSoc.Display.Waits
open Support List Function

def Instr.callsClient : Instr → Bool
  | .hotplugCallback | .hardwareVblank | .softwareVblank _ => true
  | _ => false

/-- Nobody is stuck, and nothing that may wait for the lock is called or joined with the lock. -/
structure Fluent (p : Pool Composer Instr) : Prop where
  proceeds : ∀ i instr rest, p.threads[i]? = some (instr :: rest) → machine.Proceeds p i
  handlers : ∀ instr rest, instr :: rest ∈ p.threads → instr.callsClient = true → holds rest = false
  joins : ∀ object rest, .join object :: rest ∈ p.threads → holds rest = false

def Fits (s : Composer) (_ : List Instr) (env : Env) : Instr → Prop
  | .event (.vsync hwc2Id) => ∀ entry ∈ s.matching env hwc2Id, s.vblankCb entry.2.object = false
  | .event (.hotplug hwc2Id connected) =>
    ∀ object ∈ s.destroyed env (.hotplug hwc2Id connected), s.swVsyncThread object = .idle
  | _ => True

def Instr.Gentle (s : Composer) : Instr → Prop
  | .join _ | .hardwareVblank => False
  | .softwareVblank object => s.swVsyncRun object = true
  | _ => True

structure Gentle (s : Composer) (work : List Instr) : Prop where
  work : ∀ instr ∈ work, instr.Gentle s
  threads : ∀ object, s.swVsyncThread object = .idle ↔ s.swVsyncRun object = false

structure Grows (s s' : Composer) : Prop where
  run : ∀ object, s.swVsyncRun object = true → s'.swVsyncRun object = true
  threads : ∀ object, s'.swVsyncThread object = .idle ↔ s'.swVsyncRun object = false

section Gentle
variable {s s' : Composer} {rest todo work : List Instr} {env : Env} {instr : Instr} {object : Nat}

namespace Gentle

theorem congr {work' : List Instr} (hg : Gentle s work) (h : work.Perm work') :
    Gentle s work' :=
  ⟨fun instr hmem => hg.work instr (h.mem_iff.mpr hmem), hg.threads⟩

theorem same (hg : Gentle s work) (hthread : s'.swVsyncThread = s.swVsyncThread)
    (hrun : s'.swVsyncRun = s.swVsyncRun) : Grows s s' := by
  refine ⟨fun object h => ?_, ?_⟩
  · rwa [hrun]
  · rw [hthread, hrun]
    exact hg.threads

theorem grow (hg : Gentle s (instr :: rest)) (hgrows : Grows s s')
    (htodo : ∀ instr ∈ todo, instr.Gentle s') : Gentle s' (todo ++ rest) := by
  refine ⟨fun instr' hmem => ?_, hgrows.threads⟩
  rcases mem_append.mp hmem with hmem | hmem
  · exact htodo instr' hmem
  · have hbefore := hg.work instr' (.tail _ hmem)
    cases instr' with
    | softwareVblank object => exact hgrows.run object hbefore
    | _ => exact hbefore

theorem safe (ht : Tidy s (instr :: rest)) (hg : Gentle s (instr :: rest))
    (hfits : Fits s rest env instr) : Safe s rest env instr := by
  have hinstr := hg.work instr (.head _)
  cases instr with
  | event e =>
    cases e with
    | hotplug hwc2Id connected =>
      intro object hmem
      have hstop := (hg.threads object).mp (hfits object hmem)
      cases hbusy : s.busy object with
      | false => rfl
      | true => cases hstop.symm.trans (ht.busy object hbusy)
    | vsync hwc2Id => exact fun object hmem => nomatch hmem
  | hardwareVblank => exact hinstr.elim
  | softwareVblank object => exact .inr hinstr
  | _ => trivial

section
variable (hg : Gentle s work)
include hg

theorem erase {devId : UInt32}
    (hidle : ∀ entry, s.displays.lookup devId = some entry → s.swVsyncThread entry.object = .idle) :
    (s.erase devId).2 = [] ∧
    (s.erase devId).1.swVsyncThread = s.swVsyncThread ∧
    (s.erase devId).1.swVsyncRun = s.swVsyncRun := by
  rw [Composer.erase]
  cases hentry : s.displays.lookup devId with
  | none => exact ⟨rfl, rfl, rfl⟩
  | some entry =>
    have hthread := hidle entry hentry
    have hrun := (hg.threads entry.object).mp hthread
    refine ⟨if_pos hthread, rfl, ?_⟩
    show Function.update s.swVsyncRun entry.object false = s.swVsyncRun
    rw [← hrun, update_eq_self]

theorem handleHotplug {hwc2Id : Nat} {connected : Bool}
    (hfits : ∀ object ∈ s.destroyed env (.hotplug hwc2Id connected),
    s.swVsyncThread object = .idle) :
    Grows s (s.handleHotplug env hwc2Id connected).1 ∧
      ∀ instr ∈ (s.handleHotplug env hwc2Id connected).2,
      instr = .unlock ∨ instr = .hotplugCallback := by
  obtain ⟨-, heq⟩ | ⟨devId, s₁, hdestroyed, heq, hs₁⟩ := handleHotplug_cases s env hwc2Id connected
  · rw [heq]
    exact ⟨hg.same rfl rfl, fun _ h => .inl (mem_singleton.mp h)⟩
  · rw [hdestroyed] at hfits
    obtain ⟨hjoins, hthread, hrun⟩ :=
      hg.erase fun entry hentry => hfits _ (Option.mem_map_of_mem _ hentry)
    rw [heq, hjoins]
    refine ⟨?_, fun instr hmem => (mem_cons.mp hmem).imp_right mem_fire⟩
    rcases hs₁ with rfl | rfl
    · exact hg.same hthread hrun
    · exact hg.same hthread hrun

theorem ensureSwVsyncThread (object : Nat) :
    Grows s (s.ensureSwVsyncThread object) := by
  rw [Composer.ensureSwVsyncThread]
  split_ifs
  · exact hg.same rfl rfl
  · refine ⟨fun object' h => ?_, fun object' => ?_⟩
    · by_cases heq : object' = object
      · subst heq
        exact update_self ..
      · exact (update_of_ne heq ..).trans h
    · dsimp only
      by_cases heq : object' = object
      · subst heq
        simp
      · rw [update_of_ne heq, update_of_ne heq]
        exact hg.threads object'

theorem hdi (call : Hdi) : Grows s (s.hdi call).1 := by
  cases call with
  | regHotPlugCallback =>
    rw [Composer.hdi]
    dsimp only
    split_ifs <;> exact hg.same rfl rfl
  | regDisplayVBlankCallback devId cb =>
    rw [Composer.hdi]
    split <;> exact hg.same rfl rfl
  | setDisplayVsyncEnabled devId enabled =>
    rw [Composer.hdi]
    split
    · rename_i entry hentry
      dsimp only
      split_ifs
      · have hset : Gentle { s with vsyncEnabled := Function.update s.vsyncEnabled entry.object enabled } [] :=
          ⟨forall_mem_nil _, hg.threads⟩
        have hgrows := hset.ensureSwVsyncThread entry.object
        exact { hgrows with }
      · exact hg.same rfl rfl
    · exact hg.same rfl rfl
  | other => exact hg.same rfl rfl

end

theorem swVsyncLoop (ht : Tidy s (.swVsyncLoop object :: rest))
    (hg : Gentle s (.swVsyncLoop object :: rest)) :
    Grows s (s.swVsyncLoop env object).1 ∧
    ∀ instr ∈ (s.swVsyncLoop env object).2, instr.Gentle (s.swVsyncLoop env object).1 := by
  have hrun : s.swVsyncRun object = true := by
    cases hrun : s.swVsyncRun object with
    | true => rfl
    | false => cases ht.running.symm.trans ((hg.threads object).mpr hrun)
  rw [Composer.swVsyncLoop]
  dsimp only
  rw [if_neg (by simp [hrun])]
  split_ifs
  · refine ⟨hg.same rfl rfl, forall_mem_cons.mpr ⟨hrun, fun instr hmem => ?_⟩⟩
    cases mem_singleton.mp hmem
    trivial
  · refine ⟨hg.same rfl rfl, fun instr hmem => ?_⟩
    cases mem_singleton.mp hmem
    trivial

theorem exec (ht : Tidy s (instr :: rest)) (hg : Gentle s (instr :: rest))
    (hfits : Fits s rest env instr) (hexec : exec s env instr = some (s', todo)) :
    Gentle s' (todo ++ rest) := by
  obtain ⟨-, rfl, rfl⟩ := exec_eq hexec
  have hlocked : Gentle { s with locked := true } (instr :: rest) := { hg with }
  have hinstr := hg.work instr (.head _)
  have hcalls : ∀ {s : Composer}, ∀ instr ∈ env.calls.map Instr.hdi, instr.Gentle s := by
    intro s instr hmem
    obtain ⟨call, -, rfl⟩ := mem_map.mp hmem
    trivial
  cases instr with
  | event e =>
    cases e with
    | hotplug hwc2Id connected =>
      obtain ⟨hgrows, htodo⟩ := hlocked.handleHotplug hfits
      refine hlocked.grow hgrows fun instr hmem => ?_
      rcases htodo instr hmem with rfl | rfl <;> trivial
    | vsync hwc2Id =>
      refine hg.grow (hg.same rfl rfl) fun instr hmem => ?_
      have hunlock : (s.onVsync env hwc2Id) = [.unlock] := by
        rw [Composer.onVsync]
        split
        · rename_i entry hmatch
          exact if_neg (by simp [hfits entry hmatch])
        · rfl
      change instr ∈ s.onVsync env hwc2Id at hmem
      rw [hunlock] at hmem
      cases mem_singleton.mp hmem
      trivial
  | hdi call =>
    refine hlocked.grow (hlocked.hdi call) fun instr hmem => ?_
    rcases mem_hdi hmem with rfl | rfl | rfl <;> trivial
  | snapshot =>
    refine hg.grow (hg.same rfl rfl) (forall_mem_cons.mpr ⟨trivial, fun instr hmem => ?_⟩)
    obtain ⟨_, -, rfl⟩ := mem_map.mp hmem
    trivial
  | registerCallback =>
    refine hg.grow (hg.same rfl rfl) fun instr hmem => ?_
    obtain ⟨e, -, rfl⟩ := mem_map.mp hmem
    trivial
  | join object => exact hinstr.elim
  | unlock => exact hg.grow (hg.same rfl rfl) (forall_mem_nil _)
  | hotplugCallback => exact hg.grow (hg.same rfl rfl) hcalls
  | hardwareVblank => exact hinstr.elim
  | softwareVblank object => exact hg.grow (hg.same rfl rfl) hcalls
  | swVsyncLoop object =>
    obtain ⟨hgrows, htodo⟩ := swVsyncLoop ht hg
    exact hg.grow hgrows htodo

theorem start {call : Call} {program : List Instr} (hg : Gentle s work)
    (hstart : start s call = some (s', program)) : Gentle s' (program ++ work) := by
  rcases start_cases hstart with ⟨rfl, instr, hlocks, rfl⟩ | ⟨object, hcreated, rfl, rfl⟩
  · refine ⟨forall_mem_cons.mpr ⟨?_, hg.work⟩, hg.threads⟩
    cases instr <;> trivial
  · refine ⟨forall_mem_cons.mpr ⟨trivial, hg.work⟩, fun object' => ?_⟩
    dsimp only
    by_cases heq : object' = object
    · subst heq
      rw [update_self, ← hg.threads object', hcreated]
      exact ⟨nofun, nofun⟩
    · rw [update_of_ne heq]
      exact hg.threads object'

end Gentle

end Gentle

structure Fitting (s : Composer) (threads : List (List Instr)) : Prop where
  sound : Sound s threads
  gentle : Gentle s threads.flatten

section Fitting
variable {p p' : Pool Composer Instr}

theorem Fitting.step {a : PoolAction Call Env} (hf : Fitting p.shared p.threads)
    (ha : Machine.Allowed (fun _ _ _ => True) Fits p a) (h : machine.step p a = some p') :
    Fitting p'.shared p'.threads := by
  refine Machine.step_invariant
    (fun hf hperm => ⟨hf.sound.congr hperm, hf.gentle.congr hperm.flatten⟩)
    (fun hf _ hstart => ⟨hf.sound.start hstart, hf.gentle.start hstart⟩) ?_ hf ha h
  intro s rest others env instr s' todo hf hfits hexec
  have hsafe := Gentle.safe hf.sound.tidy hf.gentle hfits
  refine ⟨hf.sound.exec hsafe hexec, ?_⟩
  rw [flatten_cons, append_assoc]
  exact Gentle.exec hf.sound.tidy hf.gentle hfits hexec

theorem Fitting.fluent (hf : Fitting p.shared p.threads) : Fluent p := by
  have hgentle : ∀ {instr rest}, instr :: rest ∈ p.threads → instr.Gentle p.shared := fun hmem =>
    hf.gentle.work _ (mem_flatten_of_mem hmem (.head _))
  refine ⟨fun i instr rest => hf.sound.proceeds, fun instr rest hmem hcalls => ?_,
    fun object rest hmem => ?_⟩
  · rcases hf.sound.shapes _ hmem with hcalm | hholding
    · exact hcalm.tail.holds_eq
    · cases hholding with
      | unlock _ => cases hcalls
      | join _ _ => cases hcalls
      | hardwareVblank _ => exact (hgentle hmem).elim
  · exact (hgentle hmem).elim

theorem handleHotplug_joins {s : Composer} {env : Env} {hwc2Id : Nat} {connected : Bool}
    {object : Nat} (hmem : object ∈ s.destroyed env (.hotplug hwc2Id connected))
    (hthread : s.swVsyncThread object ≠ .idle) :
    (s.handleHotplug env hwc2Id connected).2 = .join object :: .unlock :: s.fire := by
  obtain ⟨hnone, -⟩ | ⟨devId, s₁, hdestroyed, heq, -⟩ := handleHotplug_cases s env hwc2Id connected
  · rw [hnone] at hmem
    cases hmem
  · rw [hdestroyed] at hmem
    obtain ⟨entry, hentry, rfl⟩ := Option.map_eq_some_iff.mp hmem
    have herase : (s.erase devId).2 = [.join entry.object] := by
      rw [Composer.erase, hentry]
      exact if_neg hthread
    rw [heq, herase]
    rfl

theorem not_fluent {a : PoolAction Call Env} (ha : ¬ Machine.Allowed (fun _ _ _ => True) Fits p a)
    (h : machine.step p a = some p') : ¬ Fluent p' := by
  intro hfluent
  cases Machine.stepped h with
  | starts _ => exact ha trivial
  | @runs i env instr rest todo shared hi hexec =>
    have hmem : todo ++ rest ∈ p.threads.set i (todo ++ rest) :=
      mem_of_getElem? (getElem?_set_self (List.getElem?_eq_some_iff.mp hi).1)
    refine ha (Machine.allowed_run hi ?_)
    obtain ⟨-, rfl, rfl⟩ := exec_eq hexec
    cases instr with
    | event e =>
      cases e with
      | hotplug hwc2Id connected =>
        intro object hdestroyed
        by_contra hthread
        have hjoin : (perform p.shared env (.event (.hotplug hwc2Id connected))).2 =
          .join object :: .unlock :: p.shared.fire := handleHotplug_joins hdestroyed hthread
        rw [hjoin] at hmem hfluent
        cases hfluent.joins object _ hmem
      | vsync hwc2Id =>
        intro entry hmatch
        by_contra hcb
        have hcall : (perform p.shared env (.event (.vsync hwc2Id))).2 = [.hardwareVblank, .unlock] := by
          show p.shared.onVsync env hwc2Id = _
          rw [Composer.onVsync, hmatch]
          exact if_pos (Bool.eq_true_of_not_eq_false hcb)
        rw [hcall] at hmem hfluent
        cases hfluent.handlers .hardwareVblank _ hmem rfl
    | _ => trivial

/-- **The runs of the composer in which nobody waits forever**, no handler is called with the lock
and no thread is joined with it. -/
theorem composer_fluent {device : Bool} {actions : List (PoolAction Call Env)}
    (hrun : run machine.step ⟨{ device }, []⟩ actions = some p) :
    Always machine.step Fluent ⟨{ device }, []⟩ actions ↔
      Along machine.step (Machine.Allowed (fun _ _ _ => True) Fits) ⟨{ device }, []⟩ actions :=
  always_iff_along (J := fun p => Fitting p.shared p.threads) (fun _ hf => hf.fluent)
    (fun _ _ _ hf ha h => hf.step ha h) (fun _ _ _ _ ha h => not_fluent ha h) hrun
    ⟨Sound.init device, nofun, fun _ => ⟨fun _ => rfl, fun _ => rfl⟩⟩

def softwareVsync : List (PoolAction Call Env) :=
  [.start (.hdi .regHotPlugCallback), .run 0 {}, .run 0 {}, .run 0 { events := [.hotplug 7 true] },
    .run 0 {}, .run 0 {}, .run 0 { calls := [.regDisplayVBlankCallback 0 true,
    .setDisplayVsyncEnabled 0 true] }, .run 0 {}, .run 0 {}, .run 0 {}, .run 0 {},
    .start (.swVsyncThread 0), .run 1 {}, .run 1 { calls := [.other] }]

theorem composer_fluent_software :
    Always machine.step Fluent ⟨{ device := true }, []⟩ softwareVsync := by
  refine (composer_fluent rfl).mpr ?_
  repeat first
    | exact trivial
    | refine along_cons trivial rfl ?_
    | refine along_cons (Machine.allowed_run rfl trivial) rfl ?_
    | refine along_cons (Machine.allowed_run rfl fun object h => nomatch h) rfl ?_

end Fitting

structure HeldBy (i : Nat) (p : Pool Composer Instr) : Prop where
  locked : p.shared.locked = true
  others : ∀ j program, j ≠ i → p.threads[j]? = some program → Calm program

section Stuck
variable {p p' : Pool Composer Instr} {i k : Nat} {instr : Instr} {rest rest' : List Instr}
  {object : Nat} {a : PoolAction Call Env} {env : Env}

theorem locks_exec {s : Composer} (hlocked : s.locked = true) (hlocks : instr.locks = true) :
    exec s env instr = none := if_pos ((waiting_eq hlocks).trans hlocked)

theorem step_none (hi : p.threads[i]? = some (instr :: rest))
    (h : exec p.shared env instr = none) : machine.step p (.run i env) = none := by
  rw [Machine.step, hi]
  dsimp only
  rw [show machine.exec p.shared env instr = none from h]
  rfl

theorem getElem?_append_singleton {program new : List Instr} {threads : List (List Instr)} {j : Nat}
    (h : (threads ++ [new])[j]? = some program) : program = new ∨ threads[j]? = some program := by
  by_cases hlt : j < threads.length
  · exact .inr ((getElem?_append_left hlt).symm.trans h)
  · rw [getElem?_append_right (Nat.le_of_not_lt hlt)] at h
    exact .inl (mem_singleton.mp (mem_of_getElem? h))

theorem HeldBy.step (hh : HeldBy i p) (hstep : machine.step p a = some p')
    (ha : ∀ env, a ≠ .run i env) : HeldBy i p' := by
  cases Machine.stepped hstep with
  | starts hstart =>
    obtain ⟨hcalm, hlocked, -⟩ := calm_start hstart
    refine ⟨hlocked.trans hh.locked, fun j program hne hj => ?_⟩
    rcases getElem?_append_singleton hj with rfl | hj
    · exact hcalm
    · exact hh.others j program hne hj
  | @runs j env instr rest todo shared hj hexec =>
    have hne : j ≠ i := fun heq => ha env (by rw [heq])
    have hcalm := hh.others j _ hne hj
    have hlocks : instr.locks = false := by
      cases hlocks : instr.locks with
      | false => rfl
      | true => cases (locks_exec hh.locked hlocks).symm.trans hexec
    obtain ⟨-, rfl, rfl⟩ := exec_eq hexec
    have hperform : Calm ((perform p.shared env instr).2 ++ rest) ∧ _ := calm_perform hcalm hlocks
    obtain ⟨hnew, hlocked⟩ := hperform
    refine ⟨hlocked.trans hh.locked, fun j' program hne' hj' => ?_⟩
    rw [getElem?_set] at hj'
    split_ifs at hj' with heq
    · cases hj'
      exact hnew
    · exact hh.others j' program hne' hj'

theorem relock_stuck (hh : HeldBy i p) (hi : p.threads[i]? = some (instr :: rest))
    (hlocks : instr.locks = true) : ¬ machine.Proceeds p i := by
  have hno : ∀ p env, HeldBy i p ∧ p.threads[i]? = some (instr :: rest) →
      machine.step p (.run i env) = none :=
        fun p env hp => step_none hp.2 (locks_exec hp.1.locked hlocks)
  refine Machine.not_proceeds
    (I := fun p => HeldBy i p ∧ p.threads[i]? = some (instr :: rest)) ?_ hno ⟨hh, hi⟩
  intro p a p' hp hstep
  rcases Machine.stays_or_runs hstep hp.2 with ⟨env, rfl⟩ | hstay
  · cases (hno p env hp).symm.trans hstep
  · refine ⟨hp.1.step hstep ?_, hstay⟩
    rintro env rfl
    cases (hno p env hp).symm.trans hstep

structure Embraced (i k object : Nat) (instr : Instr) (rest rest' : List Instr)
    (p : Pool Composer Instr) : Prop where
  held : HeldBy i p
  joiner : p.threads[i]? = some (.join object :: rest)
  caller : p.threads[k]? = some (instr :: rest')
  locks : instr.locks = true
  running : p.shared.swVsyncThread object = .running
  others : ∀ j program, j ≠ k → p.threads[j]? = some program → .swVsyncLoop object ∉ program

theorem Embraced.joiner_waits (he : Embraced i k object instr rest rest' p) :
    machine.step p (.run i env) = none := by
  refine step_none he.joiner (if_pos ?_)
  rw [waiting, he.running]
  rfl

theorem Embraced.caller_waits (he : Embraced i k object instr rest rest' p) :
    machine.step p (.run k env) = none :=
  step_none he.caller (locks_exec he.held.locked he.locks)

theorem loop_perform {s : Composer} (hlocks : instr.locks = false)
    (hmem : .swVsyncLoop object ∉ instr :: rest) :
    (perform s env instr).1.swVsyncThread object = s.swVsyncThread object ∧
    .swVsyncLoop object ∉ (perform s env instr).2 ++ rest := by
  obtain ⟨hinstr, hrest⟩ := not_or.mp (mt mem_cons.mpr hmem)
  have hnew : (∀ object', instr ≠ .swVsyncLoop object') →
      .swVsyncLoop object ∉ (perform s env instr).2 ++ rest := fun hno h =>
    (mem_append.mp h).elim (loop_notMem_perform hno) hrest
  cases instr with
  | event e => cases hlocks
  | hdi call => cases hlocks
  | snapshot => cases hlocks
  | swVsyncLoop object' =>
    have hne : object ≠ object' := fun heq => hinstr (by rw [heq])
    constructor
    · show (s.swVsyncLoop env object').1.swVsyncThread object = _
      rw [Composer.swVsyncLoop]
      dsimp only
      split_ifs
      · exact update_of_ne hne ..
      · rfl
      · rfl
    · intro h
      refine (mem_append.mp h).elim (fun h => ?_) hrest
      change .swVsyncLoop object ∈ (s.swVsyncLoop env object').2 at h
      rcases swVsyncLoop_program s env object' with hp | hp | hp <;> rw [hp] at h <;> simp [hne] at h
  | _ => exact ⟨rfl, hnew (by simp)⟩

theorem Embraced.step (he : Embraced i k object instr rest rest' p)
    (hstep : machine.step p a = some p') : Embraced i k object instr rest rest' p' := by
  have hi : ∀ env, a ≠ .run i env := by
    rintro env rfl
    cases he.joiner_waits.symm.trans hstep
  have hk : ∀ env, a ≠ .run k env := by
    rintro env rfl
    cases he.caller_waits.symm.trans hstep
  have hjoiner := (Machine.stays_or_runs hstep he.joiner).resolve_left fun ⟨env, h⟩ => hi env h
  have hcaller := (Machine.stays_or_runs hstep he.caller).resolve_left fun ⟨env, h⟩ => hk env h
  have hheld := he.held.step hstep hi
  cases Machine.stepped hstep with
  | starts hstart =>
    refine ⟨hheld, hjoiner, hcaller, he.locks, ?_, fun j program hne hj => ?_⟩
    · rcases start_cases hstart with ⟨rfl, -⟩ | ⟨object', hcreated, -, rfl⟩
      · exact he.running
      · have hne : object ≠ object' := by
          rintro rfl
          cases he.running.symm.trans hcreated
        exact (update_of_ne hne ..).trans he.running
    · rcases getElem?_append_singleton hj with rfl | hj
      · exact fun h => by cases he.running.symm.trans (loop_mem_start hstart h).2
      · exact he.others j program hne hj
  | @runs j env instr rest todo shared hj hexec =>
    have hne : j ≠ k := fun heq => hk env (by rw [heq])
    have hlocks : instr.locks = false := by
      cases hlocks : instr.locks with
      | false => rfl
      | true => cases (locks_exec he.held.locked hlocks).symm.trans hexec
    obtain ⟨-, rfl, rfl⟩ := exec_eq hexec
    have hperform : _ ∧ .swVsyncLoop object ∉ (perform p.shared env instr).2 ++ rest :=
      loop_perform hlocks (he.others j _ hne hj)
    obtain ⟨hthread, hnew⟩ := hperform
    refine ⟨hheld, hjoiner, hcaller, he.locks, hthread.trans he.running,
      fun j' program hne' hj' => ?_⟩
    rw [getElem?_set] at hj'
    split_ifs at hj' with heq
    · cases hj'
      exact hnew
    · exact he.others j' program hne' hj'

theorem Embraced.stuck (he : Embraced i k object instr rest rest' p) :
    ¬ machine.Proceeds p i ∧ ¬ machine.Proceeds p k :=
  ⟨Machine.not_proceeds (I := Embraced i k object instr rest rest') (fun _ _ _ he h => he.step h)
    (fun _ _ he => he.joiner_waits) he, Machine.not_proceeds (I :=
      Embraced i k object instr rest rest') (fun _ _ _ he h =>
    he.step h) (fun _ _ he => he.caller_waits) he⟩

def hardwareVsync : List (PoolAction Call Env) :=
  [.start (.hdi .regHotPlugCallback), .run 0 {}, .run 0 {}, .run 0 { events := [.hotplug 7 true] },
    .run 0 {}, .run 0 {}, .run 0 { calls := [.regDisplayVBlankCallback 0 true] }, .run 0 {},
    .run 0 {}, .start (.event (.vsync 7)), .run 1 {}, .run 1 { calls := [.other] }]

def unplugged : List (PoolAction Call Env) :=
  softwareVsync ++ [.start (.event (.hotplug 7 false)), .run 2 {}]

theorem heldBy_second {program : List Instr} (hlocked : p.shared.locked = true)
    (hthreads : p.threads = [[], program]) : HeldBy 1 p := by
  refine ⟨hlocked, fun j program' hne hj => ?_⟩
  rw [hthreads] at hj
  match j with
  | 0 =>
    cases hj
    exact .nil
  | 1 => exact absurd rfl hne
  | j + 2 => cases hj

theorem embraced_third (hlocks : instr.locks = true) (hrest : .swVsyncLoop object ∉ rest)
    (hcaller : Calm (instr :: rest')) (hlocked : p.shared.locked = true)
    (hrunning : p.shared.swVsyncThread object = .running)
    (hthreads : p.threads = [[], instr :: rest', .join object :: rest]) :
    Embraced 2 1 object instr rest rest' p := by
  refine ⟨⟨hlocked, fun j program hne hj => ?_⟩, by rw [hthreads]; rfl, by rw [hthreads]; rfl,
    hlocks, hrunning, fun j program hne hj => ?_⟩
  · rw [hthreads] at hj
    match j with
    | 0 =>
      cases hj
      exact .nil
    | 1 =>
      cases hj
      exact hcaller
    | 2 => exact absurd rfl hne
    | j + 3 => cases hj
  · rw [hthreads] at hj
    match j with
    | 0 =>
      cases hj
      exact not_mem_nil
    | 1 => exact absurd rfl hne
    | 2 =>
      cases hj
      exact fun h => hrest ((mem_cons.mp h).resolve_left nofun)
    | j + 3 => cases hj

theorem composer_stuck :
    (∃ p,
       run machine.step ⟨{ device := true }, []⟩ hardwareVsync = some p ∧ ¬ machine.Proceeds p 1) ∧
    ∃ p, run machine.step ⟨{ device := true }, []⟩ unplugged = some p ∧ ¬ machine.Proceeds p 2 ∧
      ¬ machine.Proceeds p 1 := by
  constructor
  · exact ⟨_, rfl, relock_stuck (heldBy_second rfl rfl) rfl rfl⟩
  · have hrest : Instr.swVsyncLoop 0 ∉ [.unlock, .hotplugCallback] := by decide
    exact ⟨_, rfl, (embraced_third rfl hrest (.cons rfl (.loop 0)) rfl rfl rfl).stuck⟩

end Stuck

end OniroSoc.Display.Waits

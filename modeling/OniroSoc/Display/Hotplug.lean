import OniroSoc.Support.Lookup
import OniroSoc.Support.Pool

/-!
# What clients know about the displays

`HandleHotplug` keeps `displays_` and tells the registered client about a change;
`RegHotPlugCallback` makes a client the registered one and tells it what is connected.  Both call
the client without `mutex_`, so the calls may come in another order than the changes.
-/

namespace OniroSoc.Display.Hotplug
open Support List Option Function

structure Composer where
  device : Bool
  displays : AList fun _ : UInt32 => Nat := ∅
  nextDevId : UInt32 := 0
  hotplugCb : Option Nat := none
  (hwc2CallbackRegistered listening : Bool := false)
  received : Nat → List (UInt32 × Bool) := fun _ => []
  last : Nat → Option Bool := fun _ => none

/-- The device ids that a client has after these notifications. -/
def view (notifications : List (UInt32 × Bool)) : Finset UInt32 :=
  notifications.foldl (fun ids notification =>
    if notification.2 then insert notification.1 ids else ids.erase notification.1) ∅

inductive Instr where
  | handleHotplug (hwc2Id : Nat) (connected : Bool)
  | fire (client : Nat) (devId : UInt32) (connected : Bool)
  | register (client : Nat)
  | registerCallback
  | snapshot (client : Nat)
deriving DecidableEq

inductive Call where
  | onHotplug (hwc2Id : Nat) (connected : Bool)
  | regHotPlugCallback (client : Nat)

structure Env where
  found : Bool := true
  first : UInt32 := 0
  events : List (Nat × Bool) := []

namespace Composer

def notify (s : Composer) (devId : UInt32) (connected : Bool) : List Instr :=
  (s.hotplugCb.map fun client => .fire client devId connected).toList

def matching (s : Composer) (env : Env) (hwc2Id : Nat) : Option UInt32 :=
  if s.displays.lookup env.first = some hwc2Id then some env.first
  else (s.displays.entries.find? (·.2 = hwc2Id)).map (·.1)

def handleHotplug (s : Composer) (env : Env) (hwc2Id : Nat)
    (connected : Bool) : Composer × List Instr :=
  let s := { s with last := Function.update s.last hwc2Id (some connected) }
  if connected then
    if !env.found then (s, [])
    else
      let devId := s.nextDevId
      ({ s with nextDevId := s.nextDevId + 1, displays := s.displays.insert devId hwc2Id },
        s.notify devId true)
  else
    match s.matching env hwc2Id with
    | some devId => ({ s with displays := s.displays.erase devId }, s.notify devId false)
    | none => (s, [])

def regHotPlugCallback (s : Composer) (client : Nat) : Composer × List Instr :=
  let s := { s with hotplugCb := some client, received := Function.update s.received client [] }
  if !s.hwc2CallbackRegistered &&
    s.device then ({ s with hwc2CallbackRegistered := true }, [.registerCallback])
  else (s, [.snapshot client])

end Composer

def start (s : Composer) : Call → Option (Composer × List Instr)
  | .onHotplug hwc2Id connected =>
    if s.listening then some (s, [.handleHotplug hwc2Id connected]) else none
  | .regHotPlugCallback client => some (s, [.register client])

def exec (s : Composer) (env : Env) : Instr → Option (Composer × List Instr)
  | .handleHotplug hwc2Id connected => some (s.handleHotplug env hwc2Id connected)
  | .fire client devId connected =>
    some ({ s with
      received :=
        Function.update s.received client (s.received client ++ [(devId, connected)]) }, [])
  | .register client => some (s.regHotPlugCallback client)
  | .registerCallback =>
    some ({ s with listening := true }, env.events.map fun event => .handleHotplug event.1 event.2)
  | .snapshot client => some (s, s.displays.keys.map fun devId => .fire client devId true)

def machine : Machine Composer Instr Call Env := ⟨start, exec⟩

/-- The condition on an instruction, with what is left to do besides.  A display connects that has
no entry, under a device id that has none and about which nobody is still to be told; and the
registered client is told that a display is there while it is, or before it is told that it is
not. -/
def Fits (s : Composer) (rest : List Instr) (env : Env) : Instr → Prop
  | .handleHotplug hwc2Id true =>
    env.found = true → (∀ devId, s.displays.lookup devId ≠ some hwc2Id) ∧
      s.nextDevId ∉ s.displays ∧ ∀ client connected, .fire client s.nextDevId connected ∉ rest
  | .fire client devId true =>
    s.hotplugCb = some client → devId ∈ s.displays ∨ .fire client devId false ∈ rest
  | _ => True

structure Sound (s : Composer) (work : List Instr) : Prop where
  unique : ∀ devId devId' hwc2Id, s.displays.lookup devId = some hwc2Id →
    s.displays.lookup devId' = some hwc2Id → devId = devId'
  gone : ∀ hwc2Id, s.last hwc2Id = some false → ∀ devId, s.displays.lookup devId ≠ some hwc2Id
  stale : ∀ client devId, .fire client devId false ∈ work → devId ∉ s.displays
  known : ∀ client, s.hotplugCb = some client → ∀ devId ∈ view (s.received client),
    devId ∈ s.displays ∨ .fire client devId false ∈ work
  told : ∀ client, s.hotplugCb = some client → ∀ devId ∈ s.displays,
    devId ∈ view (s.received client) ∨ .fire client devId true ∈ work ∨ .snapshot client ∈ work
  quiet : s.hwc2CallbackRegistered = false → (∀ devId, devId ∉ s.displays) ∧ s.listening = false ∧
    .registerCallback ∉ work ∧ ∀ hwc2Id connected, .handleHotplug hwc2Id connected ∉ work

section Instructions
variable {s s' : Composer} {work work' rest todo : List Instr} {env : Env}

/-- The displays and the client stay and the pending work changes.  No disconnect is added or lost,
what tells the client of a display is still to come, and before the registration nothing is added
that would act. -/
theorem Sound.rework {last : Nat → Option Bool} {listening : Bool} (hs : Sound s work)
    (hgone : ∀ hwc2Id, last hwc2Id = some false → ∀ devId, s.displays.lookup devId ≠ some hwc2Id)
    (hfalse : ∀ client devId, .fire client devId false ∈ work' ↔ .fire client devId false ∈ work)
    (htrue : ∀ client, ∀ devId ∈ s.displays, .fire client devId true ∈ work ∨
      .snapshot client ∈ work → .fire client devId true ∈ work' ∨ .snapshot client ∈ work')
    (hquiet : s.hwc2CallbackRegistered = false → listening = s.listening ∧
      .registerCallback ∉ work' ∧ ∀ hwc2Id connected, .handleHotplug hwc2Id connected ∉ work') :
    Sound { s with last, listening } work' where
  unique := hs.unique
  gone := hgone
  stale client devId h := hs.stale client devId ((hfalse client devId).mp h)
  known client hcb devId hd := (hs.known client hcb devId hd).imp_right (hfalse client devId).mpr
  told client hcb devId hd := (hs.told client hcb devId hd).imp_right (htrue client devId hd)
  quiet hreg := ⟨(hs.quiet hreg).1, (hquiet hreg).1.trans (hs.quiet hreg).2.1, (hquiet hreg).2⟩

theorem Sound.congr (hs : Sound s work) (h : ∀ instr, instr ∈ work ↔ instr ∈ work') :
    Sound s work' := by
  refine hs.rework hs.gone (fun _ _ => (h _).symm) (fun _ _ _ => Or.imp (h _).mp (h _).mp)
    fun hreg => ⟨rfl, ?_⟩
  simpa only [h] using (hs.quiet hreg).2.2

theorem view_append (notifications : List (UInt32 × Bool)) (devId : UInt32) (connected : Bool) :
    view (notifications ++ [(devId, connected)]) =
      if connected then insert devId (view notifications) else (view notifications).erase
        devId := by
  rw [view, foldl_append]
  rfl

variable {devId : UInt32} {hwc2Id : Nat}

theorem lookup_of_matching (h : s.matching env hwc2Id = some devId) :
    s.displays.lookup devId = some hwc2Id := by
  rw [Composer.matching] at h
  split_ifs at h with hfirst
  · cases h
    exact hfirst
  · obtain ⟨entry, hfind, rfl⟩ := map_eq_some_iff.mp h
    have hid := find?_some hfind
    rw [decide_eq_true_iff] at hid
    exact hid ▸ AList.mem_lookup_iff.mpr (mem_of_find?_eq_some hfind)

theorem matching_none (h : s.matching env hwc2Id = none) (devId : UInt32) :
    s.displays.lookup devId ≠ some hwc2Id := by
  rw [Composer.matching] at h
  split_ifs at h with hfirst
  intro hlookup
  have hnone := find?_eq_none.mp (map_eq_none_iff.mp h) _ (AList.mem_lookup_iff.mp hlookup)
  exact absurd (decide_eq_true rfl) hnone

theorem mem_rest {instr head : Instr} (h : instr ∈ head :: rest) (hne : instr ≠ head) :
    instr ∈ rest :=
  (mem_cons.mp h).resolve_left hne

theorem Sound.quiet_rest {head : Instr} (hs : Sound s (head :: rest))
    (hreg : s.hwc2CallbackRegistered = false) :
    (∀ devId, devId ∉ s.displays) ∧
    s.listening = false ∧
    .registerCallback ∉ rest ∧
    ∀ hwc2Id connected, .handleHotplug hwc2Id connected ∉ rest := by
  obtain ⟨hnone, hlistening, hcallback, hhandle⟩ := hs.quiet hreg
  exact ⟨hnone, hlistening, fun h => hcallback (.tail _ h), fun id c h =>
    hhandle id c (.tail _ h)⟩

variable {client : Nat} {connected : Bool}

theorem Sound.fire (hs : Sound s (.fire client devId connected :: rest))
    (hfits : Fits s rest env (.fire client devId connected))
    (hexec : exec s env (.fire client devId connected) = some (s', todo)) :
    Sound s' (todo ++ rest) := by
  cases hexec
  refine ⟨hs.unique, hs.gone, fun c d h => hs.stale c d (.tail _ h), ?_, ?_, hs.quiet_rest⟩
  · intro c hcb d hd
    dsimp only at hcb hd ⊢
    by_cases hc : c = client
    · subst hc
      rw [update_self, view_append] at hd
      cases connected with
      | true =>
        rcases Finset.mem_insert.mp hd with rfl | hd
        · exact hfits hcb
        · exact (hs.known c hcb d hd).imp_right fun h => mem_rest h (by simp)
      | false =>
        obtain ⟨hne, hd⟩ := Finset.mem_erase.mp hd
        exact (hs.known c hcb d hd).imp_right fun h => mem_rest h (by simp [hne])
    · rw [update_of_ne hc] at hd
      exact (hs.known c hcb d hd).imp_right fun h => mem_rest h (by simp [hc])
  · intro c hcb d hd
    dsimp only at hcb hd ⊢
    by_cases hc : c = client
    · subst hc
      rw [update_self, view_append]
      cases connected with
      | true =>
        by_cases hdev : d = devId
        · exact .inl (Finset.mem_insert.mpr (.inl hdev))
        · rcases hs.told c hcb d hd with h | h | h
          · exact .inl (Finset.mem_insert_of_mem h)
          · exact .inr (.inl (mem_rest h (by simp [hdev])))
          · exact .inr (.inr (mem_rest h nofun))
      | false =>
        -- The display of a disconnect is not there, so `d` is another one.
        have hne : d ≠ devId := by
          rintro rfl
          exact hs.stale c d (.head _) hd
        rcases hs.told c hcb d hd with h | h | h
        · exact .inl (Finset.mem_erase.mpr ⟨hne, h⟩)
        · exact .inr (.inl (mem_rest h (by simp)))
        · exact .inr (.inr (mem_rest h nofun))
    · rw [update_of_ne hc]
      rcases hs.told c hcb d hd with h | h | h
      · exact .inl h
      · exact .inr (.inl (mem_rest h (by simp [hc])))
      · exact .inr (.inr (mem_rest h nofun))

theorem Sound.register (hs : Sound s (.register client :: rest))
    (hexec : exec s env (.register client) = some (s', todo)) : Sound s' (todo ++ rest) := by
  have hknown : ∀ c, some client = some c → ∀ d ∈ view (Function.update s.received client [] c),
      False := by
    rintro c hc d hd
    cases hc
    rw [update_self] at hd
    exact absurd hd (Finset.notMem_empty d)
  by_cases hneed : (!s.hwc2CallbackRegistered && s.device) = true
  · have heq : s.regHotPlugCallback client = ({ s with
        hotplugCb := some client
        received := Function.update s.received client []
        hwc2CallbackRegistered := true }, [.registerCallback]) := if_pos hneed
    cases heq.symm.trans (Option.some.inj hexec)
    have hreg : s.hwc2CallbackRegistered = false := by
      cases h : s.hwc2CallbackRegistered with
      | false => rfl
      | true =>
        rw [h] at hneed
        cases hneed
    refine ⟨hs.unique, hs.gone, ?_, fun c hc d hd => (hknown c hc d hd).elim,
      fun c hc d hd => absurd hd ((hs.quiet hreg).1 d), nofun⟩
    exact fun c d h => hs.stale c d (.tail _ (mem_rest h nofun))
  · have heq : s.regHotPlugCallback client = ({ s with
        hotplugCb := some client
        received := Function.update s.received client [] }, [.snapshot client]) := if_neg hneed
    cases heq.symm.trans (Option.some.inj hexec)
    refine ⟨hs.unique, hs.gone, ?_, fun c hc d hd => (hknown c hc d hd).elim, ?_, ?_⟩
    · exact fun c d h => hs.stale c d (.tail _ (mem_rest h nofun))
    · rintro c hc d -
      cases hc
      exact .inr (.inr (.head _))
    · intro hreg
      obtain ⟨hnone, hlistening, hcallback, hhandle⟩ := hs.quiet_rest hreg
      exact ⟨hnone, hlistening, fun h => hcallback (mem_rest h nofun), fun id c h => hhandle id c (mem_rest h nofun)⟩

theorem Sound.registerCallback (hs : Sound s (.registerCallback :: rest))
    (hexec : exec s env .registerCallback = some (s', todo)) : Sound s' (todo ++ rest) := by
  cases hexec
  exact hs.rework hs.gone (by simp) (by simp) fun hreg => absurd (.head _) (hs.quiet hreg).2.2.1

theorem Sound.snapshot (hs : Sound s (.snapshot client :: rest))
    (hexec : exec s env (.snapshot client) = some (s', todo)) : Sound s' (todo ++ rest) := by
  cases hexec
  refine hs.rework hs.gone (by simp) (fun c d hd h => ?_) fun hreg => ⟨rfl, ?_⟩
  · rcases h with h | h
    · exact .inl (mem_append_right _ (mem_rest h nofun))
    · by_cases hc : c = client
      · subst hc
        exact .inl (mem_append_left _ (List.mem_map.mpr ⟨d, hd, rfl⟩))
      · exact .inr (mem_append_right _ (mem_rest h (by simp [hc])))
  · simpa using (hs.quiet_rest hreg).2.2

theorem mem_notify {instr : Instr} : instr ∈ s.notify devId connected ↔
      ∃ client, s.hotplugCb = some client ∧ instr = .fire client devId connected := by
  rw [Composer.notify, mem_toList, map_eq_some_iff]
  exact ⟨fun ⟨c, hc, h⟩ => ⟨c, hc, h.symm⟩, fun ⟨c, hc, h⟩ => ⟨c, hc, h.symm⟩⟩

theorem Sound.noted (hs : Sound s (.handleHotplug hwc2Id connected :: rest))
    (hnone : connected = false → ∀ devId, s.displays.lookup devId ≠ some hwc2Id) :
    Sound { s with last := Function.update s.last hwc2Id (some connected) } rest := by
  refine hs.rework (fun id hid => ?_) (by simp) (by simp) fun hreg =>
    ⟨rfl, (hs.quiet_rest hreg).2.2⟩
  by_cases hne : id = hwc2Id
  · subst hne
    rw [update_self] at hid
    exact hnone (Option.some.inj hid)
  · rw [update_of_ne hne] at hid
    exact hs.gone id hid

theorem Sound.connect (hs : Sound s (.handleHotplug hwc2Id true :: rest))
    (hfits : Fits s rest env (.handleHotplug hwc2Id true))
    (hexec : exec s env (.handleHotplug hwc2Id true) = some (s', todo)) :
    Sound s' (todo ++ rest) := by
  have hreg : s.hwc2CallbackRegistered ≠ false := fun h =>
    (hs.quiet h).2.2.2 hwc2Id true (.head _)
  have hnoted := hs.noted nofun
  cases hfound : env.found with
  | false =>
    have heq : s.handleHotplug env hwc2Id true =
        ({ s with last := Function.update s.last hwc2Id (some true) }, []) := by
      rw [Composer.handleHotplug, hfound]
      rfl
    cases heq.symm.trans (Option.some.inj hexec)
    exact hnoted
  | true =>
    obtain ⟨hnone, hnew, hquiet⟩ := hfits hfound
    have heq : s.handleHotplug env hwc2Id true = ({ s with
        last := Function.update s.last hwc2Id (some true)
        nextDevId := s.nextDevId + 1
        displays := s.displays.insert s.nextDevId hwc2Id }, s.notify s.nextDevId true) := by
      rw [Composer.handleHotplug, hfound]
      rfl
    cases heq.symm.trans (Option.some.inj hexec)
    refine ⟨?_, ?_, ?_, ?_, ?_, fun h => absurd h hreg⟩
    · intro devId devId' id h h'
      rcases lookup_insert_eq_some_iff.mp h with ⟨rfl, rfl⟩ | ⟨-, h⟩ <;>
        rcases lookup_insert_eq_some_iff.mp h' with ⟨rfl, hid⟩ | ⟨-, h'⟩
      · rfl
      · exact absurd h' (hnone devId')
      · exact absurd (hid ▸ h) (hnone devId)
      · exact hs.unique devId devId' id h h'
    · intro id hid devId h
      rcases lookup_insert_eq_some_iff.mp h with ⟨-, rfl⟩ | ⟨-, h⟩
      · dsimp only at hid
        rw [update_self] at hid
        cases hid
      · exact hnoted.gone id hid devId h
    · intro c d h hd
      rcases mem_append.mp h with h | h
      · obtain ⟨c', -, hfire⟩ := mem_notify.mp h
        cases hfire
      · rcases (AList.mem_insert _).mp hd with rfl | hd
        · exact hquiet c false h
        · exact hnoted.stale c d h hd
    · intro c hcb d hd
      rcases hnoted.known c hcb d hd with h | h
      · exact .inl ((AList.mem_insert _).mpr (.inr h))
      · exact .inr (mem_append_right _ h)
    · intro c hcb d hd
      rcases (AList.mem_insert _).mp hd with rfl | hd
      · exact .inr (.inl (mem_append_left _ (mem_notify.mpr ⟨c, hcb, rfl⟩)))
      · rcases hnoted.told c hcb d hd with h | h | h
        · exact .inl h
        · exact .inr (.inl (mem_append_right _ h))
        · exact .inr (.inr (mem_append_right _ h))

theorem Sound.disconnect (hs : Sound s (.handleHotplug hwc2Id false :: rest))
    (hexec : exec s env (.handleHotplug hwc2Id false) = some (s', todo)) :
    Sound s' (todo ++ rest) := by
  have hreg : s.hwc2CallbackRegistered ≠ false := fun h =>
    (hs.quiet h).2.2.2 hwc2Id false (.head _)
  have hlast : { s with last := Function.update s.last hwc2Id (some false) }.matching env hwc2Id =
      s.matching env hwc2Id := rfl
  cases hmatch : s.matching env hwc2Id with
  | none =>
    have heq : s.handleHotplug env hwc2Id false =
        ({ s with last := Function.update s.last hwc2Id (some false) }, []) := by
      simp only [Composer.handleHotplug, hlast, hmatch]
      rfl
    cases heq.symm.trans (Option.some.inj hexec)
    exact hs.noted fun _ => matching_none hmatch
  | some devId =>
    have hdevId := lookup_of_matching hmatch
    have heq : s.handleHotplug env hwc2Id false = ({ s with
        last := Function.update s.last hwc2Id (some false)
        displays := s.displays.erase devId }, s.notify devId false) := by
      simp only [Composer.handleHotplug, hlast, hmatch]
      rfl
    cases heq.symm.trans (Option.some.inj hexec)
    refine ⟨?_, ?_, ?_, ?_, ?_, fun h => absurd h hreg⟩
    · exact fun d d' id h h' => hs.unique d d' id (lookup_erase_eq_some_iff.mp h).2
        (lookup_erase_eq_some_iff.mp h').2
    · intro id hid d h
      obtain ⟨hne, hold⟩ := lookup_erase_eq_some_iff.mp h
      dsimp only at hid
      by_cases hid' : id = hwc2Id
      · subst hid'
        exact hne (hs.unique d devId id hold hdevId)
      · rw [update_of_ne hid'] at hid
        exact hs.gone id hid d hold
    · intro c d h hd
      obtain ⟨hne, hd⟩ := AList.mem_erase.mp hd
      rcases mem_append.mp h with h | h
      · obtain ⟨c', -, hfire⟩ := mem_notify.mp h
        cases hfire
        exact hne rfl
      · exact hs.stale c d (.tail _ h) hd
    · intro c hcb d hd
      by_cases hne : d = devId
      · subst hne
        exact .inr (mem_append_left _ (mem_notify.mpr ⟨c, hcb, rfl⟩))
      · rcases hs.known c hcb d hd with h | h
        · exact .inl (AList.mem_erase.mpr ⟨hne, h⟩)
        · exact .inr (mem_append_right _ (mem_rest h nofun))
    · intro c hcb d hd
      obtain ⟨-, hd⟩ := AList.mem_erase.mp hd
      rcases hs.told c hcb d hd with h | h | h
      · exact .inl h
      · exact .inr (.inl (mem_append_right _ (mem_rest h nofun)))
      · exact .inr (.inr (mem_append_right _ (mem_rest h nofun)))

end Instructions

theorem Sound.start {s s' : Composer} {work program : List Instr} {call : Call} (hs : Sound s work)
    (hstart : start s call = some (s', program)) : Sound s' (program ++ work) := by
  have hadd : ∀ {instr : Instr},
    (∀ c d, .fire c d false ≠ instr) → (s.hwc2CallbackRegistered = false →
      .registerCallback ≠ instr ∧ ∀ id c, .handleHotplug id c ≠ instr) → Sound s
      (instr :: work) := by
    intro instr hfire hquiet
    refine hs.rework hs.gone (fun c d => ⟨(mem_rest · (hfire c d)), .tail _⟩)
      (fun _ _ _ => Or.imp (.tail _) (.tail _)) fun hreg => ⟨rfl, ?_⟩
    obtain ⟨-, -, hcallback, hhandle⟩ := hs.quiet hreg
    obtain ⟨hne, hne'⟩ := hquiet hreg
    exact ⟨fun h => hcallback (mem_rest h hne), fun id c h => hhandle id c (mem_rest h (hne' id c))⟩
  cases call with
  | onHotplug hwc2Id connected =>
    rw [Hotplug.start] at hstart
    split_ifs at hstart with hlistening
    cases hstart
    refine hadd nofun fun hreg => ?_
    rw [(hs.quiet hreg).2.1] at hlistening
    cases hlistening
  | regHotPlugCallback client =>
    cases hstart
    exact hadd nofun fun _ => ⟨nofun, nofun⟩

/-- **The registered client knows the displays** when nothing is left to do, in every interleaving
whose instructions meet the condition. -/
theorem view_right (device : Bool) (actions : List (PoolAction Call Env))
    (p : Pool Composer Instr) (hrun : run machine.step ⟨{ device }, []⟩ actions = some p)
    (hfits : Along machine.step (Machine.Allowed (fun _ _ _ => True) Fits) ⟨{ device }, []⟩
      actions) :
    (∀ devId devId' hwc2Id, p.shared.displays.lookup devId = some hwc2Id →
      p.shared.displays.lookup devId' = some hwc2Id → devId = devId') ∧
    (∀ hwc2Id, p.shared.last hwc2Id = some false →
      ∀ devId, p.shared.displays.lookup devId ≠ some hwc2Id) ∧
    (p.Idle → ∀ client, p.shared.hotplugCb = some client →
      ∀ devId, devId ∈ view (p.shared.received client) ↔ devId ∈ p.shared.displays) := by
  have hs : Sound p.shared p.work := by
    refine Machine.run_invariant (I := Sound) (fun hs hperm => hs.congr fun _ => hperm.mem_iff)
      (fun hs _ hstart => hs.start hstart) ?_ hfits hrun ?_
    · intro s rest env instr s' todo hs hfits hexec
      change exec s env instr = some (s', todo) at hexec
      cases instr with
      | handleHotplug hwc2Id connected =>
        cases connected with
        | true => exact hs.connect hfits hexec
        | false => exact hs.disconnect hexec
      | fire client devId connected => exact hs.fire hfits hexec
      | register client => exact hs.register hexec
      | registerCallback => exact hs.registerCallback hexec
      | snapshot client => exact hs.snapshot hexec
    · have hempty : ∀ devId, devId ∉ (∅ : AList fun _ : UInt32 => Nat) := AList.notMem_empty
      exact ⟨nofun, nofun, nofun, nofun, nofun, fun _ => ⟨hempty, rfl, nofun, nofun⟩⟩
  refine ⟨hs.unique, hs.gone, fun hidle client hcb devId => ?_⟩
  have hnone : ∀ instr, instr ∉ p.work := fun instr h => by
    rw [hidle.work_eq] at h
    exact absurd h not_mem_nil
  constructor
  · exact fun h => (hs.known client hcb devId h).resolve_right (hnone _)
  · exact fun h => (hs.told client hcb devId h).resolve_right fun h => h.elim (hnone _) (hnone _)

def replugged : List (PoolAction Call Env) :=
  [.start (.regHotPlugCallback 1), .run 0 {}, .run 0 { events := [(7, true)] }, .run 0 {},
    .run 0 {}, .start (.regHotPlugCallback 2), .run 1 {}, .run 1 {}, .run 1 {},
    .start (.onHotplug 8 true), .run 2 {}, .run 2 {}, .start (.onHotplug 7 false), .run 3 {},
      .run 3 {}]

theorem lookup_ne {displays : AList fun _ : UInt32 => Nat} {hwc2Id : Nat}
    (h : ∀ entry ∈ displays.entries, entry.2 ≠ hwc2Id) (devId : UInt32) :
    displays.lookup devId ≠ some hwc2Id :=
  fun hlookup => h _ (AList.mem_lookup_iff.mp hlookup) rfl

theorem view_right_replugged :
    ∃ p, run machine.step ⟨{ device := true }, []⟩ replugged = some p ∧
      view (p.shared.received 2) = {1} ∧
      ∀ devId, devId ∈ view (p.shared.received 2) ↔ devId ∈ p.shared.displays := by
  refine ⟨_, rfl, by decide, ?_⟩
  refine (view_right true replugged _ rfl ?_).2.2 ?_ 2 rfl
  · repeat first
      | exact trivial
      | refine along_cons trivial rfl ?_
      | refine along_cons (Machine.allowed_run rfl trivial) rfl ?_
      | refine along_cons (Machine.allowed_run rfl fun _ => .inl (by decide)) rfl ?_
      | refine along_cons (Machine.allowed_run rfl fun _ =>
        ⟨lookup_ne (by decide), by decide, fun _ _ => not_mem_nil⟩) rfl ?_
  · show ∀ program ∈ ([[], [], [], []] : List (List Instr)), program = []
    decide

def registered (events : List (Nat × Bool)) : List (PoolAction Call Env) :=
  [.start (.regHotPlugCallback 1), .run 0 {}, .run 0 { events }]

theorem view_wrong :
    (∃ p, run machine.step ⟨{ device := true }, []⟩
        (registered [(7, true), (7, true), (7, false)] ++
          [.run 0 {}, .run 0 {}, .run 0 {}, .run 0 {}, .run 0 {}, .run 0 {}]) = some p ∧
      p.work = [] ∧ p.shared.last 7 = some false ∧ p.shared.displays.lookup 1 = some 7) ∧
    ∃ p, run machine.step ⟨{ device :=
    true }, []⟩ (registered [] ++
      [.start (.onHotplug 7 true), .run 1 {}, .start (.onHotplug 7 false), .run 2
    {}, .run 2 {}, .run 1 {}]) = some p ∧ p.work = [] ∧ p.shared.hotplugCb = some 1 ∧ view
      (p.shared.received 1)
    = {0} ∧ p.shared.displays.keys = [] :=
  ⟨⟨_, rfl, rfl, rfl, rfl⟩, _, rfl, rfl, rfl, by decide, rfl⟩

end OniroSoc.Display.Hotplug

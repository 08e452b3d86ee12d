import OniroSoc.Ril.Modem

/-!
# What the framework is told about the radio

The framework keeps the last radio state it was told and never asks again.  Two things go wrong.  A
notification may be overtaken: it is sent after another thread has stored a new state and sent that
one. And the OFF of start-up is announced without a look at `g_radioState`: when the slot is on
already, the `setRadioPower` that the framework then asks for changes nothing, and its response is
silent.

The condition on a run is that the notifications of a slot are sent in the order of the stores and
looks that they are about, whatever they say.
-/

namespace OniroSoc.Ril.Modem
open Support List

/-- The state of the last event that was applied. -/
def lastApplied : List Event → PowerState
  | [] => .off
  | .indicated state :: _ => state
  | .powered state _ :: _ => state
  | .notified _ :: past => lastApplied past
  | .announced _ :: past => lastApplied past

/-- The state of the last notification. -/
def lastSent : List Event → Option PowerState
  | [] => none
  | .indicated _ :: past => lastSent past
  | .powered _ _ :: past => lastSent past
  | .notified state :: _ => some state
  | .announced _ :: _ => some .off

/-- The last notification is the OFF of start-up, announced while another state stood, and since
then nothing was applied but `setRadioPower`s that found the state they asked for. -/
def Unanswered : List Event → Prop
  | .announced found :: _ => found ≠ .off
  | .powered state found :: past => state = found ∧ Unanswered past
  | _ => False

/-- The last notification said the state. -/
def Informed (past : List Event) (state : PowerState) : Prop :=
  ∀ sent, lastSent past = some sent → sent = state ∨ Unanswered past

/-- The notification that is still to come: its slot, its state and its ticket. -/
def Instr.owes : Instr → Option (Int × PowerState × Nat)
  | .notify slot state ticket => some (slot, state, ticket)
  | .renotify _ slot ticket => some (slot, .off, ticket)
  | _ => none

/-- The `setRadioPower` that the instruction is about. -/
def Instr.carries : Instr → Option Call
  | .remember c => some c
  | .setRadioPower c => some c
  | .takePower c _ => some c
  | .takePending c _ _ => some c
  | _ => none

/-- No notification for the slot is still to come. -/
def Quiet (work : List Instr) (slot : Int) : Prop :=
  ∀ instr ∈ work, ∀ state ticket, instr.owes ≠ some (slot, state, ticket)

/-- No `setRadioPower` under way has the serial. -/
def Unused (s : Modem) (work : List Instr) (serial : Int) : Prop :=
  serial ∉ (work.filterMap Instr.carries ++ s.rild).map Call.serial

/-- The condition on an instruction, with what is left to do besides it: a serial is new, and no
notification of a later store or look was sent before this one. -/
def InTurn (s : Modem) (others : List Instr) (_ : Bool) : Instr → Prop
  | .track _ _ => s.Unused others s.tracker.serial
  | .notify slot _ ticket | .renotify _ slot ticket => s.sent slot ≤ ticket
  | _ => True

/-- The serial of a `setRadioPower` that is under way is neither handed out again nor looked up for
another response. -/
def Apart (s : Modem) (work : List Instr) : Action → Prop
  | .track _ => s.Unused work s.tracker.serial
  | .takePending serial => s.Unused work serial
  | _ => True

/-- The condition on a run. -/
def Ordered : Pool Modem Instr → PoolAction Action Bool → Prop := Machine.Allowed Apart InTurn

/-! ### Serials -/

/-- The tracker has the request of the call, with its slot. -/
def Waits (s : Modem) (c : Call) : Prop :=
  ∃ req, s.tracker.pending.lookup c.serial = some (some req) ∧ slotOf (some req) = c.slot

def Remembered (s : Modem) (c : Call) : Prop := s.powerRequests.lookup c.serial = some c.on

/-- What an instruction of `setRadioPower` knows is what the call was made with. -/
def Fits (s : Modem) : Instr → Prop
  | .track req _ => slotOf (some req) = req.slotId
  | .remember c => s.Waits c
  | .setRadioPower c => s.Waits c ∧ s.Remembered c
  | .takePower c _ => s.Waits c ∧ s.Remembered c
  | .takePending c requested _ => s.Waits c ∧ requested = some c.on
  | .exchange slot state c => slot = c.slot ∧ state = powerState c.on
  | _ => True

/-- The responses that rild owes. -/
def awaited (s : Modem) : List Instr := s.rild.map fun c => .takePower c .none

/-- Every `setRadioPower` under way has its own serial, and the tracker and `g_powerRequests` have
it. -/
structure Correlated (s : Modem) (work : List Instr) : Prop where
  serials : ((work.filterMap Instr.carries).map Call.serial).Nodup
  fits : ∀ instr ∈ work, s.Fits instr

/-- The two states have the same on a serial. -/
def Agrees (s s' : Modem) (serial : Int) : Prop :=
  s'.tracker.pending.lookup serial = s.tracker.pending.lookup serial ∧
    s'.powerRequests.lookup serial = s.powerRequests.lookup serial

section Correlation
variable {s s' : Modem} {instr : Instr} {rest todo work work' : List Instr}

theorem Fits.of_agrees (h : s.Fits instr)
    (hagrees : ∀ c, instr.carries = some c → s.Agrees s' c.serial) : s'.Fits instr := by
  have hwaits : ∀ c, instr.carries = some c → s.Waits c → s'.Waits c := by
    rintro c hc ⟨req, hreq, hslot⟩
    exact ⟨req, (hagrees c hc).1.trans hreq, hslot⟩
  have hremembered : ∀ c, instr.carries = some c → s.Remembered c → s'.Remembered c :=
    fun c hc h => (hagrees c hc).2.trans h
  cases instr with
  | remember c => exact hwaits c rfl h
  | setRadioPower c => exact ⟨hwaits c rfl h.1, hremembered c rfl h.2⟩
  | takePower c err => exact ⟨hwaits c rfl h.1, hremembered c rfl h.2⟩
  | takePending c requested err => exact ⟨hwaits c rfl h.1, h.2⟩
  | _ => exact h

theorem Correlated.perm (h : Correlated s work) (hw : work.Perm work') : Correlated s work' where
  serials := ((hw.filterMap _).map _).nodup_iff.mp h.serials
  fits instr hi := h.fits instr (hw.mem_iff.mpr hi)

theorem Correlated.tail (h : Correlated s (instr :: rest)) : Correlated s rest where
  serials := h.serials.sublist (((sublist_cons_self _ _).filterMap _).map _)
  fits i hi := h.fits i (.tail _ hi)

theorem Correlated.extend (h : Correlated s rest)
    (hagrees : ∀ c ∈ rest.filterMap Instr.carries, s.Agrees s' c.serial)
    (hfits : ∀ i ∈ todo, s'.Fits i)
    (hserials : ((todo.filterMap Instr.carries).map Call.serial).Nodup)
    (hnew : ∀ c ∈ todo.filterMap Instr.carries,
      c.serial ∉ (rest.filterMap Instr.carries).map Call.serial) :
    Correlated s' (todo ++ rest) where
  serials := by
    rw [filterMap_append, map_append]
    refine nodup_append'.mpr ⟨hserials, h.serials, ?_⟩
    rintro serial hmem hmem'
    obtain ⟨c, hc, rfl⟩ := mem_map.mp hmem
    exact hnew c hc hmem'
  fits i hi := by
    rcases mem_append.mp hi with hi | hi
    · exact hfits i hi
    · exact (h.fits i hi).of_agrees fun c hc => hagrees c (mem_filterMap.mpr ⟨i, hi, hc⟩)

theorem Correlated.plain (h : Correlated s rest)
    (hagrees : ∀ c ∈ rest.filterMap Instr.carries, s.Agrees s' c.serial)
    (htodo : ∀ i ∈ todo, i.carries = none ∧ s'.Fits i) : Correlated s' (todo ++ rest) := by
  have hnone : todo.filterMap Instr.carries = [] :=
    filterMap_eq_nil_iff.mpr fun i hi => (htodo i hi).1
  refine h.extend hagrees (fun i hi => (htodo i hi).2) ?_ ?_
  · rw [hnone]
    exact nodup_nil
  · rw [hnone]
    exact fun c hc => absurd hc not_mem_nil

variable {c : Call}

theorem Correlated.advance (h : Correlated s (instr :: rest)) (hc : instr.carries = some c)
    (hagrees : ∀ serial, serial ≠ c.serial → s.Agrees s' serial)
    (hcalls : (todo.filterMap Instr.carries).Sublist [c]) (hfits : ∀ i ∈ todo, s'.Fits i) :
    Correlated s' (todo ++ rest) := by
  have hserials := h.serials
  rw [filterMap_cons_some hc] at hserials
  obtain ⟨hnot, -⟩ := nodup_cons.mp hserials
  refine h.tail.extend (fun c' hc' => hagrees _ ?_) hfits ?_ ?_
  · intro heq
    exact hnot (heq ▸ mem_map_of_mem hc')
  · exact (nodup_singleton c.serial).sublist (hcalls.map _)
  · intro c' hc'
    rw [mem_singleton.mp (hcalls.subset hc')]
    exact hnot

theorem slotOf_some {req : Req} (h : InRange req.slotId) : slotOf (some req) = req.slotId := if_pos h

theorem filterMap_awaited (s : Modem) : s.awaited.filterMap Instr.carries = s.rild := by
  rw [awaited, filterMap_map]
  exact filterMap_some

theorem Unused.notMem {serial : Int} (h : s.Unused work serial) :
    serial ∉ ((work ++ s.awaited).filterMap Instr.carries).map Call.serial := by
  rw [filterMap_append, filterMap_awaited]
  exact h

theorem Correlated.of_unused {serial : Int} (h : Correlated s (work ++ s.awaited))
    (hunused : s.Unused work serial) (hagrees : ∀ other, other ≠ serial → s.Agrees s' other)
    (hrild : s'.rild = s.rild) : Correlated s' (work ++ s'.awaited) := by
  have hawaited : s'.awaited = s.awaited := by rw [awaited, awaited, hrild]
  have hnone : ∀ i ∈ ([] : List Instr), i.carries = none ∧ s'.Fits i :=
    fun i hi => absurd hi not_mem_nil
  rw [hawaited]
  refine h.plain (fun c hc => hagrees _ ?_) hnone
  rintro rfl
  exact hunused.notMem (mem_map_of_mem hc)

variable {ok : Bool}

theorem Correlated.exec_track {req : Req} {on : Bool}
    (h : Correlated s (.track req on :: (rest ++ s.awaited)))
    (hunused : s.Unused rest s.tracker.serial) :
    Correlated (s.exec ok (.track req on)).1
      ((s.exec ok (.track req on)).2 ++ (rest ++ s.awaited)) := by
  refine h.tail.extend (fun c hc => ⟨?_, rfl⟩) ?_ (nodup_singleton _) ?_
  · refine AList.lookup_insert_ne ?_
    rintro heq
    exact hunused.notMem (heq ▸ mem_map_of_mem hc)
  · intro i hi
    obtain rfl := mem_singleton.mp hi
    exact ⟨req, AList.lookup_insert _, h.fits _ (.head _)⟩
  · intro c hc
    rw [mem_singleton.mp hc]
    exact hunused.notMem

theorem Correlated.exec_takePending {requested : Option Bool} {err : RadioError}
    (h : Correlated s (.takePending c requested err :: rest)) :
    Correlated (s.exec ok (.takePending c requested err)).1
      ((s.exec ok (.takePending c requested err)).2 ++ rest) := by
  obtain ⟨⟨req, hreq, hslot⟩, hrequested⟩ := h.fits _ (.head _)
  subst hrequested
  simp only [exec, Tracker.takePending, hreq, Option.join_some]
  refine h.advance rfl (fun serial hne => ⟨AList.lookup_erase_ne hne, rfl⟩) ?_ ?_
  · cases err <;> exact nil_sublist _
  · intro i hi
    rcases mem_append.mp hi with hi | hi
    · cases err with
      | none =>
        obtain rfl := mem_singleton.mp hi
        exact ⟨hslot, rfl⟩
      | _ => exact absurd hi not_mem_nil
    · obtain rfl := mem_singleton.mp hi
      trivial

theorem Correlated.exec_setRadioPower (h : Correlated s (.setRadioPower c :: (rest ++ s.awaited))) :
    Correlated (s.exec ok (.setRadioPower c)).1
      (rest ++ (s.exec ok (.setRadioPower c)).1.awaited) := by
  simp only [exec]
  split
  · have hnext : Correlated s ([.takePower c .none] ++ (rest ++ s.awaited)) := by
      refine h.advance rfl (fun _ _ => ⟨rfl, rfl⟩) (Sublist.refl _) fun i hi => ?_
      obtain rfl := mem_singleton.mp hi
      exact h.fits (.setRadioPower c) (.head _)
    have hperm : ([Instr.takePower c .none] ++ (rest ++ s.awaited)).Perm
        (rest ++ ({ s with rild := s.rild ++ [c] } : Modem).awaited) := by
      rw [awaited, awaited, map_append, ← append_assoc rest]
      exact perm_append_comm
    exact ⟨(hnext.perm hperm).serials, (hnext.perm hperm).fits⟩
  · exact { h.tail with }

theorem Correlated.beside (h : Correlated s (instr :: (rest ++ s.awaited)))
    (htracker : s'.tracker = s.tracker) (hpower : s'.powerRequests = s.powerRequests)
    (hrild : s'.rild = s.rild) (htodo : ∀ i ∈ todo, i.carries = none ∧ s'.Fits i) :
    Correlated s' (todo ++ (rest ++ s'.awaited)) := by
  have hawaited : s'.awaited = s.awaited := by rw [awaited, awaited, hrild]
  rw [hawaited]
  exact h.tail.plain (fun c _ => ⟨by rw [htracker], by rw [hpower]⟩) htodo

theorem Correlated.exec (h : Correlated s (instr :: (rest ++ s.awaited))) (ok : Bool)
    (hturn : s.InTurn rest ok instr) :
    Correlated (s.exec ok instr).1
      ((s.exec ok instr).2 ++ (rest ++ (s.exec ok instr).1.awaited)) := by
  cases instr with
  | requireModem req on =>
    cases req with
    | none => exact h.beside rfl rfl rfl (by simp [Modem.exec])
    | some req =>
      refine h.beside rfl rfl rfl fun i hi => ?_
      simp only [Modem.exec] at hi
      split at hi
      · rename_i hhas
        obtain rfl := mem_singleton.mp hi
        exact ⟨rfl, slotOf_some hhas.1⟩
      · obtain rfl := mem_singleton.mp hi
        exact ⟨rfl, trivial⟩
  | track req on => exact h.exec_track hturn
  | remember c =>
    refine h.advance rfl (fun serial hne => ⟨rfl, AList.lookup_insert_ne hne⟩) (Sublist.refl _)
      fun i hi => ?_
    obtain rfl := mem_singleton.mp hi
    exact ⟨h.fits _ (.head _), AList.lookup_insert _⟩
  | setRadioPower c => exact h.exec_setRadioPower
  | takePower c err =>
    obtain ⟨hwaits, hremembered⟩ := h.fits _ (.head _)
    refine h.advance rfl (fun serial hne => ⟨rfl, AList.lookup_erase_ne hne⟩) (Sublist.refl _)
      fun i hi => ?_
    obtain rfl := mem_singleton.mp hi
    exact ⟨hwaits, hremembered⟩
  | takePending c requested err => exact h.exec_takePending
  | exchange | cached =>
    simp only [Modem.exec]
    split_ifs <;> exact h.beside rfl rfl rfl (by simp [Instr.carries, Fits])
  | connect | nudge =>
    refine h.beside rfl rfl rfl ?_
    simp only [Modem.exec]
    split_ifs <;> simp [Instr.carries, Fits]
  | report req err => cases req <;> exact h.beside rfl rfl rfl (by simp [Modem.exec])
  | store | renotify => exact h.beside rfl rfl rfl (by simp [Modem.exec, Instr.carries, Fits])
  | notify | publish | attach | announce => exact h.beside rfl rfl rfl (by simp [Modem.exec])

end Correlation

/-! ### Notifications -/

/-- The invariant, of one slot.  Its last notification said what it holds, or the notification of
the latest ticket is still to come. -/
structure ToldOf (s : Modem) (work : List Instr) (slot : Int) : Prop where
  current : s.radioState slot = lastApplied (s.history slot)
  owed : ∀ instr ∈ work, ∀ state ticket, instr.owes = some (slot, state, ticket) →
    ticket < s.tickets slot ∧ (ticket + 1 = s.tickets slot → state = s.radioState slot)
  informed : s.sent slot = s.tickets slot ∧ Informed (s.history slot) (s.radioState slot) ∨
    s.sent slot < s.tickets slot ∧ ∃ instr ∈ work, ∃ ticket,
      instr.owes = some (slot, s.radioState slot, ticket) ∧ ticket + 1 = s.tickets slot

def Told (s : Modem) (work : List Instr) : Prop := ∀ slot, ToldOf s work slot

section Telling
variable {s s' : Modem} {instr instr' : Instr} {rest todo work work' : List Instr} {slot : Int}
  {state : PowerState} {ticket : Nat} {ok : Bool}

/-- What a step does not touch: the fields of a slot. -/
def Untouched (s s' : Modem) (slot : Int) : Prop :=
  s'.radioState slot = s.radioState slot ∧ s'.history slot = s.history slot ∧
    s'.tickets slot = s.tickets slot ∧ s'.sent slot = s.sent slot

theorem ToldOf.mono (h : ToldOf s work slot) (hsame : Untouched s s' slot)
    (hw : ∀ i state ticket, i.owes = some (slot, state, ticket) → (i ∈ work' ↔ i ∈ work)) :
    ToldOf s' work' slot := by
  obtain ⟨hstate, hhistory, htickets, hsent⟩ := hsame
  obtain ⟨hcurrent, howed, hinformed⟩ := h
  refine ⟨by rw [hstate, hhistory, hcurrent], ?_, ?_⟩
  · rw [htickets, hstate]
    exact fun i hi state ticket howes =>
      howed i ((hw i state ticket howes).mp hi) state ticket howes
  · rw [htickets, hstate, hhistory, hsent]
    refine hinformed.imp_right ?_
    rintro ⟨hlt, i, hi, ticket, howes, hlatest⟩
    exact ⟨hlt, i, (hw i _ ticket howes).mpr hi, ticket, howes, hlatest⟩

/-- A step on one slot. -/
theorem Told.touch (h : Told s (instr :: rest)) (slot : Int)
    (hsame : ∀ other, other ≠ slot → Untouched s s' other)
    (hinstr : ∀ owed, instr.owes = some owed → owed.1 = slot)
    (htodo : ∀ i ∈ todo, ∀ owed, i.owes = some owed → owed.1 = slot)
    (hslot : ToldOf s' (todo ++ rest) slot) : Told s' (todo ++ rest) := by
  intro other
  by_cases hother : other = slot
  · exact hother ▸ hslot
  · refine (h other).mono (hsame other hother) fun i state ticket howes => ?_
    grind

/-- A step that neither sends nor looks nor stores. -/
theorem Told.same (h : Told s (instr :: rest)) (hnone : instr.owes = none)
    (htodo : ∀ i ∈ todo, i.owes = none) (hsame : ∀ slot, Untouched s s' slot) :
    Told s' (todo ++ rest) := by
  intro slot
  refine (h slot).mono (hsame slot) fun i state ticket howes => ?_
  grind

/-- A store or a look takes the next ticket. -/
theorem ToldOf.issue (h : ToldOf s (instr :: rest) slot)
    (hcurrent : s'.radioState slot = lastApplied (s'.history slot))
    (htickets : s'.tickets slot = s.tickets slot + 1) (hsent : s'.sent slot = s.sent slot)
    (howes : instr'.owes = some (slot, s'.radioState slot, s.tickets slot)) :
    ToldOf s' ([instr'] ++ rest) slot := by
  obtain ⟨-, howed, hinformed⟩ := h
  refine ⟨hcurrent, ?_, .inr ⟨?_, instr', mem_cons_self, s.tickets slot, howes, htickets.symm⟩⟩
  · intro i hi state ticket howes'
    grind
  · rcases hinformed with ⟨heq, -⟩ | ⟨hlt, -⟩ <;> omega

/-- A notification that is sent in turn. -/
theorem ToldOf.send (h : ToldOf s (instr :: rest) slot) (howes : instr.owes = some (slot, state, ticket))
    (hturn : s.sent slot ≤ ticket) (htodo : ∀ i ∈ todo, i.owes = none)
    (hs' : s'.radioState slot = s.radioState slot ∧
      s'.history slot = .notified state :: s.history slot ∧
      s'.tickets slot = s.tickets slot ∧ s'.sent slot = ticket + 1) :
    ToldOf s' (todo ++ rest) slot := by
  obtain ⟨hstate, hhistory, htickets, hsent⟩ := hs'
  obtain ⟨hcurrent, howed, hinformed⟩ := h
  obtain ⟨hlt, hlatest⟩ := howed instr mem_cons_self state ticket howes
  refine ⟨by rw [hstate, hhistory, hcurrent]; rfl, by grind, ?_⟩
  by_cases hlast : ticket + 1 = s.tickets slot
  · refine .inl ⟨by omega, ?_⟩
    rw [hhistory, hstate, ← hlatest hlast]
    exact fun sent hsent => .inl (Option.some.inj hsent).symm
  · grind

/-- A `setRadioPower` that succeeded: silent when it finds the state it asked for. -/
theorem ToldOf.exec_exchange {c : Call}
    (h : ToldOf s (.exchange c.slot (powerState c.on) c :: rest) c.slot) :
    ToldOf (s.exec ok (.exchange c.slot (powerState c.on) c)).1
      ((s.exec ok (.exchange c.slot (powerState c.on) c)).2 ++ rest) c.slot := by
  simp only [Modem.exec]
  by_cases hfound : s.radioState c.slot = powerState c.on
  · rw [if_neg (not_not.mpr hfound)]
    obtain ⟨-, howed, hinformed⟩ := h
    refine ⟨by simp [noted, lastApplied], by grind, ?_⟩
    simp only [noted, Function.update_self, hfound] at hinformed ⊢
    refine hinformed.imp (.imp_right fun hinformed sent hsent => ?_) (.imp_right ?_)
    · exact (hinformed sent hsent).imp_right fun h => ⟨rfl, h⟩
    · rintro ⟨i, hi, ticket, howes, hlatest⟩
      rcases mem_cons.mp hi with rfl | hi
      · cases howes
      · exact ⟨i, hi, ticket, howes, hlatest⟩
  · rw [if_pos hfound]
    exact h.issue (by simp [Modem.issue, noted, lastApplied]) (by simp [Modem.issue]) rfl
      (by simp [Modem.issue, Instr.owes])

theorem ToldOf.exec_announce (h : ToldOf s (.announce slot :: rest) slot) :
    ToldOf (s.exec ok (.announce slot)).1 rest slot := by
  obtain ⟨hcurrent, howed, hinformed⟩ := h
  simp only [Modem.exec]
  refine ⟨by simpa [noted, lastApplied] using hcurrent, by grind, ?_⟩
  simp only [noted, Function.update_self]
  refine hinformed.imp (.imp_right fun _ sent hsent => ?_) (.imp_right ?_)
  · cases hsent
    by_cases hoff : s.radioState slot = .off
    · exact .inl hoff.symm
    · exact .inr hoff
  · rintro ⟨i, hi, ticket, howes, hlatest⟩
    rcases mem_cons.mp hi with rfl | hi
    · cases howes
    · exact ⟨i, hi, ticket, howes, hlatest⟩

/-- What each instruction leaves of the invariant, under the condition. -/
theorem Told.exec (h : Told s (instr :: rest)) (hfits : s.Fits instr)
    (hturn : s.InTurn rest ok instr) : Told (s.exec ok instr).1 ((s.exec ok instr).2 ++ rest) := by
  cases instr with
  | exchange slot state c =>
    obtain ⟨rfl, rfl⟩ := hfits
    refine h.touch c.slot ?_ nofun ?_ (h c.slot).exec_exchange
    · intro other hother
      simp only [Modem.exec]
      split_ifs <;> simp [Untouched, Modem.issue, noted, hother]
    · simp only [Modem.exec]
      split_ifs <;> simp [Instr.owes]
  | store slot state =>
    refine h.touch slot ?_ nofun (by simp [Modem.exec, Instr.owes]) ?_
    · intro other hother
      simp [Modem.exec, Untouched, Modem.issue, noted, hother]
    · exact (h slot).issue (by simp [Modem.exec, Modem.issue, noted, lastApplied])
        (by simp [Modem.exec, Modem.issue]) rfl (by simp [Modem.exec, Modem.issue, Instr.owes])
  | notify slot state ticket =>
    refine h.touch slot ?_ (by simp [Instr.owes]) (by simp [Modem.exec]) ?_
    · intro other hother
      simp [Modem.exec, Untouched, notifyModem, noted, hother]
    · exact (h slot).send rfl hturn nofun (by simp [Modem.exec, notifyModem, noted])
  | renotify round slot ticket =>
    refine h.touch slot ?_ (by simp [Instr.owes]) (by simp [Modem.exec, Instr.owes]) ?_
    · intro other hother
      simp [Modem.exec, Untouched, notifyModem, noted, hother]
    · exact (h slot).send rfl hturn (by simp [Modem.exec, Instr.owes])
        (by simp [Modem.exec, notifyModem, noted])
  | announce slot =>
    show Told _ ([] ++ rest)
    refine h.touch slot ?_ nofun nofun (h slot).exec_announce
    intro other hother
    simp [Modem.exec, Untouched, noted, hother]
  | cached round slot pending =>
    simp only [Modem.exec]
    split_ifs with hoff
    · refine h.touch slot ?_ nofun (by simp [Instr.owes]) ?_
      · intro other hother
        simp [Untouched, Modem.issue, hother]
      · exact (h slot).issue (h slot).current (by simp [Modem.issue]) rfl
          (by simp [Modem.issue, Instr.owes, hoff])
    · exact h.same rfl (by simp [Instr.owes]) fun _ => ⟨rfl, rfl, rfl, rfl⟩
  | requireModem req on | report req err =>
    cases req <;> refine h.same rfl ?_ fun _ => ⟨rfl, rfl, rfl, rfl⟩
    all_goals
      simp only [Modem.exec]
      grind [Instr.owes]
  | takePending c requested err =>
    refine h.same rfl ?_ fun _ => ⟨rfl, rfl, rfl, rfl⟩
    simp only [Modem.exec]
    cases requested <;> cases err <;> simp [Instr.owes]
  | connect | nudge =>
    refine h.same rfl ?_ fun _ => ⟨rfl, rfl, rfl, rfl⟩
    simp only [Modem.exec]
    grind [Instr.owes]
  | _ => exact h.same rfl (by simp [Modem.exec, Instr.owes]) fun _ => ⟨rfl, rfl, rfl, rfl⟩

end Telling

/-! ### Runs -/

section Runs
variable {s s' : Modem} {work program : List Instr} {a : Action}

theorem Correlated.spawn {instr : Instr} (h : Correlated s (work ++ s.awaited))
    (hcarries : instr.carries = none) (hfits : s.Fits instr) :
    Correlated s ([instr] ++ work ++ s.awaited) := by
  rw [append_assoc]
  refine h.plain (fun _ _ => ⟨rfl, rfl⟩) fun i hi => ?_
  obtain rfl := mem_singleton.mp hi
  exact ⟨hcarries, hfits⟩

theorem Correlated.answer {k : Nat} {c : Call} (h : Correlated s (work ++ s.awaited))
    (hk : s.rild[k]? = some c) (err : RadioError) : Correlated s
      ([.takePower c err] ++ (work ++ ({ s with rild := s.rild.eraseIdx k } : Modem).awaited)) := by
  obtain ⟨hlt, rfl⟩ := List.getElem?_eq_some_iff.mp hk
  have hrild := (getElem_cons_eraseIdx_perm hlt).map fun c => Instr.takePower c .none
  have hnext := h.perm ((hrild.symm.append_left work).trans perm_middle)
  refine hnext.advance rfl (fun _ _ => ⟨rfl, rfl⟩) (Sublist.refl _) fun i hi => ?_
  obtain rfl := mem_singleton.mp hi
  exact hnext.fits (.takePower s.rild[k] .none) (.head _)

structure Kept (s : Modem) (work : List Instr) : Prop where
  correlated : Correlated s (work ++ s.awaited)
  told : Told s work

theorem Kept.perm {work' : List Instr} (h : Kept s work) (hw : work.Perm work') : Kept s work' where
  correlated := h.correlated.perm (hw.append_right _)
  told slot := (h.told slot).mono ⟨rfl, rfl, rfl, rfl⟩ fun _ _ _ _ => hw.symm.mem_iff

theorem Kept.spawn {instr : Instr} (h : Kept s work) (hcarries : instr.carries = none)
    (hfits : s.Fits instr) (howes : instr.owes = none) : Kept s ([instr] ++ work) where
  correlated := h.correlated.spawn hcarries hfits
  told slot := (h.told slot).mono ⟨rfl, rfl, rfl, rfl⟩ (by grind)

theorem Kept.start (h : Kept s work) (ha : s.Apart work a) (hs : s.start a = some (s', program)) :
    Kept s' (program ++ work) := by
  cases a with
  | setRadioState req value =>
    cases hs
    exact h.spawn rfl trivial rfl
  | radioStateChanged | modemReset =>
    rw [Modem.start] at hs
    split_ifs at hs
    cases hs
    exact h.spawn rfl trivial rfl
  | answer k err =>
    obtain ⟨c, hk, heq⟩ := Option.map_eq_some_iff.mp hs
    cases heq
    have hnext := h.correlated.answer hk err
    rw [← append_assoc] at hnext
    exact ⟨{ hnext with }, fun slot => (h.told slot).mono ⟨rfl, rfl, rfl, rfl⟩ (by
      grind [Instr.owes])⟩
  | track req =>
    cases hs
    exact ⟨h.correlated.of_unused ha (fun _ hne => ⟨AList.lookup_insert_ne hne, rfl⟩) rfl,
      fun slot => (h.told slot).mono ⟨rfl, rfl, rfl, rfl⟩ fun _ _ _ _ => Iff.rfl⟩
  | nextSerial =>
    cases hs
    exact ⟨{ h.correlated with },
      fun slot => (h.told slot).mono ⟨rfl, rfl, rfl, rfl⟩ fun _ _ _ _ => Iff.rfl⟩
  | takePending serial =>
    cases hs
    exact ⟨h.correlated.of_unused ha (fun _ hne => ⟨AList.lookup_erase_ne hne, rfl⟩) rfl,
      fun slot => (h.told slot).mono ⟨rfl, rfl, rfl, rfl⟩ fun _ _ _ _ => Iff.rfl⟩

theorem kept_loaded : Kept {} loaded.work := by
  refine ⟨⟨nodup_nil, ?_⟩, fun slot => ⟨rfl, ?_, .inl ⟨rfl, nofun⟩⟩⟩
  · simp [loaded, Pool.work, connectLoop, slots, awaited, Fits]
  · simp [loaded, Pool.work, connectLoop, slots, Instr.owes]

end Runs

/-- **What the framework is told.**  While the notifications of a slot are sent in the order of the
stores and looks, `g_radioState` holds the state that was applied last, and when none is still to
come the last notification said it, unless an OFF of start-up was left unanswered. -/
theorem radio_state_told (actions : List (PoolAction Action Bool)) (p : Pool Modem Instr)
    (hrun : Support.run machine.step loaded actions = some p)
    (hordered : Along machine.step Ordered loaded actions) (slot : Int) :
    p.shared.radioState slot = lastApplied (p.shared.history slot) ∧
      (Quiet p.work slot → ¬ Unanswered (p.shared.history slot) →
        ∀ state, lastSent (p.shared.history slot) = some state →
          state = p.shared.radioState slot) := by
  have hkept : Kept p.shared p.work := by
    refine Machine.run_invariant (I := Kept) Kept.perm ?_ ?_ hordered hrun kept_loaded
    · exact fun h ha hs => h.start ha hs
    · rintro s rest ok instr s' todo ⟨hcorrelated, htold⟩ hturn hexec
      obtain ⟨rfl, rfl⟩ := Prod.mk.inj (Option.some.inj hexec)
      refine ⟨?_, htold.exec (hcorrelated.fits instr (.head _)) hturn⟩
      rw [append_assoc]
      exact hcorrelated.exec ok hturn
  obtain ⟨hcurrent, -, hinformed⟩ := hkept.told slot
  refine ⟨hcurrent, fun hquiet hanswered state hstate => ?_⟩
  rcases hinformed with ⟨-, hinformed⟩ | ⟨-, instr, hi, ticket, howes, -⟩
  · exact (hinformed state hstate).resolve_right hanswered
  · exact absurd howes (hquiet instr hi _ ticket)

/-- Both slots are connected and announced, and then the framework switches slot 0 on. -/
def turnedOn : List (PoolAction Action Bool) :=
  replicate 8 (.run 0 true) ++
    [.start (.setRadioState (some ⟨0, 0, .setRadioState⟩) 1), .run 1 true, .run 1 true, .run 1 true,
      .run 1 true, .start (.answer 0 .none), .run 2 true, .run 2 true, .run 2 true, .run 2 true,
      .run 2 true]

theorem radio_state_told_turnedOn :
    ∃ p, Support.run machine.step loaded turnedOn = some p ∧ Quiet p.work 0 ∧
      ¬ Unanswered (p.shared.history 0) ∧ lastSent (p.shared.history 0) = some .on ∧
      p.shared.radioState 0 = lastApplied (p.shared.history 0) ∧ .on = p.shared.radioState 0 := by
  have hordered : Along machine.step Ordered loaded turnedOn := by
    iterate 8 refine along_cons (Machine.allowed_run rfl trivial) rfl ?_
    refine along_cons trivial rfl ?_
    refine along_cons (Machine.allowed_run rfl trivial) rfl ?_
    refine along_cons (Machine.allowed_run rfl not_mem_nil) rfl ?_
    iterate 2 refine along_cons (Machine.allowed_run rfl trivial) rfl ?_
    refine along_cons trivial rfl ?_
    iterate 3 refine along_cons (Machine.allowed_run rfl trivial) rfl ?_
    refine along_cons (Machine.allowed_run rfl (Nat.le_refl 0)) rfl ?_
    exact along_cons (Machine.allowed_run rfl trivial) rfl trivial
  obtain ⟨p, hrun, hwork, hhistory⟩ : ∃ p, Support.run machine.step loaded turnedOn = some p ∧
      p.work = [.nudge 0 0 false] ∧
      p.shared.history 0 = [.notified .on, .powered .on .off, .announced .off] := ⟨_, rfl, rfl, rfl⟩
  have hquiet : Quiet p.work 0 := by
    rw [hwork]
    simp [Quiet, Instr.owes]
  have hanswered : ¬ Unanswered (p.shared.history 0) := by
    rw [hhistory]
    exact id
  have hsent : lastSent (p.shared.history 0) = some .on := by rw [hhistory]; rfl
  obtain ⟨hcurrent, htold⟩ := radio_state_told turnedOn p hrun hordered 0
  exact ⟨p, hrun, hquiet, hanswered, hsent, hcurrent, htold hquiet hanswered .on hsent⟩

/-- The radio is on before OFF is announced, and the `setRadioPower` that the framework asks for is
silent; an indication of ON overtakes one of OFF. -/
theorem radio_state_not_told :
    (∃ p, Support.run machine.step loaded
        (replicate 6 (.run 0 true) ++
          [.start (.radioStateChanged 0 .on), .run 1 true, .run 1 true] ++
            replicate 2 (.run 0 true) ++
              [.start (.setRadioState (some ⟨0, 0, .setRadioState⟩) 1)] ++
                replicate 4 (.run 2 true) ++ [.start (.answer 0 .none)] ++
                  replicate 4 (.run 3 true) ++
                    [.run 0 false, .run 0 false, .run 0 true, .run 0 false, .run 0 false,
                     .run 0 true]) = some p ∧
      p.work = [] ∧ p.shared.reports = [⟨.modem, ⟨0, 0, .setRadioState⟩, .success⟩] ∧
      p.shared.radioState 0 = .on ∧ lastSent (p.shared.history 0) = some .off) ∧
    ∃ p, Support.run machine.step loaded
        (replicate 8 (.run 0 true) ++
          [.run 0 false, .run 0 false, .run 0 true, .run 0 false, .run 0 false, .run 0 true,
           .start (.radioStateChanged 0 .off), .start (.radioStateChanged 0 .on), .run 1 true,
           .run 2 true, .run 2 true, .run 1 true]) = some p ∧
      p.work = [] ∧ p.shared.radioState 0 = .on ∧ lastSent (p.shared.history 0) = some .off :=
  ⟨⟨_, rfl, rfl, rfl, rfl, rfl⟩, ⟨_, rfl, rfl, rfl, rfl⟩⟩

end OniroSoc.Ril.Modem

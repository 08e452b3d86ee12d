import OniroSoc.Support.Pool
import OniroSoc.Ril.Bridge

/-!
# The radio power of a slot

`g_radioState` is the vendor's copy of the radio power of each slot.  `radioStateChanged` and
`modemReset` store to it and notify the framework, `setRadioPowerResponse` exchanges and notifies
when the value changed, and `ConnectLoop` announces OFF once without a look and then repeats the OFF
while it finds the slot off.  A store or a look and the notification after it are two steps, and
other threads may come in between: each notification that is to come has a ticket, which says in
which order the stores and looks were made.  The serials come from the tracker that all ops share.
-/

namespace OniroSoc.Ril
open Support

namespace Modem

inductive PowerState where
  | unavailable | off | on
deriving DecidableEq

inductive RadioState where
  | off | unavailable | on | other (value : Int)
deriving DecidableEq

def toHrilRadioState : RadioState → PowerState
  | .off => .off
  | .on => .on
  | _ => .unavailable

def powerState (on : Bool) : PowerState := if on then .on else .off

def offValue : Int := 0

/-- A `setRadioPower` that rild was asked for. -/
structure Call where
  (serial slot : Int)
  on : Bool
deriving DecidableEq

inductive Instr where
  -- `SetRadioState`
  | requireModem (req : Option Req) (on : Bool)
  | track (req : Req) (on : Bool)
  | remember (c : Call)
  | setRadioPower (c : Call)
  -- `setRadioPowerResponse`
  | takePower (c : Call) (err : RadioError)
  | takePending (c : Call) (requested : Option Bool) (err : RadioError)
  | exchange (slot : Int) (state : PowerState) (c : Call)
  | report (req : Option Req) (err : HrilErr)
  -- `radioStateChanged`, `modemReset`
  | store (slot : Int) (state : PowerState)
  | notify (slot : Int) (state : PowerState) (ticket : Nat)
  -- `ConnectLoop`
  | connect (slot : Int) (tries : Nat)
  | publish (slot : Int)
  | attach (slot : Int)
  | announce (slot : Int)
  | nudge (round : Nat) (slot : Int) (pending : Bool)
  | cached (round : Nat) (slot : Int) (pending : Bool)
  | renotify (round : Nat) (slot : Int) (ticket : Nat)
deriving DecidableEq

/-- What happened to a slot: an indication or a reset was applied, a successful `setRadioPower`
found a state, a notification was sent, OFF was announced at start-up while another state may have
stood. -/
inductive Event where
  | indicated (state : PowerState)
  | powered (state found : PowerState)
  | notified (state : PowerState)
  | announced (found : PowerState)
deriving DecidableEq

def slots : List Int := [0, 1]

def extraSlotTries : Nat := 15

def nudgeRounds : Nat := 30

def connectLoop : List Instr :=
  slots.map (fun slot => .connect slot 0) ++ slots.map .announce ++ [.nudge 0 0 false]

end Modem

structure Modem where
  tracker : Tracker (Option Req) NotifyTarget := {}
  (published attached : Int → Bool := fun _ => false)
  powerRequests : AList (fun _ : Int => Bool) := ∅
  radioState : Int → Modem.PowerState := fun _ => .off
  rild : List Modem.Call := []
  reports : List Report := []
  history : Int → List Modem.Event := fun _ => []
  /-- Per slot, the tickets given out, and the one after the last that was sent. -/
  (tickets sent : Int → Nat := fun _ => 0)

namespace Modem

def Has (s : Modem) (slot : Int) : Prop := InRange slot ∧ s.published slot = true

instance (s : Modem) (slot : Int) : Decidable (s.Has slot) := inferInstanceAs (Decidable (_ ∧ _))

def noted (s : Modem) (slot : Int) (event : Event) : Int → List Event :=
  Function.update s.history slot (event :: s.history slot)

def issue (s : Modem) (slot : Int) : Modem :=
  { s with tickets := Function.update s.tickets slot (s.tickets slot + 1) }

/-- `NotifyModem` with `HNOTI_MODEM_RADIO_STATE_UPDATED`. -/
def notifyModem (s : Modem) (slot : Int) (state : PowerState) (ticket : Nat) : Modem :=
  { s with
    history := s.noted slot (.notified state)
    sent := Function.update s.sent slot (ticket + 1) }

def exec (s : Modem) (ok : Bool) : Instr → Modem × List Instr
  | .requireModem none _ => (s, [])
  | .requireModem (some req) on =>
    (s, if s.Has req.slotId then [.track req on] else [.report (some req) .genericFailure])
  | .track req on =>
    let (serial, tracker) := s.tracker.track (some req)
    ({ s with tracker }, [.remember ⟨serial, req.slotId, on⟩])
  | .remember c =>
    ({ s with powerRequests := s.powerRequests.insert c.serial c.on }, [.setRadioPower c])
  | .setRadioPower c =>
    ({ s with rild := if ok && s.attached c.slot then s.rild ++ [c] else s.rild }, [])
  | .takePower c err =>
    ({ s with powerRequests := s.powerRequests.erase c.serial },
      [.takePending c (s.powerRequests.lookup c.serial) err])
  | .takePending c requested err =>
    let (found, tracker) := s.tracker.takePending c.serial
    let powering := match requested, err with
      | some on, .none => [.exchange (slotOf found.join) (powerState on) c]
      | _, _ => []
    ({ s with tracker }, powering ++ [.report found.join (toHrilError err)])
  | .exchange slot state c =>
    let s₁ := { s with
      radioState := Function.update s.radioState slot state
      history := s.noted c.slot (.powered (powerState c.on) (s.radioState slot)) }
    if s.radioState slot ≠ state then (s₁.issue slot, [.notify slot state (s.tickets slot)])
    else (s₁, [])
  | .report none _ => (s, [])
  | .report (some req) err => ({ s with reports := ⟨.modem, req, err⟩ :: s.reports }, [])
  | .store slot state =>
    let s₁ := { s with
      radioState := Function.update s.radioState slot state
      history := s.noted slot (.indicated state) }
    (s₁.issue slot, [.notify slot state (s.tickets slot)])
  | .notify slot state ticket => (s.notifyModem slot state ticket, [])
  | .connect slot tries =>
    (s, if ok then [.publish slot, .attach slot]
      -- Only slot 0 is waited for.
      else if 0 < slot ∧ extraSlotTries ≤ tries + 1 then []
      else [.connect slot (tries + 1)])
  | .publish slot => ({ s with published := Function.update s.published slot true }, [])
  | .attach slot =>
    ({ s with attached := if ok then Function.update s.attached slot true else s.attached }, [])
  | .announce slot => ({ s with history := s.noted slot (.announced (s.radioState slot)) }, [])
  | .nudge round slot pending =>
    (s, if slot < maxSlots then
        if ok then [.cached round slot pending] else [.nudge round (slot + 1) pending]
      else if (!pending && 0 < round) || nudgeRounds ≤ round + 1 then []
      else [.nudge (round + 1) 0 false])
  | .cached round slot pending =>
    if s.radioState slot = .off then (s.issue slot, [.renotify round slot (s.tickets slot)])
    else (s, [.nudge round (slot + 1) pending])
  | .renotify round slot ticket =>
    (s.notifyModem slot .off ticket, [.nudge round (slot + 1) true])

/-- What the framework and rild begin; the last three are the other ops' use of the tracker. -/
inductive Action where
  | setRadioState (req : Option Req) (value : Int)
  | radioStateChanged (slot : Int) (state : RadioState)
  | modemReset (slot : Int)
  | answer (k : Nat) (err : RadioError)
  | track (req : Option Req)
  | nextSerial
  | takePending (serial : Int)

def start (s : Modem) : Action → Option (Modem × List Instr)
  | .setRadioState req value => some (s, [.requireModem req (value != offValue)])
  | .radioStateChanged slot state =>
    if s.attached slot then some (s, [.store slot (toHrilRadioState state)]) else none
  | .modemReset slot => if s.attached slot then some (s, [.store slot .unavailable]) else none
  | .answer k err =>
    s.rild[k]?.map fun c => ({ s with rild := s.rild.eraseIdx k }, [.takePower c err])
  | .track req => some ({ s with tracker := (s.tracker.track req).2 }, [])
  | .nextSerial => some ({ s with tracker := s.tracker.nextSerial.2 }, [])
  | .takePending serial => some ({ s with tracker := (s.tracker.takePending serial).2 }, [])

def machine : Machine Modem Instr Action Bool where
  start := start
  exec s ok instr := some (s.exec ok instr)

/-- The bridge as it is loaded, with `ConnectLoop` on its thread. -/
def loaded : Pool Modem Instr := ⟨{}, [connectLoop]⟩

end Modem

end OniroSoc.Ril

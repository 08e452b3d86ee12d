import OniroSoc.Ril.Modem
import OniroSoc.Ril.Registration

/-!
# What a failed response leaves behind

The response handlers keep the AID of the SIM application, the access network of the data
registration, the registration last notified, and the radio power.  With an error the payload has
default values, and only the handler of `setRadioPower` looks at the error before it stores.
-/

namespace OniroSoc.Ril
open Support
open Modem (PowerState RadioState toHrilRadioState powerState)

inductive AccessNetwork where
  | unknown | geran | utran | eutran | cdma2000 | iwlan | ngran
deriving DecidableEq

def toAccessNetwork : RadioTechnology → AccessNetwork
  | .gprs | .edge | .gsm => .geran
  | .umts | .hsdpa | .hsupa | .hspa | .hspap | .tdScdma => .utran
  | .lte => .eutran
  | .is95a | .is95b | .oneXRtt | .evdo0 | .evdoA | .evdoB | .ehrpd => .cdma2000
  | .iwlan => .iwlan
  | .nr => .ngran
  | .other _ => .unknown

inductive DataRat where
  | gsm | gprs | edge | wcdma | hspa | hspap | hsdpa | hsupa | umts | tdScdma | dchspap | lte
  | lteCa | oneXRtt | evdo | ehrpd | is95a | is95b | evdo0 | evdoA | evdoB | iwlan | nr
  | other (value : Int)
deriving DecidableEq

def DataRat.toAccessNetwork : DataRat → AccessNetwork
  | .gsm | .gprs | .edge => .geran
  | .wcdma | .hspa | .hspap | .hsdpa | .hsupa | .umts | .tdScdma | .dchspap => .utran
  | .lte | .lteCa => .eutran
  | .oneXRtt | .evdo | .ehrpd | .is95a | .is95b | .evdo0 | .evdoA | .evdoB => .cdma2000
  | .iwlan => .iwlan
  | .nr => .ngran
  | .other _ => .unknown

inductive AppType where
  | sim | usim | other (value : Int)
deriving DecidableEq

inductive AppState where
  | ready | pin | puk | detected | subscriptionPerso | other (value : Int)
deriving DecidableEq

structure AppStatus where
  appType : AppType
  appState : AppState
  aidPtr : String
deriving DecidableEq

structure CardStatus where
  (cardState gsmUmtsSubscriptionAppIndex : Int := 0)
  applications : List AppStatus := []
  iccid : String := ""
deriving DecidableEq

inductive SimType where
  | unknown | sim | usim
deriving DecidableEq

inductive SimState where
  | notInserted | notReady | ready | pin | puk | phNetPin
deriving DecidableEq

structure CardState where
  index : Int := 0
  simType : SimType := .unknown
  simState : SimState := .notInserted
  iccid : String
deriving DecidableEq

def AppType.toSimType : AppType → SimType
  | .sim => .sim
  | .usim => .usim
  | .other _ => .unknown

def AppState.toSimState : AppState → SimState
  | .ready => .ready
  | .pin => .pin
  | .puk => .puk
  | .detected => .notReady
  | .subscriptionPerso => .phNetPin
  | .other _ => .notReady

def toHrilCardState (card : CardStatus) : CardState × String :=
  if card.cardState ≠ 1 then
    ({ simState := if card.cardState = 0 then .notInserted else .notReady, iccid := card.iccid },
      "")
  else if card.gsmUmtsSubscriptionAppIndex <
    0 then ({ simState := .notReady, iccid := card.iccid }, "")
  else
    match card.applications[card.gsmUmtsSubscriptionAppIndex.toNat]? with
    | none => ({ simState := .notReady, iccid := card.iccid }, "")
    | some app =>
      ({ simType := app.appType.toSimType, simState := app.appState.toSimState, iccid := card.iccid },
        app.aidPtr)

inductive Notification where
  | radioState (slot : Int) (state : PowerState)
  | registration (target : NotifyTarget) (out : RegStatusInfo)
deriving DecidableEq

structure SimIo where
  (command fileId : Int)
  path : String
  (p1 p2 p3 : Int)
  (data pin2 : String)
deriving DecidableEq

inductive Outgoing where
  | getImsiForApp (slot : Int) (aid : String)
  | iccIoForApp (slot : Int) (io : SimIo) (aid : String)
  | setupDataCall (slot : Int) (network : AccessNetwork)
deriving DecidableEq

@[ext]
structure Front where
  appAid : Int → String := fun _ => ""
  dataAccessNetwork : Int → AccessNetwork := fun _ => .unknown
  last : NotifyTarget → Option RegStatusInfo := fun _ => none
  radioState : Int → PowerState := fun _ => .off
  notified : List Notification := []
  sent : List Outgoing := []

inductive Payload where
  | empty
  | card (state : CardState)
  | registration (out : RegStatusInfo)
deriving DecidableEq

structure Reply where
  domain : Domain
  req : Req
  err : HrilErr
  payload : Payload := .empty
deriving DecidableEq

structure Book where
  tracker : Tracker (Option Req) NotifyTarget := {}
  powerRequests : AList (fun _ : Int => Bool) := ∅
  replies : List Reply := []

structure Radio where
  book : Book := {}
  front : Front := {}

namespace Front

def rememberAppAid (f : Front) (slot : Int) (aid : String) : Front :=
  if InRange slot then { f with appAid := Function.update f.appAid slot aid } else f

def rememberDataAccessNetwork (f : Front) (slot : Int) (rat : RadioTechnology) : Front :=
  if InRange slot ∧ toAccessNetwork rat ≠ .unknown then
    { f with dataAccessNetwork := Function.update f.dataAccessNetwork slot (toAccessNetwork rat) }
  else f

def regChanged (f : Front) (target : NotifyTarget) (out : RegStatusInfo) : Front :=
  if f.last target = some out then f
  else
    { f with
      last := Function.update f.last target (some out)
      notified := f.notified ++ [.registration target out] }

def storeRadioState (f : Front) (slot : Int) (state : PowerState) : Front :=
  { f with
    radioState := Function.update f.radioState slot state
    notified := f.notified ++ [.radioState slot state] }

def exchangeRadioState (f : Front) (slot : Int) (state : PowerState) : Front :=
  if f.radioState slot = state then f else f.storeRadioState slot state

def getAppAid (f : Front) (slot : Int) : String := if InRange slot then f.appAid slot else ""

def lastDataAccessNetwork (f : Front) (slot : Int) : AccessNetwork :=
  if InRange slot then f.dataAccessNetwork slot else .unknown

def accessNetworkFor (f : Front) (slot : Int) (rat : DataRat) : AccessNetwork :=
  if rat.toAccessNetwork ≠ .unknown then rat.toAccessNetwork else f.lastDataAccessNetwork slot

def send (f : Front) (call : Outgoing) : Front := { f with sent := f.sent ++ [call] }

end Front

namespace Book

def reply (b : Book) (domain : Domain) (serial : Int) (err : RadioError)
    (payload : Payload) : Book :=
  match b.tracker.takePending serial with
  | (some (some req), tracker) =>
    { b with tracker, replies := b.replies ++ [⟨domain, req, toHrilError err, payload⟩] }
  | (some none, tracker) => { b with tracker }
  | (none, _) => b

end Book

inductive Response where
  | getIccCardStatus (slot : Int) (card : CardStatus)
  | getVoiceRegistrationState (slot : Int) (reg : RegStateResult)
  | getDataRegistrationState (slot : Int) (reg : RegStateResult)
  | setRadioPower
  | plain (domain : Domain)

inductive Radio.Event where
  | response (serial : Int) (err : RadioError) (r : Response)
  | radioStateChanged (slot : Int) (state : RadioState)
  | modemReset (slot : Int)
  | networkStateChanged (slot : Int)
  | setRadioState (req : Req) (on : Bool)
  | getSimImsi (req : Req)
  | getSimIo (req : Req) (io : SimIo)
  | activatePdpContext (req : Req) (rat : DataRat)
  | track (req : Option Req)
  | nextSerial

namespace Radio

def getIccCardStatusResponse (s : Radio) (slot serial : Int) (err : RadioError)
    (card : CardStatus) : Radio where
  -- not only when there is a request
  front := s.front.rememberAppAid slot (toHrilCardState card).2
  book := s.book.reply .sim serial err (.card (toHrilCardState card).1)

def reportReg (s : Radio) (serial : Int) (err : RadioError) (reg : RegStateResult) : Radio :=
  match s.book.tracker.takeNotify serial with
  | (some target, tracker) =>
    { book := { s.book with tracker }, front := s.front.regChanged target (toHrilRegStatusInfo reg) }
  | (none, _) =>
    { s with book := s.book.reply .network serial err (.registration (toHrilRegStatusInfo reg)) }

def getDataRegistrationStateResponse (s : Radio) (slot serial : Int) (err : RadioError)
    (reg : RegStateResult) : Radio :=
  { s with front := s.front.rememberDataAccessNetwork slot reg.rat }.reportReg serial err reg

def setRadioPowerResponse (s : Radio) (serial : Int) (err : RadioError) : Radio :=
  let requested := s.book.powerRequests.lookup serial
  let slot := slotOf (s.book.tracker.takePending serial).1.join
  { book := { s.book with powerRequests := s.book.powerRequests.erase serial }.reply .modem serial err .empty
    front := match requested, err with
      | some on, .none => s.front.exchangeRadioState slot (powerState on)
      | _, _ => s.front }

def respond (s : Radio) (serial : Int) (err : RadioError) : Response → Radio
  | .getIccCardStatus slot card => s.getIccCardStatusResponse slot serial err card
  | .getVoiceRegistrationState _ reg => s.reportReg serial err reg
  | .getDataRegistrationState slot reg => s.getDataRegistrationStateResponse slot serial err reg
  | .setRadioPower => s.setRadioPowerResponse serial err
  | .plain domain => { s with book := s.book.reply domain serial err .empty }

def tracked (s : Radio) (req : Option Req) : Radio :=
  { s with book := { s.book with tracker := (s.book.tracker.track req).2 } }

def trackedNotify (s : Radio) (target : NotifyTarget) : Radio :=
  { s with book := { s.book with tracker := (s.book.tracker.trackNotify target).2 } }

def step (s : Radio) : Event → Radio
  | .response serial err r => s.respond serial err r
  | .radioStateChanged slot state =>
    { s with front := s.front.storeRadioState slot (toHrilRadioState state) }
  | .modemReset slot => { s with front := s.front.storeRadioState slot .unavailable }
  | .networkStateChanged slot =>
    (s.trackedNotify ⟨slot, .csRegStatusUpdated⟩).trackedNotify ⟨slot, .psRegStatusUpdated⟩
  | .setRadioState req on =>
    { s with book := { s.book with
      tracker := (s.book.tracker.track (some req)).2
      powerRequests := s.book.powerRequests.insert (s.book.tracker.track (some req)).1 on } }
  | .getSimImsi req =>
    { s.tracked req with
      front := s.front.send (.getImsiForApp req.slotId (s.front.getAppAid req.slotId)) }
  | .getSimIo req io =>
    { s.tracked req with
      front := s.front.send (.iccIoForApp req.slotId io (s.front.getAppAid req.slotId)) }
  | .activatePdpContext req rat =>
    { s.tracked req with
      front := s.front.send (.setupDataCall req.slotId (s.front.accessNetworkFor req.slotId rat)) }
  | .track req => s.tracked req
  | .nextSerial => { s with book := { s.book with tracker := s.book.tracker.nextSerial.2 } }

end Radio

def Radio.Renews (s : Radio) (serial : Int) (reg : RegStateResult) : Prop :=
  ∃ target ∈ s.book.tracker.notifying.lookup serial,
    s.front.last target ≠ some (toHrilRegStatusInfo reg)

def Radio.Stale (s : Radio) (serial : Int) : Response → Prop
  | .getIccCardStatus slot card => InRange slot → (toHrilCardState card).2 = s.front.appAid slot
  | .getVoiceRegistrationState _ reg => ¬ s.Renews serial reg
  | .getDataRegistrationState slot reg =>
    (InRange slot → toAccessNetwork reg.rat ≠ .unknown →
      toAccessNetwork reg.rat = s.front.dataAccessNetwork slot) ∧ ¬ s.Renews serial reg
  | _ => True

instance (s : Radio) (serial : Int) (reg : RegStateResult) : Decidable (s.Renews serial reg) :=
  inferInstanceAs (Decidable (∃ _ ∈ _, _))

instance (s : Radio) (serial : Int) : DecidablePred (s.Stale serial)
  | .getIccCardStatus .. => inferInstanceAs (Decidable (_ → _))
  | .getVoiceRegistrationState .. => inferInstanceAs (Decidable (¬ _))
  | .getDataRegistrationState .. => inferInstanceAs (Decidable ((_ → _ → _) ∧ ¬ _))
  | .setRadioPower | .plain _ => inferInstanceAs (Decidable True)

/-- The event is no failed response, or one that brings nothing. -/
def Radio.Harmless (s : Radio) : Radio.Event → Prop
  | .response serial err r => err ≠ .none → s.Stale serial r
  | _ => True

instance (s : Radio) : DecidablePred s.Harmless
  | .response .. => inferInstanceAs (Decidable (_ → _))
  | .radioStateChanged .. | .modemReset _ | .networkStateChanged _ | .setRadioState ..
  | .getSimImsi _ | .getSimIo .. | .activatePdpContext .. | .track _ | .nextSerial =>
    inferInstanceAs (Decidable True)

namespace Front
variable (f : Front)

theorem rememberAppAid_eq_iff (slot : Int) (aid : String) :
    f.rememberAppAid slot aid = f ↔ (InRange slot → aid = f.appAid slot) := by
  unfold rememberAppAid
  by_cases hslot : InRange slot
  · simp [hslot, Front.ext_iff, Function.update_eq_self_iff]
  · simp [hslot]

theorem rememberDataAccessNetwork_eq_iff (slot : Int) (rat : RadioTechnology) :
    f.rememberDataAccessNetwork slot rat = f ↔
      (InRange slot → toAccessNetwork rat ≠ .unknown →
        toAccessNetwork rat = f.dataAccessNetwork slot) := by
  unfold rememberDataAccessNetwork
  by_cases hslot : InRange slot ∧ toAccessNetwork rat ≠ .unknown
  · simp [hslot, Front.ext_iff, Function.update_eq_self_iff]
  · rw [if_neg hslot]
    exact ⟨fun _ h₁ h₂ => absurd ⟨h₁, h₂⟩ hslot, fun _ => rfl⟩

theorem rememberDataAccessNetwork_eq {slot : Int} {rat : RadioTechnology}
    (h : (f.rememberDataAccessNetwork slot rat).dataAccessNetwork = f.dataAccessNetwork) :
    f.rememberDataAccessNetwork slot rat = f := by
  unfold rememberDataAccessNetwork at *
  split at h
  · next hslot =>
    rw [if_pos hslot]
    exact Front.ext rfl h rfl rfl rfl rfl
  · next hslot => rw [if_neg hslot]

theorem regChanged_dataAccessNetwork (target : NotifyTarget) (out : RegStatusInfo) :
    (f.regChanged target out).dataAccessNetwork = f.dataAccessNetwork := by
  unfold regChanged
  split <;> rfl

theorem regChanged_notified_iff (target : NotifyTarget) (out : RegStatusInfo) :
    (f.regChanged target out).notified = f.notified ↔ f.last target = some out := by
  unfold regChanged
  by_cases hlast : f.last target = some out <;> simp [hlast]

theorem regChanged_eq_iff (target : NotifyTarget) (out : RegStatusInfo) :
    f.regChanged target out = f ↔ f.last target = some out := by
  rw [← regChanged_notified_iff]
  refine ⟨congrArg notified, fun h => ?_⟩
  rw [regChanged, if_pos ((f.regChanged_notified_iff target out).mp h)]

end Front

namespace Radio
variable (s : Radio)

theorem reportReg_front (serial : Int) (err : RadioError) (reg : RegStateResult) :
    (s.reportReg serial err reg).front =
      match s.book.tracker.notifying.lookup serial with
      | some target => s.front.regChanged target (toHrilRegStatusInfo reg)
      | none => s.front := by
  unfold reportReg Tracker.takeNotify
  cases s.book.tracker.notifying.lookup serial <;> rfl

theorem reportReg_front_eq_iff (serial : Int) (err : RadioError) (reg : RegStateResult) :
    (s.reportReg serial err reg).front = s.front ↔ ¬ s.Renews serial reg := by
  rw [reportReg_front, Renews]
  cases hfound : s.book.tracker.notifying.lookup serial with
  | none => simp
  | some target => simp [Front.regChanged_eq_iff]

theorem reportReg_dataAccessNetwork (serial : Int) (err : RadioError) (reg : RegStateResult) :
    (s.reportReg serial err reg).front.dataAccessNetwork = s.front.dataAccessNetwork := by
  rw [reportReg_front]
  split
  · exact Front.regChanged_dataAccessNetwork ..
  · rfl

theorem getDataRegistrationStateResponse_eq_iff (slot serial : Int) (err : RadioError)
    (reg : RegStateResult) :
    (s.getDataRegistrationStateResponse slot serial err reg).front = s.front ↔
      s.front.rememberDataAccessNetwork slot reg.rat = s.front ∧ ¬ s.Renews serial reg := by
  unfold getDataRegistrationStateResponse
  constructor
  · intro h
    -- the network is stored before the record is looked at, and `ReportReg` does not put it back
    have hsame : s.front.rememberDataAccessNetwork slot reg.rat = s.front := by
      refine s.front.rememberDataAccessNetwork_eq ?_
      rw [← congrArg Front.dataAccessNetwork h, reportReg_dataAccessNetwork]
    rw [hsame] at h
    exact ⟨hsame, (s.reportReg_front_eq_iff serial err reg).mp h⟩
  · rintro ⟨hsame, hnews⟩
    rw [hsame]
    exact (s.reportReg_front_eq_iff serial err reg).mpr hnews

theorem setRadioPowerResponse_failed (serial : Int) {err : RadioError} (herr : err ≠ .none) :
    (s.setRadioPowerResponse serial err).front = s.front := by
  unfold setRadioPowerResponse
  dsimp only
  split
  · exact absurd rfl herr
  · rfl

theorem respond_failed_iff (serial : Int) {err : RadioError} (herr : err ≠ .none) (r : Response) :
    (s.respond serial err r).front = s.front ↔ s.Stale serial r := by
  cases r with
  | getIccCardStatus slot card => exact s.front.rememberAppAid_eq_iff slot _
  | getVoiceRegistrationState slot reg => exact s.reportReg_front_eq_iff serial err reg
  | getDataRegistrationState slot reg =>
    refine (s.getDataRegistrationStateResponse_eq_iff slot serial err reg).trans ?_
    rw [Front.rememberDataAccessNetwork_eq_iff]
    rfl
  | setRadioPower => exact iff_of_true (s.setRadioPowerResponse_failed serial herr) trivial
  | plain domain => exact iff_of_true rfl trivial

end Radio

def Radio.Event.isFailed : Radio.Event → Bool
  | .response _ err _ => err ≠ .none
  | _ => false

structure Compared where
  live : Radio
  clean : Front

namespace Compared

/-- A failed response passes the clean front by; everything else happens to it as well. -/
def step (w : Compared) (e : Radio.Event) : Option Compared :=
  some ⟨w.live.step e, if e.isFailed then w.clean
    else ({ w.live with front := w.clean }.step e).front⟩

/-- The caches, the notifications and the calls are those of the successful responses alone. -/
def Clean (w : Compared) : Prop := w.live.front = w.clean

theorem clean_step {w w' : Compared} {e : Radio.Event} (h : w.Clean) (hs : w.step e = some w') :
    w'.Clean ↔ w.live.Harmless e := by
  obtain ⟨live, clean⟩ := w
  obtain rfl : live.front = clean := h
  cases hs
  cases e with
  | response serial err r =>
    by_cases herr : err = .none
    · subst herr
      exact iff_of_true rfl fun hne => absurd rfl hne
    · have hfailed : (Radio.Event.response serial err r).isFailed = true := decide_eq_true herr
      simp only [Clean, hfailed, if_true]
      refine (live.respond_failed_iff serial herr r).trans ?_
      exact ⟨fun hstale _ => hstale, fun hok => hok herr⟩
  | _ => exact iff_of_true rfl trivial

/-- **Only harmless failures leave the caches clean**: exactly if each failed response brings
nothing or what is cached already. -/
theorem front_clean_iff (s : Radio) (es : List Radio.Event) (w : Compared)
    (hrun : run step ⟨s, s.front⟩ es = some w) :
    Always step Clean ⟨s, s.front⟩ es ↔ Along step (fun w e => w.live.Harmless e) ⟨s, s.front⟩ es :=
  always_iff_along (fun _ h => h) (fun _ _ _ h hok hs => (clean_step h hs).mpr hok)
    (fun _ _ _ h hbad hs => mt (clean_step h hs).mp hbad) hrun rfl

def usim : CardStatus :=
  { cardState := 1, applications := [⟨.usim, .ready, "A0000000871002"⟩], iccid := "8949" }

def request (id : Nat) (op : Op) : Req := ⟨id, 0, op⟩

def readFile : SimIo := ⟨0xb0, 0x6f07, "3F007FFF", 0, 0, 9, "", ""⟩

def notRegistered : RegStateResult := ⟨.notRegMtNotSearchingOp, .other 0, .other⟩

def harmless : List Radio.Event :=
  [.track (request 0 .getSimStatus), .response 1 .none (.getIccCardStatus 0 usim),
    .setRadioState (request 1 .setRadioState) true, .response 2 .radioNotAvailable .setRadioPower,
    .track (request 2 .getPsRegStatus),
    .response 3 .radioNotAvailable (.getDataRegistrationState 0 notRegistered),
    .getSimIo (request 3 (.getSimIo true)) readFile]

def wiped : List Radio.Event :=
  [.track (request 0 .getSimStatus), .response 1 .none (.getIccCardStatus 0 usim),
    .track (request 1 .getSimStatus), .response 2 .radioNotAvailable (.getIccCardStatus 0 {}),
    .getSimIo (request 2 (.getSimIo true)) readFile]

theorem front_clean_harmless :
    ∃ w, run step ⟨{}, {}⟩ harmless = some w ∧
      w.live.front.sent = [.iccIoForApp 0 readFile "A0000000871002"] ∧
      Always step Clean ⟨{}, {}⟩ harmless :=
  ⟨_, rfl, by decide, (front_clean_iff {} harmless _ rfl).mpr
    (along_of_check (fun (w : Compared) e => of_decide_eq_true (p := w.live.Harmless e))
    (by decide))⟩

theorem aid_wiped : ∃ w, run step ⟨{}, {}⟩ wiped = some w ∧ w.live.front.appAid 0 = "" ∧
    w.live.front.sent = [.iccIoForApp 0 readFile ""] ∧ w.clean.appAid 0 = "A0000000871002" ∧
    w.clean.sent = [.iccIoForApp 0 readFile "A0000000871002"] :=
  ⟨_, rfl, by decide, by decide, by decide, by decide⟩

end Compared

end OniroSoc.Ril

import Mathlib.Tactic

/-!
# The op tables

`Op` has the members of the six op tables that are not NULL, with what they look at to decide, and
`Op.plan` says what each does.  `Method.reportsTo` is the domain that the response handler of an
AIDL method reports to.
-/

namespace OniroSoc.Ril

inductive Service where
  | modem | sim | network | messaging | data | voice
deriving DecidableEq

inductive Domain where
  | modem | sim | network | sms | data | call
deriving DecidableEq

def Service.domain : Service → Domain
  | .modem => .modem
  | .sim => .sim
  | .network => .network
  | .messaging => .sms
  | .data => .data
  | .voice => .call

inductive HrilErr where
  | success
  | genericFailure
  | invalidParameter
  | modemDeviceClose
  | pinPukPasswordNoCorrect
  | needPinCode
  | needPukCode
  | vendorNotImplement
  | noSimcardInserted
deriving DecidableEq

inductive RadioError where
  | none
  | radioNotAvailable
  | passwordIncorrect
  | simPin2
  | simPuk2
  | requestNotSupported
  | simAbsent
  | invalidArguments
  | other (code : Int)
deriving DecidableEq

def toHrilError : RadioError → HrilErr
  | .none => .success
  | .radioNotAvailable => .modemDeviceClose
  | .passwordIncorrect => .pinPukPasswordNoCorrect
  | .simPin2 => .needPinCode
  | .simPuk2 => .needPukCode
  | .requestNotSupported => .vendorNotImplement
  | .simAbsent => .noSimcardInserted
  | .invalidArguments => .invalidParameter
  | .other _ => .genericFailure

inductive Method where
  | setRadioPower | getImei | getBasebandVersion | requestShutdown
  | getIccCardStatus | getImsiForApp | iccIoForApp | enableUiccApplications
  | supplyIccPinForApp | supplyIccPukForApp | supplyIccPin2ForApp | supplyIccPuk2ForApp
  | getFacilityLockForApp | setFacilityLockForApp
  | getSignalStrength | getVoiceRegistrationState | getDataRegistrationState | getOperator
  | getNetworkSelectionMode | setNetworkSelectionModeAutomatic | setNetworkSelectionModeManual
  | getAllowedNetworkTypesBitmap | setAllowedNetworkTypesBitmap | setLocationUpdates
  | setIndicationFilter | setBarringPassword | setSuppServiceNotifications
  | sendSms | sendSmsExpectMore | acknowledgeLastIncomingGsmSms | getSmscAddress | setSmscAddress
  | reportSmsMemoryStatus | writeSmsToSim | deleteSmsOnSim
  | setupDataCall | deactivateDataCall | getDataCallList | setInitialAttachApn | setDataProfile
  | setDataAllowed
  | getCurrentCalls | dial | acceptCall | rejectCall | hangup | switchWaitingOrHoldingAndActive
  | conference | separateConnection | hangupWaitingOrBackground | hangupForegroundResumeBackground
  | explicitCallTransfer | startDtmf | sendDtmf | stopDtmf | setMute | getMute
  | getLastCallFailCause | getClip | getClir | setClir | getCallWaiting | setCallWaiting
  | getCallForwardStatus | setCallForward | sendUssd | cancelPendingUssd
deriving DecidableEq

def Method.service : Method → Service
  | .setRadioPower | .getImei | .getBasebandVersion | .requestShutdown => .modem
  | .getIccCardStatus | .getImsiForApp | .iccIoForApp | .enableUiccApplications
  | .supplyIccPinForApp | .supplyIccPukForApp | .supplyIccPin2ForApp | .supplyIccPuk2ForApp
  | .getFacilityLockForApp | .setFacilityLockForApp => .sim
  | .getSignalStrength | .getVoiceRegistrationState | .getDataRegistrationState | .getOperator
  | .getNetworkSelectionMode | .setNetworkSelectionModeAutomatic | .setNetworkSelectionModeManual
  | .getAllowedNetworkTypesBitmap | .setAllowedNetworkTypesBitmap | .setLocationUpdates
  | .setIndicationFilter | .setBarringPassword | .setSuppServiceNotifications => .network
  | .sendSms | .sendSmsExpectMore | .acknowledgeLastIncomingGsmSms | .getSmscAddress
  | .setSmscAddress | .reportSmsMemoryStatus | .writeSmsToSim | .deleteSmsOnSim => .messaging
  | .setupDataCall | .deactivateDataCall | .getDataCallList | .setInitialAttachApn | .setDataProfile
  | .setDataAllowed => .data
  | _ => .voice

def Method.reportsTo : Method → Domain
  | .getFacilityLockForApp | .setFacilityLockForApp => .call
  | .setBarringPassword | .setSuppServiceNotifications => .call
  | method => method.service.domain

def Method.isRegistration : Method → Bool
  | .getVoiceRegistrationState | .getDataRegistrationState => true
  | _ => false

/-- A Boolean argument says that the payload passes the check made of it: it is there and long
enough, it names a number, a facility or a key.  `fresh` says that `RegisterProfile` does not know
the profile yet. -/
inductive Op where
  | setRadioState | getRadioState | getImei | getImeiSv | getMeid | getVoiceRadioTechnology
  | getBasebandVersion | shutDown
  | getSimStatus | getSimIo (payload : Bool) | getSimImsi | unlockPin | unlockPuk | unlockPin2
  | unlockPuk2 | setActiveSim
  | getSignalStrength | getCsRegStatus | getPsRegStatus | getOperatorInfo | getNetworkSelectionMode
  | setNetworkSelectionMode (manual : Bool) | getPreferredNetwork | setPreferredNetwork
  | setLocateUpdates | setNotificationFilter
  | sendGsmSms (payload more : Bool) | sendSmsAck (payload : Bool) | addSimMessage (payload : Bool)
  | delSimMessage (payload : Bool) | setSmscAddr (payload : Bool) | getSmscAddr | setSmsMemoryStatus
  | setInitApnInfo (payload fresh : Bool) | activatePdpContext (payload fresh : Bool)
  | deactivatePdpContext (payload : Bool) | getPdpContextList | setDataProfileInfo (payload : Bool)
  | setDataPermitted | activatePdpContextWithApnTypes (payload fresh : Bool)
  | getCallList | dial (number : Bool) | hangup (index : Bool) | reject | answer | getClip | setClip
  | holdCall | unHoldCall | switchCall | combineConference | separateConference (callIndex : Int)
  | callSupplement (type : Int) | getCallWaiting | setCallWaiting | setCallTransferInfo
  | getCallTransferInfo | getCallRestriction (fac : Bool) | setCallRestriction (fac : Bool)
  | getClir | setClir | startDtmf (key : Bool) | sendDtmf (key : Bool) | stopDtmf
  | setUssd (str : Bool) | getUssd | setMute | getMute | getCallFailReason
  | setBarringPassword (fac : Bool) | closeUnFinishedUssd | explicitCallTransferConnection
  | setSuppSrvNotification
deriving DecidableEq

def Op.domain : Op → Domain
  | .setRadioState | .getRadioState | .getImei | .getImeiSv | .getMeid | .getVoiceRadioTechnology
  | .getBasebandVersion | .shutDown => .modem
  | .getSimStatus | .getSimIo _ | .getSimImsi | .unlockPin | .unlockPuk | .unlockPin2 | .unlockPuk2
  | .setActiveSim => .sim
  | .getSignalStrength | .getCsRegStatus | .getPsRegStatus | .getOperatorInfo
  | .getNetworkSelectionMode | .setNetworkSelectionMode _ | .getPreferredNetwork
  | .setPreferredNetwork | .setLocateUpdates | .setNotificationFilter => .network
  | .sendGsmSms _ _ | .sendSmsAck _ | .addSimMessage _ | .delSimMessage _ | .setSmscAddr _
  | .getSmscAddr | .setSmsMemoryStatus => .sms
  | .setInitApnInfo _ _ | .activatePdpContext _ _ | .deactivatePdpContext _ | .getPdpContextList
  | .setDataProfileInfo _ | .setDataPermitted | .activatePdpContextWithApnTypes _ _ => .data
  | _ => .call

/-- How an op gets at the service: through `Require`, which wants a request and looks under its own
slot, or as `Sim(SlotOf(request))`, which falls back on slot 0. -/
inductive Access where
  | require
  | slotOf
deriving DecidableEq

inductive Body where
  | refuse (domain : Domain) (err : HrilErr)
  | call (registers : Bool) (method : Method)

inductive Plan where
  | answer (domain : Domain) (err : HrilErr)
  | ask (service : Service) (access : Access) (body : Body)

namespace Plan

def fire (method : Method) : Plan := .ask method.service .require (.call false method)

def check (domain : Domain) (payload : Bool) (method : Method) : Plan :=
  .ask method.service .require
    (if payload then .call false method else .refuse domain .invalidParameter)

def activate (payload fresh : Bool) (method : Method) : Plan :=
  .ask method.service .require
    (if payload then .call fresh method else .refuse .data .invalidParameter)

def across (fac : Bool) (method : Method) : Plan :=
  .ask method.service .slotOf (if fac then .call false method else .refuse .call .invalidParameter)

end Plan

open Plan in
def Op.plan : Op → Plan
  | .setRadioState => fire .setRadioPower
  | .getRadioState => .answer .modem .success
  | .getImei => fire .getImei
  | .getImeiSv => fire .getImei
  | .getMeid => .answer .modem .success
  | .getVoiceRadioTechnology => .answer .modem .success
  | .getBasebandVersion => fire .getBasebandVersion
  | .shutDown => fire .requestShutdown
  | .getSimStatus => fire .getIccCardStatus
  | .getSimIo payload => check .sim payload .iccIoForApp
  | .getSimImsi => fire .getImsiForApp
  | .unlockPin => fire .supplyIccPinForApp
  | .unlockPuk => fire .supplyIccPukForApp
  | .unlockPin2 => fire .supplyIccPin2ForApp
  | .unlockPuk2 => fire .supplyIccPuk2ForApp
  | .setActiveSim => fire .enableUiccApplications
  | .getSignalStrength => fire .getSignalStrength
  | .getCsRegStatus => fire .getVoiceRegistrationState
  | .getPsRegStatus => fire .getDataRegistrationState
  | .getOperatorInfo => fire .getOperator
  | .getNetworkSelectionMode => fire .getNetworkSelectionMode
  | .setNetworkSelectionMode manual =>
    fire (if manual then .setNetworkSelectionModeManual else .setNetworkSelectionModeAutomatic)
  | .getPreferredNetwork => fire .getAllowedNetworkTypesBitmap
  | .setPreferredNetwork => fire .setAllowedNetworkTypesBitmap
  | .setLocateUpdates => fire .setLocationUpdates
  | .setNotificationFilter => fire .setIndicationFilter
  | .sendGsmSms payload more => check .sms payload (if more then .sendSmsExpectMore else .sendSms)
  | .sendSmsAck payload => check .sms payload .acknowledgeLastIncomingGsmSms
  | .addSimMessage payload => check .sms payload .writeSmsToSim
  | .delSimMessage payload => check .sms payload .deleteSmsOnSim
  | .setSmscAddr payload => check .sms payload .setSmscAddress
  | .getSmscAddr => fire .getSmscAddress
  | .setSmsMemoryStatus => fire .reportSmsMemoryStatus
  | .setInitApnInfo payload fresh => activate payload fresh .setInitialAttachApn
  | .activatePdpContext payload fresh => activate payload fresh .setupDataCall
  | .deactivatePdpContext payload => check .data payload .deactivateDataCall
  | .getPdpContextList => fire .getDataCallList
  | .setDataProfileInfo payload => check .data payload .setDataProfile
  | .setDataPermitted => fire .setDataAllowed
  | .activatePdpContextWithApnTypes payload fresh =>
    -- Here the payload is looked at before the service is.
    if payload then activate payload fresh .setupDataCall else .answer .data .invalidParameter
  | .getCallList => fire .getCurrentCalls
  | .dial number => check .call number .dial
  | .hangup index => check .call index .hangup
  | .reject => fire .rejectCall
  | .answer => fire .acceptCall
  | .getClip => fire .getClip
  | .setClip => .answer .call .success
  | .holdCall => fire .switchWaitingOrHoldingAndActive
  | .unHoldCall => fire .switchWaitingOrHoldingAndActive
  | .switchCall => fire .switchWaitingOrHoldingAndActive
  | .combineConference => fire .conference
  | .separateConference callIndex => check .call (decide (0 < callIndex)) .separateConnection
  | .callSupplement type =>
    -- `TYPE_HANG_UP_HOLD_WAIT` and `TYPE_HANG_UP_ACTIVE`.
    if type = 0 then fire .hangupWaitingOrBackground
    else if type = 1 then fire .hangupForegroundResumeBackground
    else .ask .voice .require (.refuse .call .invalidParameter)
  | .getCallWaiting => fire .getCallWaiting
  | .setCallWaiting => fire .setCallWaiting
  | .setCallTransferInfo => fire .setCallForward
  | .getCallTransferInfo => fire .getCallForwardStatus
  | .getCallRestriction fac => across fac .getFacilityLockForApp
  | .setCallRestriction fac => across fac .setFacilityLockForApp
  | .getClir => fire .getClir
  | .setClir => fire .setClir
  | .startDtmf key => check .call key .startDtmf
  | .sendDtmf key => check .call key .sendDtmf
  | .stopDtmf => fire .stopDtmf
  | .setUssd str => check .call str .sendUssd
  | .getUssd => .answer .call .success
  | .setMute => fire .setMute
  | .getMute => fire .getMute
  | .getCallFailReason => fire .getLastCallFailCause
  | .setBarringPassword fac => across fac .setBarringPassword
  | .closeUnFinishedUssd => fire .cancelPendingUssd
  | .explicitCallTransferConnection => fire .explicitCallTransfer
  | .setSuppSrvNotification => across true .setSuppServiceNotifications

def Body.Within (domain : Domain) : Body → Prop
  | .refuse d _ => d = domain
  | .call _ method => method.reportsTo = domain

def Plan.Within (domain : Domain) : Plan → Prop
  | .answer d _ => d = domain
  | .ask service .require body => service.domain = domain ∧ body.Within domain
  | .ask _ .slotOf body => .call = domain ∧ body.Within domain

section Within
variable {domain : Domain} {method : Method}

theorem Plan.within_fire (hs : method.service.domain = domain) (hr : method.reportsTo = domain) :
    (fire method).Within domain := ⟨hs, hr⟩

theorem Plan.within_check (payload : Bool) (hs : method.service.domain = domain)
    (hr : method.reportsTo = domain) : (check domain payload method).Within domain := by
  cases payload with
  | false => exact ⟨hs, rfl⟩
  | true => exact ⟨hs, hr⟩

theorem Plan.within_activate (payload fresh : Bool) (hs : method.service.domain = .data)
    (hr : method.reportsTo = .data) : (activate payload fresh method).Within .data := by
  cases payload with
  | false => exact ⟨hs, rfl⟩
  | true => exact ⟨hs, hr⟩

theorem Plan.within_across (fac : Bool) (hr : method.reportsTo = .call) :
    (across fac method).Within .call := by
  cases fac with
  | false => exact ⟨rfl, rfl⟩
  | true => exact ⟨rfl, hr⟩

end Within

open Plan in
theorem Op.plan_within (op : Op) : op.plan.Within op.domain := by
  cases op with
  | setNetworkSelectionMode manual => cases manual <;> exact within_fire rfl rfl
  | sendGsmSms payload more => cases more <;> exact within_check payload rfl rfl
  | getSimIo payload | sendSmsAck payload | addSimMessage payload | delSimMessage payload
    | setSmscAddr payload | deactivatePdpContext payload | setDataProfileInfo payload =>
    exact within_check payload rfl rfl
  | dial number => exact within_check number rfl rfl
  | hangup index => exact within_check index rfl rfl
  | separateConference callIndex => exact within_check _ rfl rfl
  | startDtmf key => exact within_check key rfl rfl
  | sendDtmf key => exact within_check key rfl rfl
  | setUssd str => exact within_check str rfl rfl
  | setInitApnInfo payload fresh => exact within_activate payload fresh rfl rfl
  | activatePdpContext payload fresh => exact within_activate payload fresh rfl rfl
  | activatePdpContextWithApnTypes payload fresh =>
    cases payload with
    | false => rfl
    | true => exact within_activate true fresh rfl rfl
  | callSupplement type =>
    rw [Op.plan]
    split_ifs
    · exact within_fire rfl rfl
    · exact within_fire rfl rfl
    · exact ⟨rfl, rfl⟩
  | getCallRestriction fac | setCallRestriction fac | setBarringPassword fac =>
    exact within_across fac rfl
  | setSuppSrvNotification => exact within_across true rfl
  | getRadioState => rfl
  | getMeid => rfl
  | getVoiceRadioTechnology => rfl
  | setClip => rfl
  | getUssd => rfl
  | _ => exact within_fire rfl rfl

end OniroSoc.Ril

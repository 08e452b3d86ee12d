import OniroSoc.Ril.Caches

/-!
# The profiles that the modem knows

The modem sets up a data call only for an APN in its own table, which `setDataProfile` replaces as a
whole. `RegisterProfile` keeps the profiles of a slot in `g_profiles`, and pushes the list when an
activation comes with one that is not in it.
-/

namespace OniroSoc.Ril
open Support Function

inductive PdpProtocolType where
  | ip | ipv6 | ipv4v6 | ppp | nonIp | unstructured
deriving DecidableEq

def toProtocol : Option String → PdpProtocolType
  | some "IP" | some "IPV4" => .ip
  | some "IPV6" => .ipv6
  | some "PPP" => .ppp
  | some "NON-IP" | some "NONIP" => .nonIp
  | some "UNSTRUCTURED" => .unstructured
  | _ => .ipv4v6

structure DataInfo where
  (apn type roamingType : Option String := none)
  verType : Int := 0
  (userName password : Option String := none)

namespace ApnTypes

def default : BitVec 32 := 1
def dun : BitVec 32 := 8
def fota : BitVec 32 := 32
def ims : BitVec 32 := 64
def cbs : BitVec 32 := 128
def ia : BitVec 32 := 256

end ApnTypes

structure DataProfileInfo where
  profileId : Int
  apn : String
  (protocol roamingProtocol : PdpProtocolType)
  authType : Int
  (user password : String)
  supportedApnTypesBitmap : BitVec 32
  type : Int := 1
  bearerBitmap : BitVec 32 := 0
  (enabled persistent : Bool := true)
  (preferred alwaysOn : Bool := false)
deriving DecidableEq

def ohosApnTypesSharedMask : BitVec 32 := 0x0FFF

def ohosApnTypeInternalDefault : BitVec 32 := 1 <<< 12

def toApnTypesBitmap (ohosBitmap : BitVec 32) : BitVec 32 :=
  let shared := ohosBitmap &&& ohosApnTypesSharedMask
  let bitmap :=
    if ohosBitmap &&& ohosApnTypeInternalDefault ≠ 0 then shared ||| ApnTypes.default else shared
  if bitmap = 0 then ApnTypes.default else bitmap

def profileIdFor (bitmap : BitVec 32) : Int :=
  if bitmap &&& ApnTypes.ims ≠ 0 then 2
  else if bitmap &&& ApnTypes.dun ≠ 0 then 1
  else if bitmap &&& ApnTypes.fota ≠ 0 then 3
  else if bitmap &&& ApnTypes.cbs ≠ 0 then 4
  else 0

def buildProfile (data : DataInfo) (bitmap : BitVec 32) : DataProfileInfo where
  profileId := profileIdFor bitmap
  apn := data.apn.getD ""
  protocol := toProtocol data.type
  roamingProtocol := toProtocol data.roamingType
  authType := data.verType
  user := data.userName.getD ""
  password := data.password.getD ""
  supportedApnTypesBitmap := bitmap

def sameProfile (a b : DataProfileInfo) : Bool :=
  a.apn = b.apn && a.protocol = b.protocol && a.supportedApnTypesBitmap =
    b.supportedApnTypesBitmap &&
    a.authType = b.authType && a.user = b.user && a.password = b.password

structure DataProfileInfo.Equal (a b : DataProfileInfo) : Prop where
  apn : a.apn = b.apn
  protocol : a.protocol = b.protocol
  roamingProtocol : a.roamingProtocol = b.roamingProtocol
  authType : a.authType = b.authType
  user : a.user = b.user
  password : a.password = b.password
  apnTypes : a.supportedApnTypesBitmap = b.supportedApnTypesBitmap

theorem DataProfileInfo.Equal.refl (a : DataProfileInfo) : a.Equal a := ⟨rfl, rfl, rfl, rfl, rfl, rfl, rfl⟩

theorem equal_iff {a b : DataProfileInfo} :
    a.Equal b ↔ sameProfile a b = true ∧ a.roamingProtocol = b.roamingProtocol := by
  simp only [sameProfile, Bool.and_eq_true, decide_eq_true_eq]
  constructor
  · rintro ⟨ha, hp, hr, ht, hu, hw, hb⟩
    exact ⟨⟨⟨⟨⟨⟨ha, hp⟩, hb⟩, ht⟩, hu⟩, hw⟩, hr⟩
  · rintro ⟨⟨⟨⟨⟨⟨ha, hp⟩, hb⟩, ht⟩, hu⟩, hw⟩, hr⟩
    exact ⟨ha, hp, hr, ht, hu, hw, hb⟩

instance (a b : DataProfileInfo) : Decidable (a.Equal b) := decidable_of_iff' _ equal_iff

structure Sending where
  slot : Int
  profile : DataProfileInfo
  table : List DataProfileInfo

structure Profiles where
  (known table : Int → List DataProfileInfo := fun _ => [])
  sent : List Sending := []

inductive Profiles.Op where
  | setInitApnInfo (data : Option DataInfo)
  | setDataProfileInfo (data : List DataInfo)
  | activatePdpContext (data : Option DataInfo)
  | activatePdpContextWithApnTypes (data : Option (DataInfo × BitVec 32))

/-- A request, with whether its slot has a service, and whether the `setDataProfile` that it may
make is accepted. -/
structure Profiles.Request where
  slot : Int
  op : Op
  (service accepted : Bool := true)

namespace Profiles

def setDataProfile (s : Profiles) (slot : Int) (profiles : List DataProfileInfo)
    (accepted : Bool) : Profiles :=
  { s with table := if accepted then update s.table slot profiles else s.table }

def adoptProfiles (s : Profiles) (slot : Int) (profiles : List DataProfileInfo) : Profiles :=
  if InRange slot then { s with known := update s.known slot profiles } else s

def registerProfile (s : Profiles) (slot : Int) (profile : DataProfileInfo)
    (accepted : Bool) : Profiles :=
  if ¬ InRange slot then s
  else if (s.known slot).any (sameProfile · profile) then s
  else
    { s with known := update s.known slot (s.known slot ++ [profile]) }.setDataProfile slot
      (s.known slot ++ [profile]) accepted

def send (s : Profiles) (slot : Int) (profile : DataProfileInfo) : Profiles :=
  { s with sent := s.sent ++ [⟨slot, profile, s.table slot⟩] }

def activate (s : Profiles) (slot : Int) (profile : DataProfileInfo) (accepted : Bool) : Profiles :=
  (s.registerProfile slot profile accepted).send slot profile

def activateInternal (s : Profiles) (slot : Int) (data : Option DataInfo) (ohosBitmap : BitVec 32)
    (accepted : Bool) : Profiles :=
  match data with
  | none => s
  | some d => s.activate slot (buildProfile d (toApnTypesBitmap ohosBitmap)) accepted

def activatePdpContext (s : Profiles) (slot : Int) (data : Option DataInfo)
    (accepted : Bool) : Profiles :=
  s.activateInternal slot data 0 accepted

def activatePdpContextWithApnTypes (s : Profiles) (slot : Int)
    (data : Option (DataInfo × BitVec 32))
    (accepted : Bool) : Profiles :=
  match data with
  | none => s
  | some (d, bitmap) => s.activateInternal slot (some d) bitmap accepted

def initProfile (data : DataInfo) : DataProfileInfo :=
  { buildProfile data (ApnTypes.ia ||| ApnTypes.default) with profileId := 0 }

def setInitApnInfo (s : Profiles) (slot : Int) (data : Option DataInfo)
    (accepted : Bool) : Profiles :=
  match data with
  | none => s
  | some d => s.activate slot (initProfile d) accepted

def replaceProfiles (s : Profiles) (slot : Int) (profiles : List DataProfileInfo)
    (accepted : Bool) : Profiles :=
  (s.adoptProfiles slot profiles).setDataProfile slot profiles accepted

def setDataProfileInfo (s : Profiles) (slot : Int) (data : List DataInfo)
    (accepted : Bool) : Profiles :=
  if data = [] then s else s.replaceProfiles slot
    (data.map (buildProfile · ApnTypes.default)) accepted

def exec (s : Profiles) (slot : Int) (accepted : Bool) : Op → Profiles
  | .setInitApnInfo data => s.setInitApnInfo slot data accepted
  | .setDataProfileInfo data => s.setDataProfileInfo slot data accepted
  | .activatePdpContext data => s.activatePdpContext slot data accepted
  | .activatePdpContextWithApnTypes data => s.activatePdpContextWithApnTypes slot data accepted

def step (s : Profiles) (r : Request) : Option Profiles :=
  if r.service ∧ InRange r.slot then some (s.exec r.slot r.accepted r.op) else some s

inductive Effect where
  | activate (profile : DataProfileInfo)
  | replace (profiles : List DataProfileInfo)
  | nothing

def Op.effect : Op → Effect
  | .setInitApnInfo (some d) => .activate (initProfile d)
  | .activatePdpContext (some d) => .activate (buildProfile d (toApnTypesBitmap 0))
  | .activatePdpContextWithApnTypes (some (d, bitmap)) =>
    .activate (buildProfile d (toApnTypesBitmap bitmap))
  | .setDataProfileInfo (d :: ds) => .replace ((d :: ds).map (buildProfile · ApnTypes.default))
  | _ => .nothing

theorem exec_eq (s : Profiles) (slot : Int) (accepted : Bool) (op : Op) :
    s.exec slot accepted op =
      match op.effect with
      | .activate profile => s.activate slot profile accepted
      | .replace profiles => s.replaceProfiles slot profiles accepted
      | .nothing => s := by
  cases op with
  | setInitApnInfo data | setDataProfileInfo data | activatePdpContext data
    | activatePdpContextWithApnTypes data => cases data <;> rfl

def Known (s : Profiles) : Prop := ∀ sending ∈ s.sent, ∃ q ∈ sending.table, q.Equal sending.profile

/-- A `setDataProfile`, if there is one, is accepted. -/
def Effect.Accepted (known : List DataProfileInfo) (accepted : Bool) : Effect → Prop
  | .activate profile => known.any (sameProfile · profile) = false → accepted = true
  | .replace _ => accepted = true
  | .nothing => True

/-- A profile that counts as in the list has the roaming protocol of one that it counts as. -/
def Effect.Distinguished (known : List DataProfileInfo) : Effect → Prop
  | .activate profile => known.any (sameProfile · profile) = true →
      ∃ q ∈ known, sameProfile q profile = true ∧ q.roamingProtocol = profile.roamingProtocol
  | _ => True

def Accepted (s : Profiles) (r : Request) : Prop :=
  r.service ∧ InRange r.slot → r.op.effect.Accepted (s.known r.slot) r.accepted

def Distinguished (s : Profiles) (r : Request) : Prop :=
  r.service ∧ InRange r.slot → r.op.effect.Distinguished (s.known r.slot)

instance (known : List DataProfileInfo) (accepted : Bool) : DecidablePred
    (Effect.Accepted known accepted)
  | .activate _ => inferInstanceAs (Decidable (_ → _))
  | .replace _ => inferInstanceAs (Decidable (_ = _))
  | .nothing => inferInstanceAs (Decidable True)

instance (known : List DataProfileInfo) : DecidablePred (Effect.Distinguished known)
  | .activate _ => inferInstanceAs (Decidable (_ → ∃ _ ∈ _, _))
  | .replace _ | .nothing => inferInstanceAs (Decidable True)

instance : DecidableRel Accepted := fun _ _ => inferInstanceAs (Decidable (_ → _))

instance : DecidableRel Distinguished := fun _ _ => inferInstanceAs (Decidable (_ → _))

instance : DecidablePred Known := fun _ => inferInstanceAs (Decidable (∀ _ ∈ _, ∃ _ ∈ _, _))

structure Inv (s : Profiles) : Prop where
  pushed : s.known = s.table
  known : s.Known

variable {s s' : Profiles} {slot : Int} {profile : DataProfileInfo}
  {profiles : List DataProfileInfo}

theorem inv_empty : Inv {} := ⟨rfl, fun _ h => absurd h List.not_mem_nil⟩

theorem known_send :
    (s.send slot profile).Known ↔ s.Known ∧ ∃ q ∈ s.table slot, q.Equal profile := by
  simp only [Known, send, List.mem_append, List.mem_singleton, or_imp, forall_and, forall_eq]

theorem Inv.replace (h : s.Inv) (hslot : InRange slot) :
    (s.replaceProfiles slot profiles true).Inv := by
  rw [replaceProfiles, adoptProfiles, if_pos hslot]
  refine ⟨?_, h.known⟩
  change update s.known slot profiles = update s.table slot profiles
  rw [h.pushed]

theorem Inv.activate_new (h : s.Inv) (hslot : InRange slot)
    (hnew : (s.known slot).any (sameProfile · profile) = false) :
    (s.activate slot profile true).Inv := by
  have hreg : s.registerProfile slot profile true =
      { s with known := update s.known slot (s.known slot ++ [profile]) }.setDataProfile slot
        (s.known slot ++ [profile]) true := by
    rw [registerProfile, if_neg (not_not.mpr hslot),
      if_neg (by rw [hnew]; exact Bool.false_ne_true)]
  rw [activate, hreg]
  refine ⟨?_, known_send.mpr ⟨h.known, profile, ?_, .refl profile⟩⟩
  · change update s.known slot _ = update s.table slot _
    rw [h.pushed]
  · change profile ∈ update s.table slot (s.known slot ++ [profile]) slot
    simp

theorem activate_known {accepted : Bool} (hslot : InRange slot)
    (hold : (s.known slot).any (sameProfile · profile) = true) :
    s.activate slot profile accepted = s.send slot profile := by
  rw [activate, registerProfile, if_neg (not_not.mpr hslot), if_pos hold]

theorem Inv.known_activate_iff (h : s.Inv) {accepted : Bool} (hslot : InRange slot)
    (hold : (s.known slot).any (sameProfile · profile) = true) :
    (s.activate slot profile accepted).Known ↔
      ∃ q ∈ s.known slot,
        sameProfile q profile = true ∧ q.roamingProtocol = profile.roamingProtocol := by
  rw [activate_known hslot hold, known_send, ← h.pushed]
  simp only [h.known, true_and, equal_iff]

theorem Inv.step {r : Request} (h : s.Inv) (hacc : s.Accepted r) (hdist : s.Distinguished r)
    (hs : step s r = some s') : s'.Inv := by
  unfold Profiles.step at hs
  by_cases hserved : r.service ∧ InRange r.slot
  · rw [if_pos hserved, exec_eq, Option.some.injEq] at hs
    have hacc := hacc hserved
    have hdist := hdist hserved
    subst hs
    cases heffect : r.op.effect with
    | activate profile =>
      rw [heffect] at hacc hdist
      cases hold : (s.known r.slot).any (sameProfile · profile) with
      | true =>
        refine ⟨?_, (h.known_activate_iff hserved.2 hold).mpr (hdist hold)⟩
        simp only [activate_known hserved.2 hold]
        exact h.pushed
      | false =>
        simp only [show r.accepted = true from hacc hold]
        exact h.activate_new hserved.2 hold
    | replace profiles =>
      rw [heffect] at hacc
      simp only [show r.accepted = true from hacc]
      exact h.replace hserved.2
    | nothing => exact h
  · rw [if_neg hserved, Option.some.injEq] at hs
    exact hs ▸ h

theorem Inv.step_unknown {r : Request} (h : s.Inv) (hdist : ¬ s.Distinguished r)
    (hs : Profiles.step s r = some s') : ¬ s'.Known := by
  obtain ⟨hserved, hdist⟩ := Classical.not_imp.mp hdist
  rw [Profiles.step, if_pos hserved, exec_eq, Option.some.injEq] at hs
  subst hs
  cases heffect : r.op.effect with
  | activate profile =>
    rw [heffect] at hdist
    obtain ⟨hold, hnone⟩ := Classical.not_imp.mp hdist
    exact mt (h.known_activate_iff hserved.2 hold).mp hnone
  | replace | nothing =>
    rw [heffect] at hdist
    exact absurd trivial hdist

/-- **The modem knows the profiles** that it is given, when every push is accepted, exactly if no
request differs only in the roaming protocol from those in the list. -/
theorem profiles_known_iff (requests : List Request) (s : Profiles)
    (hrun : run Profiles.step {} requests = some s)
    (hacc : Along Profiles.step Accepted {} requests) :
    Always Profiles.step Known {} requests ↔ Along Profiles.step Distinguished {} requests :=
  always_iff_along_of_along (J := Inv) (fun _ h => h.known)
    (fun _ _ _ h hacc hdist hs => h.step hacc hdist hs)
    (fun _ _ _ h _ hdist hs => h.step_unknown hdist hs) hrun hacc inv_empty

def internet (roamingType : String) : DataInfo :=
  { apn := some "internet", type := some "IP", roamingType := some roamingType }

def twice : List Request :=
  [⟨0, .setInitApnInfo (some (internet "IP")), true, true⟩,
    ⟨0, .activatePdpContextWithApnTypes (some (internet "IP", 1)), true, true⟩,
    ⟨0, .activatePdpContext (some (internet "IP")), true, true⟩]

def roaming : List Request :=
  [⟨0, .activatePdpContext (some (internet "IP")), true, true⟩,
    ⟨0, .activatePdpContext (some (internet "IPV6")), true, true⟩]

def retried : List Request :=
  [⟨0, .activatePdpContext (some (internet "IP")), true, false⟩,
    ⟨0, .activatePdpContext (some (internet "IP")), true, true⟩]

theorem profiles_known_twice : ∃ s, run Profiles.step {} twice = some s ∧ s.sent.length = 3 ∧
    Always Profiles.step Known {} twice :=
  ⟨_, rfl, rfl, (profiles_known_iff twice _ rfl
    (along_of_check (fun s r => of_decide_eq_true (p := Accepted s r)) (by decide))).mpr
    (along_of_check (fun s r => of_decide_eq_true (p := Distinguished s r)) (by decide))⟩

theorem profile_unknown :
    (∃ s, run Profiles.step {} roaming = some s ∧
      s.sent.map
        (fun sending =>
           (sending.profile.roamingProtocol, sending.table.map DataProfileInfo.roamingProtocol)) =
        [(.ip, [.ip]), (.ipv6, [.ip])] ∧
      ¬ s.Known) ∧
    (∃ s, run Profiles.step {} retried = some s ∧
      s.sent.map (fun sending => sending.table.length) = [0, 0] ∧ ¬ s.Known) :=
  ⟨⟨_, rfl, by decide, by decide⟩, ⟨_, rfl, by decide, by decide⟩⟩

end Profiles

end OniroSoc.Ril

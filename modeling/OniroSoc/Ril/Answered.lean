import OniroSoc.Support.Lookup
import OniroSoc.Support.Threads
import OniroSoc.Ril.Bridge

/-!
# Every request is answered once

A request is in one place: a thread holds it, it waits in `pending_`, or it has been reported
(`places`).  The bridge does not look at the status of an AIDL call, and it publishes the services
of a slot before it registers the response functions.
-/

namespace OniroSoc.Ril
open Support List

def Instr.req : Instr → Option Req
  | .begin _ req => req
  | .report _ req _ => req
  | .track _ _ req => req
  | _ => none

def Instr.carries : Instr → Option (Int × Domain)
  | .call _ method serial _ => some (serial, method.reportsTo)
  | .takeNotify method serial _ => some (serial, method.reportsTo)
  | .takePending method serial _ => some (serial, method.reportsTo)
  | _ => none

def Instr.Fits : Instr → Prop
  | .begin op (some req) => req.op = op
  | .report domain (some req) _ => domain = req.op.domain
  | .track _ method (some req) => method.reportsTo = req.op.domain
  | _ => True

namespace Bridge

def waiting (s : Bridge) : List Req := s.tracker.pending.entries.filterMap fun entry => entry.2

def carriers (s : Bridge) (work : List Instr) : List (Int × Domain) :=
  work.filterMap Instr.carries ++ s.rild.map fun c => (c.serial, c.method.reportsTo)

/-- What is asked of a state.  No request has been reported twice or in another domain than its own;
one that has been reported is held by no thread and is not in `pending_`; once nothing is in
progress every request has been reported; and `pending_` keeps no request whose AIDL call failed. -/
structure Answered (s : Bridge) : Prop where
  once : (s.reports.map Report.req).Nodup
  own : ∀ report ∈ s.reports, report.domain = report.req.op.domain
  released : ∀ report ∈ s.reports, report.req ∉ s.waiting ∧
    ∀ program ∈ s.threads, ∀ instr ∈ program, instr.req ≠ some report.req
  reported : s.Still → ∀ req ∈ s.handed, req ∈ s.reports.map Report.req
  failed : ∀ serial ∈ s.failed, ∀ req, s.tracker.pending.lookup serial ≠ some (some req)

def Fresh (s : Bridge) (work : List Instr) : Prop :=
  s.tracker.serial ∉ s.tracker.pending ∧ s.tracker.serial ∉ s.tracker.notifying ∧
    s.tracker.serial ∉ (s.carriers work).map Prod.fst

def Sound (s : Bridge) (work : List Instr) (ok : Bool) : Instr → Prop
  | .call slot method _ true => ok = true ∧ s.registered slot method.service = true
  | .nextSerial _ _ => s.Fresh work
  | .track _ _ _ => s.Fresh work
  | .trackNotify _ _ _ => s.Fresh work
  | _ => True

/-- The condition.  The AIDL call for a request is accepted, after the response functions of its
service were registered, and a serial is handed out only when it is not in use. -/
def Heard (s : Bridge) : Action → Prop
  | .run i ok => ∀ instr ∈ s.threads[i]?.bind List.head?, s.Sound s.threads.flatten ok instr
  | _ => True

structure Kept (s : Bridge) (work : List Instr) : Prop where
  places : (work.filterMap Instr.req ++ s.waiting ++ s.reports.map Report.req).Perm s.handed
  ids : ∀ req ∈ s.handed, req.id < s.handed.length
  distinct : s.handed.Nodup
  serials : ((s.carriers work).map Prod.fst).Nodup
  carried : ∀ serial req, s.tracker.pending.lookup serial = some (some req) →
    serial ∈ (s.carriers work).map Prod.fst
  domains : ∀ serial domain req, (serial, domain) ∈ s.carriers work →
    s.tracker.pending.lookup serial = some (some req) → domain = req.op.domain
  untracked : ∀ slot method serial req, .call slot method serial false ∈ work →
    s.tracker.pending.lookup serial ≠ some (some req)
  fits : ∀ instr ∈ work, instr.Fits
  reports : ∀ report ∈ s.reports, report.domain = report.req.op.domain
  apart : ∀ serial ∈ s.tracker.notifying, serial ∉ s.tracker.pending
  unfailed : s.failed = []

variable {work work' : List Instr}

theorem carriers_perm (s : Bridge) (hw : work.Perm work') :
    (s.carriers work).Perm (s.carriers work') :=
  (hw.filterMap _).append_right _

variable {s : Bridge}

theorem Fresh.perm (h : s.Fresh work) (hw : work.Perm work') : s.Fresh work' :=
  ⟨h.1, h.2.1, fun hmem => h.2.2 (((s.carriers_perm hw).map _).mem_iff.mpr hmem)⟩

theorem Kept.reassign {rild : List Call} (h : Kept s work)
    (hheld : (work'.filterMap Instr.req).Perm (work.filterMap Instr.req))
    (hcarriers : (({ s with rild } : Bridge).carriers work').Perm (s.carriers work))
    (huntracked : ∀ slot method serial,
      .call slot method serial false ∈ work' → .call slot method serial false ∈ work)
    (hfits : ∀ instr ∈ work', instr.Fits) : Kept { s with rild } work' :=
  { h with
    places := ((hheld.append_right _).append_right _).trans h.places
    serials := (hcarriers.map _).nodup_iff.mpr h.serials
    carried serial req hl := (hcarriers.map _).mem_iff.mpr (h.carried serial req hl)
    domains serial domain req hm := h.domains serial domain req (hcarriers.mem_iff.mp hm)
    untracked slot method serial req hm :=
      h.untracked slot method serial req (huntracked slot method serial hm)
    fits := hfits }

theorem Kept.perm (h : Kept s work) (hw : work.Perm work') : Kept s work' :=
  h.reassign (hw.symm.filterMap _) (s.carriers_perm hw.symm) (fun _ _ _ hm => hw.mem_iff.mpr hm)
    fun instr hm => h.fits instr (hw.mem_iff.mpr hm)

theorem kept_empty : Kept {} [] where
  places := List.Perm.refl _
  ids _ h := absurd h not_mem_nil
  distinct := nodup_nil
  serials := nodup_nil
  carried _ _ h := by simp at h
  domains _ _ _ h := absurd h not_mem_nil
  untracked _ _ _ _ h := absurd h not_mem_nil
  fits _ h := absurd h not_mem_nil
  reports _ h := absurd h not_mem_nil
  apart _ h := absurd h (AList.notMem_empty _)
  unfailed := rfl

theorem mem_waiting {req : Req} :
    req ∈ s.waiting ↔ ∃ serial, s.tracker.pending.lookup serial = some (some req) := by
  simp only [waiting, mem_filterMap]
  constructor
  · rintro ⟨⟨serial, entry⟩, hmem, rfl⟩
    exact ⟨serial, AList.mem_lookup_iff.mpr hmem⟩
  · rintro ⟨serial, hl⟩
    exact ⟨⟨serial, some req⟩, AList.mem_lookup_iff.mp hl, rfl⟩

theorem Kept.answered (h : Kept s s.threads.flatten) : s.Answered := by
  have hnodup := h.places.nodup_iff.mpr h.distinct
  obtain ⟨hleft, honce, hdisj⟩ := nodup_append.mp hnodup
  constructor
  case once => exact honce
  case own => exact h.reports
  case released =>
    intro report hr
    have hreq : report.req ∈ s.reports.map Report.req := mem_map_of_mem hr
    constructor
    · intro hw
      exact hdisj _ (mem_append_right _ hw) _ hreq rfl
    · intro program hp instr hi hreq'
      have hmem : report.req ∈ s.threads.flatten.filterMap Instr.req :=
        mem_filterMap.mpr ⟨instr, mem_flatten.mpr ⟨program, hp, hi⟩, hreq'⟩
      exact hdisj _ (mem_append_left _ hmem) _ hreq rfl
  case reported =>
    rintro ⟨hthreads, hrild⟩ req hreq
    have hwork : s.threads.flatten = [] := flatten_eq_nil_iff.mpr hthreads
    have hcarriers : s.carriers s.threads.flatten = [] := by
      simp [carriers, hwork, hrild]
    -- Nothing carries a serial any more, so nothing waits.
    have hwaiting : s.waiting = [] := by
      refine eq_nil_iff_forall_not_mem.mpr fun req hw => ?_
      obtain ⟨serial, hl⟩ := mem_waiting.mp hw
      have hmem := h.carried serial req hl
      simp [hcarriers] at hmem
    have hmem := h.places.mem_iff.mpr hreq
    rw [hwork, hwaiting] at hmem
    simpa using hmem
  case failed =>
    rw [h.unfailed]
    nofun

variable {req : Option Req}

theorem waiting_erase {pending : AList fun _ : Int => Option Req} {serial : Int}
    (hl : pending.lookup serial = some req) : (pending.entries.filterMap fun entry => entry.2).Perm
      (req.toList ++ (pending.erase serial).entries.filterMap fun entry => entry.2) := by
  have hmem : serial ∈ pending := mem_of_lookup hl
  obtain ⟨entry, l₁, l₂, -, hentries, herase⟩ := exists_of_kerase (AList.mem_keys.mp hmem)
  have hentry : pending.lookup serial = some entry :=
    AList.mem_lookup_iff.mpr (by rw [hentries]; simp)
  obtain rfl := Option.mem_unique hl hentry
  have herased : (pending.erase serial).entries = l₁ ++ l₂ := herase
  rw [hentries, herased, filterMap_append, filterMap_append, filterMap_cons]
  cases req with
  | none => exact List.Perm.refl _
  | some r => exact perm_middle

/-! ### What the threads have to do -/

section Work
variable {s : Bridge} {instr : Instr} {work rest todo : List Instr} {serial : Int} {domain : Domain}

theorem held_cons (instr : Instr) (rest : List Instr) :
    (instr :: rest).filterMap Instr.req = instr.req.toList ++ rest.filterMap Instr.req := by
  rw [filterMap_cons]
  cases instr.req <;> rfl

theorem carriers_cons_none (h : instr.carries = none) :
    s.carriers (instr :: rest) = s.carriers rest := by
  rw [carriers, filterMap_cons, h]
  rfl

theorem carriers_cons_some (h : instr.carries = some (serial, domain)) :
    s.carriers (instr :: rest) = (serial, domain) :: s.carriers rest := by
  rw [carriers, filterMap_cons, h]
  rfl

theorem carriers_append_none (h : ∀ instr ∈ todo, instr.carries = none) :
    s.carriers (todo ++ rest) = s.carriers rest := by
  rw [carriers, filterMap_append, filterMap_eq_nil_iff.mpr h]
  rfl

theorem mem_carriers {slot : Int} {method : Method} {tracked : Bool}
    (h : .call slot method serial tracked ∈ work) : serial ∈ (s.carriers work).map Prod.fst := by
  have hmem : (serial, method.reportsTo) ∈ s.carriers work :=
    mem_append_left _ (mem_filterMap.mpr ⟨_, h, rfl⟩)
  exact mem_map_of_mem hmem

structure TakesUp (req : Option Req) (todo : List Instr) : Prop where
  held : todo.filterMap Instr.req = req.toList
  carries : ∀ instr ∈ todo, instr.carries = none
  fits : ∀ instr ∈ todo, instr.Fits

/-- `front`, which carries no serial, is replaced by what takes up its request. -/
theorem Kept.replace (front : List Instr) (h : Kept s (front ++ rest))
    (hold : ∀ instr ∈ front, instr.carries = none) {req : Option Req}
    (hreq : front.filterMap Instr.req = req.toList) (hnew : TakesUp req todo) :
    Kept s (todo ++ rest) := by
  refine h.reassign ?_ ?_ ?_ ?_
  · rw [filterMap_append, filterMap_append, hnew.held, hreq]
  · rw [carriers_append_none hold, carriers_append_none hnew.carries]
  · intro slot method serial hm
    refine mem_append_right _ ((mem_append.mp hm).resolve_left fun hm => ?_)
    cases hnew.carries _ hm
  · exact forall_mem_append.mpr ⟨hnew.fits, (forall_mem_append.mp h.fits).2⟩

theorem Kept.replace_head (h : Kept s (instr :: rest)) (hold : instr.carries = none)
    (hnew : TakesUp instr.req todo) : Kept s (todo ++ rest) := by
  refine Kept.replace [instr] h (by simpa using hold) ?_ hnew
  rw [held_cons, filterMap_nil, append_nil]

theorem takesUp_nil : TakesUp none [] where
  held := rfl
  carries _ hi := absurd hi not_mem_nil
  fits _ hi := absurd hi not_mem_nil

theorem Kept.finish (h : Kept s (instr :: rest)) (hreq : instr.req = none)
    (hcarries : instr.carries = none) : Kept s rest := by
  show Kept s ([] ++ rest)
  exact h.replace_head hcarries (hreq ▸ takesUp_nil)

theorem Kept.plain (h : Kept s work) (todo : List Instr) (hnew : TakesUp none todo) :
    Kept s (todo ++ work) :=
  Kept.replace [] h (fun _ hi => absurd hi not_mem_nil) rfl hnew

theorem Kept.drop (h : Kept s (instr :: rest)) (hreq : instr.req = none)
    (hcarries : instr.carries = some (serial, domain))
    (hnone : ∀ req, s.tracker.pending.lookup serial ≠ some (some req)) : Kept s rest :=
  { h with
    places := by
      have hp := h.places
      rwa [held_cons, hreq] at hp
    serials := by
      have hs := h.serials
      rw [carriers_cons_some hcarries] at hs
      exact (nodup_cons.mp hs).2
    carried serial' req hl := by
      have hmem := h.carried serial' req hl
      rw [carriers_cons_some hcarries, map_cons, mem_cons] at hmem
      rcases hmem with rfl | hmem
      · exact absurd hl (hnone req)
      · exact hmem
    domains serial' domain' req hm := by
      refine h.domains serial' domain' req ?_
      rw [carriers_cons_some hcarries]
      exact .tail _ hm
    untracked slot method serial' req hm :=
      h.untracked slot method serial' req (.tail _ hm)
    fits i hi := h.fits i (.tail _ hi) }

end Work

/-! ### An op starts -/

theorem takesUp_report {domain : Domain} (err : HrilErr)
    (h : ∀ r, req = some r → domain = r.op.domain) : TakesUp req [.report domain req err] := by
  cases req with
  | none => constructor <;> simp [Instr.req, Instr.carries, Instr.Fits]
  | some r =>
    have hd := h r rfl
    constructor <;> simp [Instr.req, Instr.carries, Instr.Fits, hd]

theorem takesUp_program {body : Body} (slot : Int)
    (h : ∀ r, req = some r → body.Within r.op.domain) : TakesUp req (body.program slot req) := by
  cases body with
  | refuse domain err => exact takesUp_report err h
  | call registers method =>
    cases req with
    | none => cases registers <;> constructor <;>
        simp [Body.program, Instr.req, Instr.carries, Instr.Fits]
    | some r =>
      have hd : method.reportsTo = r.op.domain := h r rfl
      cases registers <;> constructor <;>
        simp [Body.program, filterMap_cons, Instr.req, Instr.carries, Instr.Fits, hd]

theorem takesUp_start (s : Bridge) {op : Op} (h : ∀ r, req = some r → r.op = op) :
    TakesUp req (s.start op req) := by
  have hdomain : ∀ domain, domain = op.domain → ∀ r, req = some r → domain = r.op.domain := by
    intro domain hd r hr
    rw [hd, h r hr]
  have hbody : ∀ body : Body, body.Within op.domain → ∀ r, req = some r → body.Within r.op.domain :=
    by
    intro body hw r hr
    rwa [h r hr]
  have hwithin := op.plan_within
  unfold start
  cases hplan : op.plan with
  | answer domain err =>
    rw [hplan] at hwithin
    exact takesUp_report err (hdomain domain hwithin)
  | ask service access body =>
    rw [hplan] at hwithin
    cases access with
    | require =>
      obtain ⟨hservice, hw⟩ := hwithin
      cases req with
      | none => constructor <;> simp
      | some r =>
        dsimp only
        split
        · exact takesUp_program r.slotId (hbody body hw)
        · exact takesUp_report .genericFailure (hdomain _ hservice)
    | slotOf =>
      obtain ⟨hcall, hw⟩ := hwithin
      dsimp only
      split
      · exact takesUp_program _ (hbody body hw)
      · exact takesUp_report .genericFailure (hdomain _ hcall)

section Exec
variable {s : Bridge} {rest : List Instr} {err : HrilErr} {method : Method}

theorem Kept.exec_report {domain : Domain} {req : Req}
    (h : Kept s (.report domain (some req) err :: rest)) :
    Kept { s with reports := ⟨domain, req, err⟩ :: s.reports } rest :=
  { h with
    places := by
      have hp := h.places
      rw [held_cons, Instr.req, Option.toList_some, singleton_append] at hp
      exact perm_middle.trans hp
    untracked slot method serial req hm := h.untracked slot method serial req (.tail _ hm)
    fits i hi := h.fits i (.tail _ hi)
    reports report hr := by
      rcases mem_cons.mp hr with rfl | hr
      · exact h.fits _ (.head _)
      · exact h.reports report hr }

variable {instr : Instr}

theorem Kept.allocate (h : Kept s (instr :: rest)) (hcarries : instr.carries = none)
    (hfresh : s.Fresh (instr :: rest)) (slot : Int) (method : Method)
    (hdomain : ∀ req, instr.req = some req → method.reportsTo = req.op.domain)
    {pending : AList fun _ : Int => Option Req} {notifying : AList fun _ : Int => NotifyTarget}
    (hwaiting : pending.entries.filterMap (fun entry => entry.2) = instr.req.toList ++ s.waiting)
    (hother : ∀ serial,
      serial ≠ s.tracker.serial → pending.lookup serial = s.tracker.pending.lookup serial)
    (hown : ∀ req, pending.lookup s.tracker.serial = some (some req) → instr.req = some req)
    (hapart : ∀ serial ∈ notifying, serial ∉ pending) (next : Int) :
    Kept { s with tracker := ⟨next, pending, notifying⟩ }
      (.call slot method s.tracker.serial instr.req.isSome :: rest) := by
  obtain ⟨-, -, hused⟩ := hfresh
  rw [carriers_cons_none hcarries] at hused
  have hold : s.carriers (instr :: rest) = s.carriers rest := carriers_cons_none hcarries
  refine { h with
    apart := hapart, places := ?places, serials := ?serials, carried := ?carried
    domains := ?domains, untracked := ?untracked, fits := ?fits }
  case places =>
    have hp := h.places
    rw [held_cons] at hp
    refine Perm.trans ?_ hp
    rw [waiting, hwaiting, ← append_assoc]
    exact (perm_append_comm.append_right _).append_right _
  case serials =>
    have hs := h.serials
    rw [hold] at hs
    exact nodup_cons.mpr ⟨hused, hs⟩
  case carried =>
    intro serial req hl
    by_cases hserial : serial = s.tracker.serial
    · subst hserial
      exact .head _
    · have hmem := h.carried serial req ((hother serial hserial).symm.trans hl)
      rw [hold] at hmem
      exact .tail _ hmem
  case domains =>
    intro serial domain req hm hl
    rcases mem_cons.mp hm with heq | hm
    · cases heq
      exact hdomain req (hown req hl)
    · have hserial : serial ≠ s.tracker.serial := by
        rintro rfl
        exact hused (mem_map_of_mem hm)
      exact h.domains serial domain req (hold ▸ hm) ((hother serial hserial).symm.trans hl)
  case untracked =>
    intro slot' method' serial req hm hl
    rcases mem_cons.mp hm with heq | hm
    · injection heq with _ _ hserial hnone
      subst hserial
      rw [hown req hl] at hnone
      cases hnone
    · have hserial : serial ≠ s.tracker.serial := by
        rintro rfl
        exact hused (mem_carriers hm)
      exact h.untracked slot' method' serial req (.tail _ hm) ((hother serial hserial).symm.trans hl)
  case fits =>
    exact forall_mem_cons.mpr ⟨trivial, (forall_mem_cons.mp h.fits).2⟩

theorem Kept.exec_untracked (h : Kept s (instr :: rest)) (hreq : instr.req = none)
    (hcarries : instr.carries = none) (hfresh : s.Fresh (instr :: rest)) (slot : Int)
    (method : Method) {notifying : AList fun _ : Int => NotifyTarget}
    (hapart : ∀ serial ∈ notifying, serial ∉ s.tracker.pending) (next : Int) :
    Kept { s with tracker := { s.tracker with serial := next, notifying } }
      (.call slot method s.tracker.serial false :: rest) := by
  have hnone : s.tracker.pending.lookup s.tracker.serial = none := AList.lookup_eq_none.mpr hfresh.1
  have hkept := h.allocate hcarries hfresh slot method (fun req hr => by cases hreq.symm.trans hr)
    (by rw [hreq]; rfl) (fun _ _ => rfl) (fun req hl => by cases hnone.symm.trans hl) hapart next
  rwa [hreq] at hkept

variable {slot : Int}

theorem Kept.exec_track {req : Option Req} (h : Kept s (.track slot method req :: rest))
    (hfresh : s.Fresh (.track slot method req :: rest)) :
    Kept { s with tracker := (s.tracker.track req).2 }
      (.call slot method s.tracker.serial req.isSome :: rest) := by
  have hown : (s.tracker.pending.insert s.tracker.serial req).lookup s.tracker.serial = some req :=
    AList.lookup_insert _
  refine h.allocate rfl hfresh slot method ?_ ?_ (fun _ hne => AList.lookup_insert_ne hne) ?_ ?_ _
  · intro r hr
    obtain rfl : req = some r := hr
    exact h.fits _ (.head _)
  · rw [AList.entries_insert_of_notMem hfresh.1, filterMap_cons]
    cases req <;> rfl
  · intro r hl
    exact Option.mem_unique hown hl
  · intro serial hmem hmem'
    rcases (AList.mem_insert s.tracker.pending).mp hmem' with rfl | hmem'
    · exact hfresh.2.1 hmem
    · exact h.apart serial hmem hmem'

variable {serial : Int}

theorem Kept.exec_call_accepted {tracked : Bool}
    (h : Kept s (.call slot method serial tracked :: rest)) :
    Kept { s with rild := s.rild ++ [⟨method, serial⟩] } rest := by
  refine h.reassign (List.Perm.refl _) ?_ (fun _ _ _ hm => .tail _ hm) fun i hi =>
    h.fits i (.tail _ hi)
  rw [carriers_cons_some rfl]
  unfold carriers
  rw [map_append, ← append_assoc]
  exact perm_append_singleton _ _

variable {ok : Bool}

theorem Kept.exec_call {tracked : Bool} (h : Kept s (.call slot method serial tracked :: rest))
    (hsound : tracked = true → ok = true ∧ s.registered slot method.service = true) :
    Kept (s.exec ok (.call slot method serial tracked)).1 rest := by
  -- A call that rild will not answer has no request behind it.
  have hlost : tracked = false → Kept s rest := by
    rintro rfl
    exact h.drop rfl rfl fun req => h.untracked slot method serial req (.head _)
  cases ok with
  | false =>
    cases tracked with
    | false => exact hlost rfl
    | true => cases (hsound rfl).1
  | true =>
    simp only [exec, Bool.true_and, Bool.not_true, Bool.and_false, Bool.false_eq_true, if_false]
    cases hregistered : s.registered slot method.service with
    | true => exact h.exec_call_accepted
    | false =>
      cases tracked with
      | false => exact hlost rfl
      | true => cases hregistered.symm.trans (hsound rfl).2

theorem Kept.exec_takeNotify (h : Kept s (.takeNotify method serial err :: rest)) :
    Kept (s.exec ok (.takeNotify method serial err)).1
      ((s.exec ok (.takeNotify method serial err)).2 ++ rest) := by
  simp only [exec, Tracker.takeNotify]
  cases hl : s.tracker.notifying.lookup serial with
  | none =>
    -- The serial goes on to `TakePending`.
    refine h.reassign (List.Perm.refl _) (List.Perm.refl _) ?_ ?_
    · intro slot' method' serial' hm
      obtain heq | hm := mem_cons.mp hm
      · cases heq
      · exact .tail _ hm
    · intro i hi
      obtain rfl | hi := mem_cons.mp hi
      · trivial
      · exact h.fits i (.tail _ hi)
  | some target =>
    have hmem : serial ∈ s.tracker.notifying := mem_of_lookup hl
    have hnone : s.tracker.pending.lookup serial = none :=
      AList.lookup_eq_none.mpr (h.apart serial hmem)
    have hdrop := h.drop rfl rfl fun req hreq => by cases hnone.symm.trans hreq
    exact { hdrop with apart := fun serial' hm => hdrop.apart serial' (AList.mem_erase.mp hm).2 }

theorem Kept.take {req : Option Req} (h : Kept s (.takePending method serial err :: rest))
    (hl : s.tracker.pending.lookup serial = some req) :
    Kept { s with tracker := { s.tracker with pending := s.tracker.pending.erase serial } }
      (.report method.reportsTo req err :: rest) := by
  have hcarriers : s.carriers (.takePending method serial err :: rest) =
      (serial, method.reportsTo) :: s.carriers rest := carriers_cons_some rfl
  have hserials := h.serials
  rw [hcarriers] at hserials
  refine { h with
    apart := fun serial' hm hm' => h.apart serial' hm (AList.mem_erase.mp hm').2
    serials := (nodup_cons.mp hserials).2
    places :=
      ?places, carried := ?carried, domains := ?domains, untracked := ?untracked, fits := ?fits }
  case places =>
    have hp := h.places
    rw [held_cons] at hp ⊢
    refine Perm.trans ?_ hp
    refine Perm.append_right _ ?_
    refine Perm.trans ?_ ((waiting_erase hl).symm.append_left _)
    simpa [Instr.req, waiting] using perm_append_comm_assoc _ _ _
  case carried =>
    intro serial' req' hl'
    obtain ⟨hne, hl'⟩ := lookup_erase_eq_some_iff.mp hl'
    have hm := h.carried serial' req' hl'
    rw [hcarriers, map_cons, mem_cons] at hm
    exact hm.resolve_left hne
  case domains =>
    intro serial' domain req' hm hl'
    refine h.domains serial' domain req' ?_ (lookup_erase_eq_some_iff.mp hl').2
    rw [hcarriers]
    exact .tail _ hm
  case untracked =>
    intro slot method' serial' req' hm hl'
    obtain heq | hm := mem_cons.mp hm
    · cases heq
    · exact h.untracked slot method' serial' req' (.tail _ hm) (lookup_erase_eq_some_iff.mp hl').2
  case fits =>
    intro i hi
    obtain rfl | hi := mem_cons.mp hi
    · cases req with
      | none => trivial
      | some r => exact h.domains serial _ r (by rw [hcarriers]; exact (.head _)) hl
    · exact h.fits i (.tail _ hi)

theorem Kept.exec_takePending (h : Kept s (.takePending method serial err :: rest)) :
    Kept (s.exec ok (.takePending method serial err)).1
      ((s.exec ok (.takePending method serial err)).2 ++ rest) := by
  simp only [exec, Tracker.takePending]
  cases hl : s.tracker.pending.lookup serial with
  | none => exact h.drop rfl rfl fun req hreq => by cases hl.symm.trans hreq
  | some req => exact h.take hl

theorem Kept.of_services {published : Int → Bool} {registered : Int → Service → Bool}
    (h : Kept s rest) : Kept { s with published, registered } rest :=
  { h with }

theorem Kept.exec (h : Kept s (instr :: rest)) (hsound : s.Sound (instr :: rest) ok instr) :
    Kept (s.exec ok instr).1 ((s.exec ok instr).2 ++ rest) := by
  cases instr with
  | begin op req =>
    refine h.replace_head rfl (takesUp_start s fun r hr => ?_)
    subst hr
    exact h.fits _ (.head _)
  | report domain req err =>
    cases req with
    | none => exact h.finish rfl rfl
    | some r => exact h.exec_report
  | nextSerial slot method => exact h.exec_untracked rfl rfl hsound slot method h.apart _
  | track slot method req => exact h.exec_track hsound
  | trackNotify slot method notifyId =>
    refine h.exec_untracked rfl rfl hsound slot method ?_ _
    intro serial hmem
    rcases (AList.mem_insert s.tracker.notifying).mp hmem with rfl | hmem
    · exact hsound.1
    · exact h.apart serial hmem
  | call slot method serial tracked =>
    refine h.exec_call fun htracked => ?_
    subst htracked
    exact hsound
  | takeNotify method serial err => exact h.exec_takeNotify
  | takePending method serial err => exact h.exec_takePending
  | reread slot =>
    refine h.replace_head rfl ?_
    rw [Bridge.exec]
    split
    · constructor <;> simp [filterMap_cons, Instr.req, Instr.carries, Instr.Fits]
    · exact takesUp_nil
  | publish slot => exact (h.finish rfl rfl).of_services
  | attach slot service => exact (h.finish rfl rfl).of_services

end Exec

section Steps
variable {s s' : Bridge} {work : List Instr}

theorem Kept.hand (h : Kept s work) (op : Op) (slotId : Int) :
    Kept { s with handed := s.handed ++ [⟨s.handed.length, slotId, op⟩] }
      (.begin op (some ⟨s.handed.length, slotId, op⟩) :: work) :=
  { h with
    places := by
      rw [held_cons]
      exact (h.places.cons _).trans (perm_append_singleton _ _).symm
    ids req hr := by
      rw [length_append, length_singleton]
      rcases mem_append.mp hr with hr | hr
      · exact (h.ids req hr).trans (Nat.lt_succ_self _)
      · rw [mem_singleton.mp hr]
        exact Nat.lt_succ_self _
    distinct := by
      refine nodup_append.mpr ⟨h.distinct, nodup_singleton _, ?_⟩
      rintro req hr _ hnew rfl
      have hid := h.ids req hr
      rw [mem_singleton.mp hnew] at hid
      exact Nat.lt_irrefl _ hid
    untracked slot method serial req hm := by
      rcases mem_cons.mp hm with heq | hm
      · cases heq
      · exact h.untracked slot method serial req hm
    fits i hi := by
      rcases mem_cons.mp hi with rfl | hi
      · rfl
      · exact h.fits i hi }

theorem Kept.answer (h : Kept s work) {k : Nat} {c : Call} (hk : s.rild[k]? = some c)
    (err : RadioError) : Kept { s with rild := s.rild.eraseIdx k } (c.handler err :: work) := by
  have hcarries : (c.handler err).carries = some (c.serial, c.method.reportsTo) := by
    unfold Call.handler
    split <;> rfl
  have hreq : (c.handler err).req = none := by
    unfold Call.handler
    split <;> rfl
  refine h.reassign ?_ ?_ ?_ ?_
  · rw [held_cons, hreq]
    exact List.Perm.refl _
  · obtain ⟨hlt, rfl⟩ := List.getElem?_eq_some_iff.mp hk
    rw [carriers_cons_some hcarries]
    have hrild :=
      (getElem_cons_eraseIdx_perm hlt).map fun c : Call => (c.serial, c.method.reportsTo)
    exact perm_middle.symm.trans (hrild.append_left _)
  · intro slot method serial hm
    rcases mem_cons.mp hm with heq | hm
    · unfold Call.handler at heq
      split at heq <;> cases heq
    · exact hm
  · intro i hi
    rcases mem_cons.mp hi with rfl | hi
    · unfold Call.handler
      split <;> trivial
    · exact h.fits i hi

theorem Kept.of_threads {threads : List (List Instr)} (h : Kept s work)
    (hw : work.Perm threads.flatten) : Kept { s with threads } threads.flatten :=
  { h.perm hw with }

theorem Sound.perm {work' : List Instr} {ok : Bool} {instr : Instr} (h : s.Sound work ok instr)
    (hw : work.Perm work') : s.Sound work' ok instr := by
  cases instr with
  | nextSerial slot method => exact Fresh.perm h hw
  | track slot method req => exact Fresh.perm h hw
  | trackNotify slot method notifyId => exact Fresh.perm h hw
  | call slot method serial tracked => cases tracked <;> exact h
  | _ => exact h

theorem Kept.after_step (h : Kept s s.threads.flatten) {a : Action} (ha : s.Heard a)
    (hs : step s a = some s') : Kept s' s'.threads.flatten := by
  cases a with
  | request op slotId =>
    cases hs
    exact (h.hand op slotId).of_threads (flatten_concat_perm s.threads [_]).symm
  | nullRequest op =>
    cases hs
    refine Kept.of_threads (h.plain [.begin op none] ?_) (flatten_concat_perm s.threads _).symm
    constructor <;> simp [Instr.req, Instr.carries, Instr.Fits]
  | connectSlot slot =>
    rw [step] at hs
    split at hs
    · cases hs
      refine Kept.of_threads (h.plain (connectProgram slot) ?_) (flatten_concat_perm s.threads _).symm
      constructor <;> simp [connectProgram, Instr.req, Instr.carries, Instr.Fits]
    · cases hs
  | networkStateChanged slot =>
    rw [step] at hs
    split at hs
    · cases hs
      refine Kept.of_threads (h.plain [.reread slot] ?_) (flatten_concat_perm s.threads _).symm
      constructor <;> simp [Instr.req, Instr.carries, Instr.Fits]
    · cases hs
  | answer k err =>
    obtain ⟨c, hk, rfl⟩ := Option.map_eq_some_iff.mp hs
    exact (h.answer hk err).of_threads (flatten_concat_perm s.threads [_]).symm
  | run i ok =>
    rw [step] at hs
    split at hs
    · rename_i instr rest hi
      cases hs
      have hbefore := flatten_perm_cons hi
      have hsound : s.Sound s.threads.flatten ok instr := ha instr (by rw [hi]; rfl)
      have hkept := (h.perm hbefore).exec (hsound.perm hbefore)
      exact hkept.of_threads (flatten_set_perm hi _).symm
    · cases hs

/-- **Every request is answered once**, in its domain, if each AIDL call for a request is accepted
after its service's response functions were registered, and each serial that is handed out is not in
use. -/
theorem requests_answered (actions : List Action) (s : Bridge) (hrun : run step {} actions = some s)
    (hheard : Along step Heard {} actions) : s.Answered := by
  have hkept : Kept s s.threads.flatten := by
    refine run_invariant_along (I := fun s => Kept s s.threads.flatten) ?_ hheard hrun kept_empty
    exact fun s a s₁ h ha hs => h.after_step ha hs
  exact hkept.answered

theorem heard_run {i : Nat} {ok : Bool} {instr : Instr} (hi : s.threads[i]?.bind head? = some instr)
    (h : s.Sound s.threads.flatten ok instr) : s.Heard (.run i ok) := by
  intro instr' hi'
  obtain rfl := Option.mem_unique hi hi'
  exact h

def dialled : List Action :=
  [.connectSlot 0, .run 0 true, .run 0 true, .run 0 true, .run 0 true, .run 0 true, .run 0 true,
    .run 0 true, .request (.dial true) 0, .run 1 true, .run 1 true, .run 1 true, .answer 0 .none,
    .run 2 true, .run 2 true]

theorem requests_answered_dialled : ∃ s, run step {} dialled = some s ∧ s.Still ∧
      s.reports = [⟨.call, ⟨0, 0, .dial true⟩, .success⟩] ∧ s.Answered := by
  have hheard : Along step Heard {} dialled := by
    refine along_cons trivial rfl ?_
    iterate 7 refine along_cons (heard_run rfl trivial) rfl ?_
    refine along_cons trivial rfl ?_
    refine along_cons (heard_run rfl trivial) rfl ?_
    refine along_cons (heard_run rfl ⟨by decide, by decide, by decide⟩) rfl ?_
    refine along_cons (heard_run rfl ⟨rfl, rfl⟩) rfl ?_
    refine along_cons trivial rfl ?_
    refine along_cons (heard_run rfl trivial) rfl ?_
    exact along_cons (heard_run rfl trivial) rfl trivial
  exact ⟨_, rfl, ⟨by decide, rfl⟩, rfl, requests_answered dialled _ rfl hheard⟩

theorem request_lost :
    (∃ s, run step {}
        ([.connectSlot 0, .run 0 true, .run 0 true, .run 0 true, .run 0 true, .run 0 true,
          .run 0 true, .run 0 true, .request (.dial true) 0, .run 1 true, .run 1 true,
          .run 1 false]) = some s ∧
      s.Still ∧ s.handed = [⟨0, 0, .dial true⟩] ∧ s.reports = [] ∧ s.failed = [1] ∧
      s.tracker.pending.lookup 1 = some (some ⟨0, 0, .dial true⟩)) ∧
    ∃ s, run step {}
        ([.connectSlot 0, .run 0 true, .request (.dial true) 0, .run 1 true, .run 1 true,
          .run 1 true, .run 0 true, .run 0 true, .run 0 true, .run 0 true, .run 0 true,
          .run 0 true]) = some s ∧
      s.Still ∧ s.handed = [⟨0, 0, .dial true⟩] ∧ s.reports = [] ∧
      s.tracker.pending.lookup 1 = some (some ⟨0, 0, .dial true⟩) :=
  ⟨⟨_, rfl, ⟨by decide, rfl⟩, rfl, rfl, rfl, rfl⟩, ⟨_, rfl, ⟨by decide, rfl⟩, rfl, rfl, rfl⟩⟩

end Steps

end Bridge

end OniroSoc.Ril

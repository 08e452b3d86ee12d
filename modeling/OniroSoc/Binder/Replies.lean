import OniroSoc.Binder.Connection

/-!
# No stale reply

Whenever `transact` returns, as many replies as transactions have been taken on the connection, or
the connection is closed.  What a caller is given is the reply to its own transaction, byte for
byte, and the cached handle is used only on the connection on which it came.  The buffers are all
freed exactly if no `BC_FREE_BUFFER` on that connection failed, since nothing looks at its result.

`Idle` is the invariant between two calls, `Waiting` the one inside `transact`.
-/

namespace OniroSoc.Binder
open Support List Option

/-- As many replies as transactions; with an honest driver, for the same ones. -/
structure Settled (honest : Bool) (conn : Conn) : Prop where
  counted : conn.written.length = conn.answered.length
  answered : honest = true → conn.written = conn.answered

/-- What `transact` is to make of a reply. -/
def Reply.rc (reply : Reply) : Option Err :=
  if maxReply < reply.data.length then some .eproto
  else if reply.data ≠ [] ∧ reply.room = false then some .enomem
  else if reply.status then some .eproto
  else none

namespace Return

/-- `conn` is at the one descriptor that is open. -/
def Open (ret : Return) (c : Nat) (conn : Conn) : Prop :=
  ret.wdb.fd = some c ∧ ret.conns = Function.update (fun _ => none) c (some conn)

/-- The connection has been reset. -/
def Closed (ret : Return) : Prop :=
  ret.wdb.fd = none ∧ ret.wdb.havePlatform = false ∧ ret.conns = fun _ => none

/-- The call took the reply to what it wrote, or the connection is reset; the reply is its own, and
the result says what the reply says. -/
structure Good (ret : Return) : Prop where
  ends : ret.Closed ∨ ∃ c conn, ret.Open c conn ∧ Settled ret.honest conn ∧
    (ret.sent.isSome → ret.taken.isSome)
  own : ∀ reply ∈ ret.taken, ret.honest = true → ∃ sent ∈ ret.sent, reply.answers = sent.txn
  cached : ∀ sent ∈ ret.sent, sent.cached = true → sent.handle ∈ sent.known
  rc : ∀ reply ∈ ret.taken, ret.result.rc = reply.rc
  data : ret.result.rc = none → ∃ reply ∈ ret.taken, ret.result.reply.data = reply.data
  parcel : ret.result.reply.pos = 0 ∧ ret.result.reply.error = none ∧
    (ret.result.rc ≠ none → ret.result.reply.data = [])

/-- Every buffer that was delivered on the open connection has been freed, once. -/
def Freed (ret : Return) : Prop :=
  ∀ c conn, ret.wdb.fd = some c → ret.conns c = some conn → conn.delivered = conn.freed

/-- No `BC_FREE_BUFFER` failed on the open connection. -/
def Fits (ret : Return) : Prop :=
  ∀ c conn, ret.wdb.fd = some c → ret.conns c = some conn → conn.failed = []

end Return

/-- Each buffer that was delivered was freed, or its `BC_FREE_BUFFER` failed. -/
structure Conn.Kept (conn : Conn) : Prop where
  count : conn.delivered.length = conn.freed.length + conn.failed.length
  freed : conn.failed = [] → conn.delivered = conn.freed

theorem Conn.Kept.free {conn : Conn} (h : conn.Kept) (buffer : Nat) (ok : Bool) :
    ((conn.deliver buffer).free buffer ok).Kept := by
  obtain ⟨hcount, hfreed⟩ := h
  cases ok with
  | true => exact ⟨by simp [deliver, Conn.free, hcount]; omega, fun hf => congrArg _ (hfreed hf)⟩
  | false => exact ⟨by simp [deliver, Conn.free, hcount]; omega, nofun⟩

/-- `conn` is at the one open descriptor, which the cached handle came on. -/
structure Opened (s : Session) (c : Nat) (conn : Conn) : Prop where
  fd : s.wdb.fd = some c
  conns : s.conns = Function.update (fun _ => none) c (some conn)
  platform : s.wdb.havePlatform = true → s.wdb.platform ∈ conn.handles
  kept : conn.Kept

/-- No descriptor is open. -/
structure Shut (s : Session) : Prop where
  fd : s.wdb.fd = none
  conns : s.conns = fun _ => none
  platform : s.wdb.havePlatform = false

structure Idle (s : Session) : Prop where
  conn : Shut s ∨ ∃ c conn, Opened s c conn ∧ Settled s.honest conn
  good : ∀ ret ∈ s.returned, ret.Good ∧ (ret.Freed ↔ ret.Fits)

/-- `transact` has written `w` and waits for the reply. -/
structure Waiting (s : Session) (c : Nat) (w : Sent) (conn : Conn) : Prop extends
    Opened s c conn where
  sent : s.sent = some w
  cached : w.cached = true → w.handle ∈ w.known
  taken : s.taken = none
  counted : conn.written.length = conn.answered.length + 1
  answered : s.honest = true → conn.written = w.txn :: conn.answered
  good : ∀ ret ∈ s.returned, ret.Good ∧ (ret.Freed ↔ ret.Fits)

/-- `transact` is about to return `r` in `s'`, begun with the connection of `wdb`. -/
structure Ended (wdb : Wdb) (r : Result) (s' : Session) : Prop where
  idle : Idle s'
  keeps : s'.wdb.havePlatform = true → wdb.havePlatform = true
  object : ∀ handle ∈ r.object, ∃ c conn, Opened s' c conn ∧ handle ∈ conn.handles
  seen : (s'.seen r).Good

open OniroSoc.Binder.Session

variable {s s' : Session} {c : Nat} {w : Sent} {conn : Conn} {r : Result} {wdb : Wdb}

theorem Opened.note (h : Opened s c conn) (f : Conn → Conn) :
    (s.note c f).conns = Function.update (fun _ => none) c (some (f conn)) := by
  simp [Session.note, h.conns]

theorem Opened.unique (h : Opened s c conn) {d : Nat} {conn' : Conn} (hfd : s.wdb.fd = some d)
    (hconn : s.conns d = some conn') : conn' = conn := by
  obtain rfl := Option.some.inj (h.fd.symm.trans hfd)
  simpa [h.conns] using hconn.symm

theorem Idle.freed_iff (h : Idle s) (r : Result) : (s.seen r).Freed ↔ (s.seen r).Fits := by
  obtain hshut | ⟨c, conn, hopened, -⟩ := h.conn
  · have hnot : ∀ d, s.wdb.fd ≠ some d := fun d hd => by cases hshut.fd.symm.trans hd
    exact ⟨fun _ c conn hd => absurd hd (hnot c), fun _ c conn hd => absurd hd (hnot c)⟩
  · refine ⟨fun hf d conn' hfd hd => ?_, fun hf d conn' hfd hd => ?_⟩
    · have hlen := congrArg length (hf d conn' hfd hd)
      obtain rfl := hopened.unique hfd hd
      have hcount := hopened.kept.count
      exact length_eq_zero_iff.mp (by omega)
    · have hnone := hf d conn' hfd hd
      obtain rfl := hopened.unique hfd hd
      exact hopened.kept.freed hnone

theorem shut_reset (h : Shut s ∨ ∃ c conn, Opened s c conn) : Shut s.reset := by
  obtain h | ⟨c, conn, h⟩ := h
  · exact ⟨rfl, by simp [Session.reset, h.fd, h.conns], rfl⟩
  · exact ⟨rfl, by simp [Session.reset, h.fd, h.conns], rfl⟩

/-- A call that gives up without a reply. -/
theorem Return.Good.of_error {ret : Return} {e : Err} (hends : ret.Closed ∨ ∃ c conn,
      ret.Open c conn ∧ Settled ret.honest conn ∧ (ret.sent.isSome → ret.taken.isSome))
    (hcached : ∀ sent ∈ ret.sent, sent.cached = true → sent.handle ∈ sent.known)
    (htaken : ret.taken = none) (hr : ret.result = { rc := some e }) : ret.Good where
  ends := hends
  own := by simp [htaken]
  cached := hcached
  rc := by simp [htaken]
  data := by simp [hr]
  parcel := by simp [hr]

theorem Waiting.reset (h : Waiting s c w conn) (e : Err) (wdb : Wdb) :
    Ended wdb { rc := some e } s.reset := by
  have hshut := shut_reset (.inr ⟨c, conn, h.toOpened⟩)
  refine ⟨⟨.inl hshut, h.good⟩, nofun, nofun, .of_error (.inl ?_) ?_ h.taken rfl⟩
  · exact ⟨hshut.fd, hshut.platform, hshut.conns⟩
  · intro sent hsent
    obtain rfl := Option.some.inj (h.sent.symm.trans hsent)
    exact h.cached

theorem Idle.reset (h : Idle s) : Idle s.reset :=
  ⟨.inl (shut_reset (h.conn.imp_right fun ⟨c, conn, ho, _⟩ => ⟨c, conn, ho⟩)), h.good⟩

theorem Idle.setPath (h : Idle s) (path : Option (List UInt8)) : Idle (s.setPath path) := by
  unfold Session.setPath
  split
  · exact h
  · split
    · exact h
    · obtain hshut | ⟨c, conn, ho, -⟩ := h.reset.conn
      · exact ⟨.inl ⟨hshut.fd, hshut.conns, hshut.platform⟩, h.good⟩
      · cases ho.fd

/-- What `wdb_connect` leaves. -/
theorem Idle.connect (h : Idle s) {opening : Opening} {rc : Option Err}
    (hc : s.connect opening = (rc, s')) :
    Idle s' ∧ s'.wdb.havePlatform = s.wdb.havePlatform ∧ s'.wdb.platform = s.wdb.platform ∧
      s'.sent = s.sent ∧ s'.taken = s.taken := by
  unfold Session.connect at hc
  split at hc
  · cases hc
    exact ⟨h, rfl, rfl, rfl, rfl⟩
  · rename_i hfd
    have hshut : Shut s :=
      h.conn.resolve_right fun ⟨c, conn, ho, _⟩ => by cases hfd.symm.trans ho.fd
    have hclosed : Idle s.openAndClose :=
      ⟨.inl ⟨hshut.fd, by simp [openAndClose, hshut.conns], hshut.platform⟩, h.good⟩
    split_ifs at hc
    · cases hc
      exact ⟨h, rfl, rfl, rfl, rfl⟩
    · cases opening with
      | noNode => cases hc; exact ⟨h, rfl, rfl, rfl, rfl⟩
      | badVersion => cases hc; exact ⟨hclosed, rfl, rfl, rfl, rfl⟩
      | noMap => cases hc; exact ⟨hclosed, rfl, rfl, rfl, rfl⟩
      | ok =>
        cases hc
        refine ⟨⟨.inr ⟨s.nextConn, {}, ⟨rfl, ?_, ?_, rfl, fun _ => rfl⟩, rfl, fun _ => rfl⟩, h.good⟩,
          rfl, rfl, rfl, rfl⟩
        · simp [hshut.conns]
        · simp [hshut.platform]

theorem Opened.write (h : Opened s c conn) (hs : Settled s.honest conn)
    (hgood : ∀ ret ∈ s.returned, ret.Good ∧ (ret.Freed ↔ ret.Fits)) (htaken : s.taken = none)
    {handle : Nat} {cached : Bool}
    (hcached : cached = true → s.wdb.havePlatform = true ∧ handle = s.wdb.platform) (code : Nat)
    (data : List UInt8) :
    Waiting (s.write c handle code data cached) c
      ⟨s.nextTxn, handle, code, data, cached, conn.handles⟩
      { conn with written := s.nextTxn :: conn.written } where
  fd := h.fd
  conns := h.note _
  platform := h.platform
  kept := { h.kept with }
  sent := by simp [Session.write, h.conns]
  cached hc := by
    obtain ⟨hp, rfl⟩ := hcached hc
    exact h.platform hp
  taken := htaken
  counted := congrArg Nat.succ hs.counted
  answered hh := by rw [hs.answered hh]
  good := hgood

theorem Waiting.incoming (h : Waiting s c w conn) (buffer : Nat) (ok : Bool) :
    Waiting ((s.note c fun conn => conn.deliver buffer).freeBuffer c buffer ok) c w
      ((conn.deliver buffer).free buffer ok) where
  fd := h.fd
  conns := by simp [freeBuffer, note, h.conns]
  platform := by cases ok <;> exact h.platform
  kept := h.kept.free buffer ok
  sent := h.sent
  cached := h.cached
  taken := h.taken
  counted := by cases ok <;> exact h.counted
  answered := by cases ok <;> exact h.answered
  good := h.good

/-- What the call makes of the reply in a read. -/
def replyOf (m : Mapped) (t : TransactionData) : Reply :=
  ⟨m.answers, m.bytes t.buffer t.dataSize, t.flags &&& tfStatusCode ≠ 0, m.room⟩

theorem length_bytes (m : Mapped) (address n : Nat) : (m.bytes address n).length = n := by
  simp [Mapped.bytes]

theorem grow_empty (room : Bool) {n : Nat} (hpos : 0 < n) (hfit : n ≤ maxReply) :
    ({} : Parcel).grow (fun _ => room) n =
      if room then ({ cap := Parcel.doubled n n 256, data := replicate n 0 }, some 0)
      else ({ error := some .enomem }, none) := by
  have hbig : ¬ maxReply < n := by omega
  simp [Parcel.grow, Parcel.len, hpos, hbig]

theorem copyReply_spec {m : Mapped} {t : TransactionData} {e : Option Err} {p : Parcel}
    (h : copyReply m t = (e, p)) :
    (replyOf m t).rc = e.or (if t.flags &&& tfStatusCode ≠ 0 then some .eproto else none) ∧
      (e = none → p.data = (replyOf m t).data ∧ p.pos = 0 ∧ p.error = none) := by
  have hlen := length_bytes m t.buffer t.dataSize
  have hempty : m.bytes t.buffer t.dataSize = [] ↔ ¬ 0 < t.dataSize := by
    rw [← length_eq_zero_iff, hlen, Nat.pos_iff_ne_zero, not_not]
  unfold copyReply at h
  simp only [Reply.rc, replyOf, hlen, hempty, not_not, ne_eq]
  split_ifs at h with hbig hpos
  · cases h
    simp [hbig]
  · rw [grow_empty _ hpos (by omega)] at h
    cases hroom : m.room <;> simp only [hroom] at h <;> cases h
    · simp [hbig, hpos]
    · simp [hbig, Parcel.poke, hlen]
  · cases h
    simp [hbig, hpos, hempty.mpr hpos]

/-- A reply is copied as it is, and the result is what is to be made of it. -/
theorem takeReply_good {m : Mapped} {object ok : Bool} {t : TransactionData}
    (h : s.takeReply c m object ok t = (r, s')) :
    r.rc = (replyOf m t).rc ∧ (r.rc = none → r.reply.data = (replyOf m t).data) ∧
      r.reply.pos = 0 ∧ r.reply.error = none ∧ (r.rc ≠ none → r.reply.data = []) := by
  unfold takeReply at h
  rcases hcopy : copyReply m t with ⟨e, p⟩
  obtain ⟨hrc, hp⟩ := copyReply_spec hcopy
  rw [hcopy] at h
  rw [hrc]
  cases e with
  | some e => cases h; simp
  | none =>
    obtain ⟨hd, hpos, he⟩ := hp rfl
    dsimp only at h
    split_ifs at h with hstatus <;> cases h <;> simp_all

/-- What a reply leaves on the connection. -/
def Conn.reply (conn : Conn) (m : Mapped) (t : TransactionData) (found : Option Nat) (ok : Bool) :
    Conn :=
  Conn.free { conn.deliver t.buffer with
    answered := m.answers :: conn.answered
    handles := found.toList ++ conn.handles } t.buffer ok

theorem Waiting.reply (h : Waiting s c w conn) {m : Mapped} {object ok : Bool}
    {t : TransactionData} (ht : s.takeReply c m object ok t = (r, s')) : Ended s.wdb r s' := by
  obtain ⟨hrc, hdata, hparcel⟩ := takeReply_good ht
  have hs' : s' = ((s.receive c m t).refer c r.object).freeBuffer c t.buffer ok := by
    unfold takeReply at ht
    dsimp only at ht
    split at ht
    · cases ht; rfl
    · split at ht <;> cases ht <;> rfl
  have hkept : (conn.reply m t r.object ok).Kept := by
    obtain ⟨hcount, hfreed⟩ := h.kept.free t.buffer ok
    cases ok <;> exact ⟨hcount, hfreed⟩
  have hopened : Opened s' c (conn.reply m t r.object ok) := by
    subst hs'
    refine ⟨h.fd, ?_, fun hp => ?_, hkept⟩
    · simp [freeBuffer, refer, receive, note, h.conns, Conn.reply, Conn.deliver]
    · have hmem := mem_append_right r.object.toList (h.platform hp)
      cases ok <;> exact hmem
  have hkeep : s'.wdb = s.wdb ∧ s'.sent = some w ∧ s'.taken = some (replyOf m t) ∧
      s'.returned = s.returned := by
    subst hs'
    exact ⟨rfl, h.sent, rfl, rfl⟩
  -- An honest driver has one transaction without a reply to choose from.
  have hanswers : s'.honest = true → s.honest = true ∧ m.answers = w.txn := by
    intro hh
    have hh' : (s.receive c m t).honest = true := by
      subst hs'
      exact hh
    simp only [receive, h.conns, Function.update_self, Option.any_some, Bool.and_eq_true,
      decide_eq_true_eq] at hh'
    obtain ⟨hhonest, hw, ha⟩ := hh'
    rw [h.answered hhonest, mem_cons] at hw
    exact ⟨hhonest, hw.resolve_right ha⟩
  have hsettled : Settled s'.honest (conn.reply m t r.object ok) := by
    have hcounted := h.counted
    refine ⟨by cases ok <;> simpa [Conn.reply, Conn.free, Conn.deliver] using hcounted,
      fun hh => ?_⟩
    obtain ⟨hhonest, heq⟩ := hanswers hh
    cases ok <;> simp [Conn.reply, Conn.free, Conn.deliver, h.answered hhonest, heq]
  obtain ⟨hwdb, hsent, htaken, hreturned⟩ := hkeep
  refine ⟨⟨.inr ⟨c, _, hopened, hsettled⟩, hreturned ▸ h.good⟩, fun hp => hwdb ▸ hp, ?_, ?_⟩
  · intro handle hobject
    refine ⟨c, _, hopened, ?_⟩
    rw [Option.mem_def] at hobject
    cases ok <;> simp [Conn.reply, Conn.free, hobject]
  · refine ⟨.inr ⟨c, _, ⟨hopened.fd, hopened.conns⟩, hsettled, fun _ => ?_⟩, ?_, ?_, ?_, ?_,
      hparcel⟩
    · simp [seen, htaken]
    · intro reply hreply hh
      obtain rfl := Option.some.inj (htaken.symm.trans hreply)
      exact ⟨w, hsent, (hanswers hh).2⟩
    · intro sent hs
      obtain rfl := Option.some.inj (hsent.symm.trans hs)
      exact h.cached
    · intro reply hreply
      obtain rfl := Option.some.inj (htaken.symm.trans hreply)
      exact hrc
    · exact fun hnone => ⟨_, htaken, hdata hnone⟩

/-- The commands of a read leave the call waiting, or end it. -/
def Scanned (wdb : Wdb) (c : Nat) (w : Sent) : Scan → Prop
  | .returns r s' => Ended wdb r s'
  | .waits s' => s'.wdb = wdb ∧ ∃ conn, Waiting s' c w conn

theorem Scanned.scan (h : Scanned wdb c w (.waits s)) (m : Mapped) (object : Bool) (n : Nat)
    (bytes : List UInt8) : Scanned wdb c w (scan c m object n bytes s) := by
  fun_induction Session.scan c m object n bytes s with
  | case1 | case2 | case3 =>
    obtain ⟨-, conn, h⟩ := h
    exact h.reset _ wdb
  | case4 n b₀ b₁ b₂ b₃ bytes s cmd _ _ _ _ buffer ih =>
    obtain ⟨hwdb, conn, h⟩ := h
    exact ih ⟨hwdb, _, h.incoming buffer _⟩
  | case5 n b₀ b₁ b₂ b₃ bytes s cmd _ _ _ _ _ r s₁ hreply =>
    obtain ⟨rfl, conn, h⟩ := h
    exact h.reply hreply
  | case6 n b₀ b₁ b₂ b₃ bytes s cmd _ _ _ _ _ ih => exact ih h
  | case7 => exact h

variable {object : Bool}

theorem Scanned.await (h : Scanned wdb c w (.waits s)) {ws : List Wait}
    (ha : await c object ws s = some (r, s')) : Ended wdb r s' := by
  induction ws generalizing s with
  | nil => cases ha
  | cons wait ws ih =>
    cases wait with
    | expired | pollTimedOut | pollFailed | readFailed =>
      obtain ⟨-, conn, h⟩ := h
      cases ha
      exact h.reset _ wdb
    | pollInterrupted => exact ih h ha
    | readAgain => exact ih h ha
    | read bytes m =>
      have hscan := h.scan m object bytes.length bytes
      rw [Session.await] at ha
      cases ho : Session.scan c m object bytes.length bytes s with
      | returns r₁ s₁ =>
        rw [ho] at ha hscan
        cases ha
        exact hscan
      | waits s₁ =>
        rw [ho] at ha hscan
        exact ih hscan ha

variable {handle code : Nat} {env : Env} {cached : Bool}

/-- A call that fails before it writes anything. -/
theorem Idle.ended (h : Idle s) (e : Err) (hsent : s.sent = none) (htaken : s.taken = none)
    (hkeeps : s.wdb.havePlatform = true → wdb.havePlatform = true) :
    Ended wdb { rc := some e } s := by
  refine ⟨h, hkeeps, nofun, .of_error ?_ (by simp [seen, hsent]) htaken rfl⟩
  obtain hshut | ⟨c, conn, ho, hs⟩ := h.conn
  · exact .inl ⟨hshut.fd, hshut.platform, hshut.conns⟩
  · exact .inr ⟨c, conn, ⟨ho.fd, ho.conns⟩, hs, by simp [seen, hsent]⟩

theorem Idle.transactBody (h : Idle s) (hsent : s.sent = none) (htaken : s.taken = none)
    {req : Option Parcel}
    (hcached : cached = true → s.wdb.havePlatform = true ∧ handle = s.wdb.platform)
    (ht : s.transactBody handle code req object cached env = some (r, s')) :
    Ended s.wdb r s' := by
  unfold Session.transactBody at ht
  cases req with
  | none =>
    cases ht
    exact h.ended _ hsent htaken id
  | some req =>
    dsimp only at ht
    split at ht
    · cases ht
      exact h.ended _ hsent htaken id
    · rename_i e s₁ herr hconn
      obtain ⟨hidle, hhave, -, hsent₁, htaken₁⟩ := h.connect hconn
      cases ht
      exact hidle.ended e (hsent₁.trans hsent) (htaken₁.trans htaken) fun hp => hhave ▸ hp
    · rename_i s₁ herr hconn
      obtain ⟨hidle, hhave, hplat, hsent₁, htaken₁⟩ := h.connect hconn
      obtain ⟨c, hfd, ht⟩ := bind_eq_some_iff.mp ht
      split at ht
      · obtain hshut | ⟨d, conn, ho, hs⟩ := hidle.conn
        · cases hshut.fd.symm.trans hfd
        · obtain rfl := Option.some.inj (hfd.symm.trans ho.fd)
          rw [← hhave, ← hplat] at hcached
          have hwait := ho.write hs hidle.good (htaken₁.trans htaken) hcached code req.data
          have hended := Scanned.await ⟨rfl, _, hwait⟩ ht
          exact { hended with keeps := fun hp => hhave ▸ hended.keeps hp }
      · cases ht
        have hended : Ended s.wdb _ _ :=
          hidle.reset.ended .edead (hsent₁.trans hsent) (htaken₁.trans htaken) nofun
        exact hended

theorem Idle.transact (h : Idle s) {req : Option Parcel}
    (hcached : cached = true → s.wdb.havePlatform = true ∧ handle = s.wdb.platform)
    (ht : s.transact handle code req object cached env = some (r, s')) :
    Ended s.wdb r s' ∧ ∃ ret, s'.returned.head? = some ret ∧ ret.result = r := by
  obtain ⟨⟨r₁, s₁⟩, hbody, heq⟩ := map_eq_some_iff.mp ht
  cases heq
  have hidle : Idle { s with sent := none, taken := none } := by
    refine ⟨h.conn.imp (fun hs => ⟨hs.fd, hs.conns, hs.platform⟩) ?_, h.good⟩
    rintro ⟨c, conn, ho, hs⟩
    exact ⟨c, conn, { ho with }, hs⟩
  have hended := hidle.transactBody rfl rfl hcached hbody
  refine ⟨⟨⟨?_, ?_⟩, hended.keeps, ?_, ?_⟩, _, rfl, rfl⟩
  · refine hended.idle.conn.imp (fun hs => ⟨hs.fd, hs.conns, hs.platform⟩) ?_
    rintro ⟨c, conn, ho, hs⟩
    exact ⟨c, conn, { ho with }, hs⟩
  · exact forall_mem_cons.mpr ⟨⟨hended.seen, hended.idle.freed_iff r⟩, hended.idle.good⟩
  · intro handle hh
    obtain ⟨c, conn, ho, hmem⟩ := hended.object handle hh
    exact ⟨c, conn, { ho with }, hmem⟩
  · exact hended.seen

theorem Idle.getService (h : Idle s) {name : List UInt8}
    (hg : s.getService name env = some (r, s')) :
    Idle s' ∧ (s'.wdb.havePlatform = true → s.wdb.havePlatform = true) ∧
      (r.rc = none → ∃ handle, r.object = some handle ∧
        ∃ c conn, Opened s' c conn ∧ handle ∈ conn.handles) := by
  obtain ⟨⟨r₁, s₁⟩, ht, heq⟩ := map_eq_some_iff.mp hg
  cases heq
  obtain ⟨hended, -⟩ := h.transact (fun hc => absurd hc Bool.false_ne_true) ht
  refine ⟨hended.idle, hended.keeps, fun hrc => ?_⟩
  dsimp only at hrc ⊢
  cases hobject : r₁.object with
  | none =>
    rw [hobject] at hrc
    split at hrc <;> simp_all
  | some handle => exact ⟨handle, rfl, hended.object handle hobject⟩

variable {envs : List Env}

theorem Idle.findPlatform (h : Idle s) {rest : List Env} {rc : Option Err}
    (hf : s.findPlatform envs = some (rc, s', rest)) :
    Idle s' ∧ (rc = none → s'.wdb.havePlatform = true) := by
  unfold Session.findPlatform at hf
  split at hf
  · rename_i hp
    cases hf
    exact ⟨h, fun _ => hp⟩
  · rename_i hp
    cases envs with
    | nil => cases hf
    | cons env envs =>
      obtain ⟨⟨r, s₁⟩, hg, heq⟩ := map_eq_some_iff.mp hf
      obtain ⟨hidle, hkeeps, hfound⟩ := h.getService hg
      have hnot : s₁.wdb.havePlatform ≠ true := fun h₁ => hp (hkeeps h₁)
      cases hrc : r.rc with
      | some e =>
        simp only [hrc] at heq
        cases heq
        refine ⟨⟨hidle.conn.imp (fun hs => ⟨hs.fd, hs.conns, hs.platform⟩) ?_, hidle.good⟩, nofun⟩
        rintro ⟨c, conn, ho, hs⟩
        exact ⟨c, conn, { ho with platform := fun h₁ => absurd h₁ hnot }, hs⟩
      | none =>
        obtain ⟨handle, hobject, c, conn, ho, hmem⟩ := hfound hrc
        simp only [hrc, hobject] at heq
        cases heq
        refine ⟨⟨.inr ⟨c, conn, { ho with platform := fun _ => hmem }, ?_⟩, hidle.good⟩, fun _ => rfl⟩
        obtain hshut | ⟨d, conn', ho', hs⟩ := hidle.conn
        · cases hshut.fd.symm.trans ho.fd
        · have hconn : s₁.conns d = some conn' := by simp [ho'.conns]
          exact ho.unique ho'.fd hconn ▸ hs

theorem Idle.attempts (h : Idle s) {n : Nat} {req : Parcel}
    (ha : attempts code req n s envs = some (r, s')) :
    Idle s' ∧ (r.rc = none → ∃ ret, s'.returned.head? = some ret ∧ ret.result = r) := by
  fun_induction Session.attempts code req n s envs with
  | case1 => cases ha
  | case2 n s envs e s₁ rest hfind =>
    cases ha
    exact ⟨(h.findPlatform hfind).1, nofun⟩
  | case3 => cases ha
  | case4 => cases ha
  | case5 s envs s₁ env rest hfind r₁ s₂ ht | case7 s envs s₁ env rest hfind r₁ s₂ n ht _ =>
    cases ha
    obtain ⟨hidle, hhave⟩ := h.findPlatform hfind
    obtain ⟨hended, hret⟩ := hidle.transact (fun _ => ⟨hhave rfl, rfl⟩) ht
    exact ⟨hended.idle, fun _ => hret⟩
  | case6 s envs s₁ env rest hfind r₁ s₂ n ht _ ih =>
    obtain ⟨hidle, hhave⟩ := h.findPlatform hfind
    exact ih (hidle.transact (fun _ => ⟨hhave rfl, rfl⟩) ht).1.idle ha

theorem getI32_pos {p : Parcel} (he : p.error = none) (he' : p.getI32.2.error = none) :
    p.getI32.2 = { p with pos := p.pos + 4 } := by
  unfold Parcel.getI32 at he' ⊢
  rw [if_neg (by simp [he])] at he' ⊢
  split_ifs at he' ⊢ with hlen
  split
  · rfl
  · rename_i hnone
    have hdrop : 4 ≤ (p.data.drop p.pos).length := by
      rw [length_drop]
      unfold Parcel.len at hlen
      omega
    match hd : p.data.drop p.pos, hdrop with
    | b₀ :: b₁ :: b₂ :: b₃ :: rest, _ => exact absurd hd (hnone b₀ b₁ b₂ b₃ rest)

/-- What `platform_call` hands on is the reply of the last `transact`, behind its exception code. -/
theorem Idle.platformCall (h : Idle s) {req : Parcel}
    (hp : s.platformCall code req envs = some (r, s')) :
    Idle s' ∧ (r.rc = none → ∃ ret, s'.returned.head? = some ret ∧ ret.result.rc = none ∧
      r.reply = { ret.result.reply with pos := 4 }) := by
  obtain ⟨⟨r₁, s₁⟩, ha, heq⟩ := map_eq_some_iff.mp hp
  obtain ⟨hidle, hret⟩ := h.attempts ha
  dsimp only at heq
  split at heq
  · cases heq
    exact ⟨hidle, nofun⟩
  · rename_i hrc
    obtain ⟨ret, hhead, rfl⟩ := hret hrc
    obtain ⟨hpos, herr, -⟩ := (hidle.good ret (mem_of_mem_head? hhead)).1.parcel
    split_ifs at heq with herror hex <;> cases heq
    · exact ⟨hidle, nofun⟩
    · exact ⟨hidle, nofun⟩
    · refine ⟨hidle, fun _ => ⟨ret, hhead, hrc, ?_⟩⟩
      rw [getI32_pos herr (by simpa using herror), hpos]

theorem Idle.after_step (h : Idle s) {call : Call} (hs : step s call = some s') : Idle s' := by
  cases call with
  | transact handle code req env =>
    obtain ⟨⟨r, s₁⟩, ht, rfl⟩ := map_eq_some_iff.mp hs
    exact (h.transact (fun hc => absurd hc Bool.false_ne_true) ht).1.idle
  | getService name env =>
    obtain ⟨⟨r, s₁⟩, hg, rfl⟩ := map_eq_some_iff.mp hs
    exact (h.getService hg).1
  | platformCall code req envs =>
    obtain ⟨⟨r, s₁⟩, hp, rfl⟩ := map_eq_some_iff.mp hs
    exact (h.platformCall hp).1
  | setPath path =>
    cases hs
    exact h.setPath path
  | reset =>
    cases hs
    exact h.reset

/-- **No stale reply.**  Whenever `transact` returns, the connection is closed and the platform
handle forgotten, or as many replies as transactions have been taken on it; the caller gets the
reply to its own transaction as it was sent, and a cached handle is used only on the connection that
it came on.  Every buffer is freed once exactly if no `BC_FREE_BUFFER` failed on the connection.
What `platform_call` hands on is the reply of its last `transact`. -/
theorem no_stale_reply (path : List UInt8) (calls : List Call) (s : Session)
    (hrun : run step (new path) calls = some s) :
    (∀ ret ∈ s.returned, ret.Good ∧ (ret.Freed ↔ ret.Fits)) ∧
    ∀ code req envs r s', s.platformCall code req envs = some (r, s') → r.rc = none →
      ∃ ret, s'.returned.head? = some ret ∧ ret.Good ∧ ret.result.rc = none ∧
        r.reply = { ret.result.reply with pos := 4 } := by
  have hnew : Idle (new path) := ⟨.inl ⟨rfl, rfl, rfl⟩, by simp [new]⟩
  have hidle : Idle s := run_invariant (fun _ _ _ h hs => h.after_step hs) hrun hnew
  refine ⟨hidle.good, fun code req envs r s' hcall hrc => ?_⟩
  obtain ⟨hidle', hret⟩ := hidle.platformCall hcall
  obtain ⟨ret, hhead, hreply⟩ := hret hrc
  exact ⟨ret, hhead, (hidle'.good ret (mem_of_mem_head? hhead)).1, hreply⟩

/-- The bytes of a `BR_REPLY` with its data at 0x1000 and its offsets at 0x2000. -/
def replyBytes (dataSize offsetsSize : UInt8) : List UInt8 :=
  [0x03, 0x72, 0x40, 0x80] ++ replicate 32 0 ++ dataSize :: replicate 7 0 ++
    offsetsSize :: replicate 7 0 ++ [0, 0x10, 0, 0, 0, 0, 0, 0] ++ [0, 0x20, 0, 0, 0, 0, 0, 0]

/-- The reply to a lookup, with handle 9 in it. -/
def lookupReply (answers : Nat) : Wait :=
  .read (replyBytes 24 8)
    { memory := fun address =>
        if 0x1000 ≤ address ∧ address < 0x1010 then
          [0x85, 0x2A, 0x68, 0x73, 0, 0, 0, 0, 9].getD (address - 0x1000) 0
        else 0
      answers }

/-- A call that times out, and a lookup with a call on the next connection. -/
def lookupAfterTimeout : List Call := [
  .transact 5 1 (some {}) { waits := [.pollInterrupted, .read [0x0c, 0x72, 0, 0] {}, .expired] },
  .platformCall 7 {} [{ waits := [.readAgain, lookupReply 1] },
    { waits := [.read (replyBytes 4 0) { answers := 2 }] }]]

theorem no_stale_reply_lookupAfterTimeout :
    ∃ s, run step (new [47]) lookupAfterTimeout = some s ∧ s.honest = true ∧
      s.wdb = { path := [47], fd := some 1, havePlatform := true, platform := 9 } ∧
      s.returned.map (fun ret => ret.result.rc) = [none, none, some .etimedout] ∧
      ∀ ret ∈ s.returned, ret.Good ∧ (ret.Freed ↔ ret.Fits) := by
  obtain ⟨s, hs, hrest⟩ : ∃ s, run step (new [47]) lookupAfterTimeout = some s ∧
      s.honest = true ∧
      s.wdb = { path := [47], fd := some 1, havePlatform := true, platform := 9 } ∧
      s.returned.map (fun ret => ret.result.rc) = [none, none, some .etimedout] :=
    exists_of_any (by decide +kernel)
  exact ⟨s, hs, hrest.1, hrest.2.1, hrest.2.2, (no_stale_reply _ _ s hs).1⟩

/-- The driver takes no `BC_FREE_BUFFER`. -/
def freeFails : List Call := [
  .transact 5 1 (some {}) { waits := [.read (replyBytes 4 0) { frees := fun _ => false }] }]

theorem reply_not_freed :
    ∃ s, run step (new [47]) freeFails = some s ∧
      ∃ ret ∈ s.returned, ret.result.rc = none ∧ ret.wdb.fd = some 0 ∧ ¬ ret.Freed := by
  obtain ⟨s, hs, ret, hret, hrc, hfd, conn, hconn, hne⟩ :
      ∃ s, run step (new [47]) freeFails = some s ∧ ∃ ret ∈ s.returned, ret.result.rc = none ∧
        ret.wdb.fd = some 0 ∧ ∃ conn ∈ ret.conns 0, conn.delivered ≠ conn.freed :=
    exists_of_any (by decide +kernel)
  exact ⟨s, hs, ret, hret, hrc, hfd, fun hfreed => hne (hfreed 0 conn hfd hconn)⟩

end OniroSoc.Binder

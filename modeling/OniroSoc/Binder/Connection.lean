import OniroSoc.Support.Runs
import OniroSoc.Binder.Parcel

/-!
# The binder connection

`struct wdb` of `wdbinder.c` and the calls on it.  `Env` is what the driver and the clock answer to
one `transact`: the result of every `ioctl`, the bytes that a read returns, the memory that the
driver has mapped; the deadline may pass in any round.

Beside the client's own fields stands what the driver knows of each open descriptor: the
transactions written and answered there, the buffers it delivered, which of them it was told to free
and with what result, and the handles it sent.  `Return` is what there is to be seen when one
`transact` returns.
-/

namespace OniroSoc.Binder
open Support

structure Wdb where
  path : List UInt8 := []
  fd : Option Nat := none
  havePlatform : Bool := false
  platform : Nat := 0
deriving DecidableEq

/-- What the driver knows of an open descriptor; lists have the newest first. -/
structure Conn where
  /-- Transactions that were written, and those a reply was delivered for. -/
  (written answered : List Nat := [])
  /-- Buffers that were delivered, those freed, and those whose `BC_FREE_BUFFER` failed. -/
  (delivered freed failed : List Nat := [])
  /-- Handles that came in a reply. -/
  handles : List Nat := []
deriving DecidableEq

def Conn.deliver (conn : Conn) (buffer : Nat) : Conn :=
  { conn with delivered := buffer :: conn.delivered }

def Conn.free (conn : Conn) (buffer : Nat) (ok : Bool) : Conn :=
  if ok then { conn with freed := buffer :: conn.freed }
  else { conn with failed := buffer :: conn.failed }

inductive Opening where
  | noNode
  | badVersion
  | noMap
  | ok
deriving DecidableEq

/-- What goes with the bytes of one read: the mapped memory, whether there is memory for a copy of
the reply, the transaction that a reply in it answers, and whether the `BC_FREE_BUFFER` succeeds for
the command that has `left` bytes behind it. -/
structure Mapped where
  memory : Nat → UInt8 := fun _ => 0
  room : Bool := true
  answers : Nat := 0
  frees (left : Nat) : Bool := true

/-- One round of the waiting loop. -/
inductive Wait where
  | expired
  | pollInterrupted
  | pollTimedOut
  | pollFailed
  | readAgain
  | readFailed
  | read (bytes : List UInt8) (mapped : Mapped)

/-- The answers of the driver to one `transact`. -/
structure Env where
  opening : Opening := .ok
  written : Bool := true
  waits : List Wait := []
  alloc : Nat → Bool := fun _ => true

/-- The little-endian number in the first `n` bytes. -/
def number (n : Nat) (bytes : List UInt8) : Nat :=
  (bytes.take n).foldr (fun b v => b.toNat + 256 * v) 0

def brDeadReply : Nat := 0x7205
def brFailedReply : Nat := 0x7211
def brFrozenReply : Nat := 0x7212
def brTransaction : Nat := 0x80407202
def brTransactionSecCtx : Nat := 0x80487202
def brReply : Nat := 0x80407203

/-- `_IOC_SIZE`. -/
def payloadSize (cmd : Nat) : Nat := cmd >>> 16 &&& 0x3FFF

def tfStatusCode : Nat := 0x08

def binderTypeHandle : Nat := 0x73682A85

def flatBinderObjectSize : Nat := 24

/-- The fields of `struct binder_transaction_data` that are read. -/
structure TransactionData where
  (flags dataSize offsetsSize buffer offsets : Nat)

def transactionData (payload : List UInt8) : TransactionData where
  flags := number 4 (payload.drop 20)
  dataSize := number 8 (payload.drop 32)
  offsetsSize := number 8 (payload.drop 40)
  buffer := number 8 (payload.drop 48)
  offsets := number 8 (payload.drop 56)

def Mapped.bytes (m : Mapped) (address n : Nat) : List UInt8 :=
  (List.range n).map fun i => m.memory (address + i)

structure Result where
  rc : Option Err := none
  reply : Parcel := {}
  object : Option Nat := none
deriving DecidableEq

/-- A `BC_TRANSACTION` that was written, with the handles that had come on its connection. -/
structure Sent where
  (txn handle code : Nat)
  data : List UInt8
  cached : Bool
  known : List Nat
deriving DecidableEq

/-- A `BR_REPLY`: what it answers, the bytes of its buffer, and whether it is a bare status. -/
structure Reply where
  answers : Nat
  data : List UInt8
  (status room : Bool)
deriving DecidableEq

/-- What there is to be seen when a `transact` returns. -/
structure Return where
  sent : Option Sent
  taken : Option Reply
  honest : Bool
  result : Result
  wdb : Wdb
  conns : Nat → Option Conn

structure Session where
  wdb : Wdb := {}
  (nextConn nextTxn : Nat := 0)
  /-- The open descriptors. -/
  conns : Nat → Option Conn := fun _ => none
  /-- Every reply was for a transaction of its descriptor that had none. -/
  honest : Bool := true
  /-- What the `transact` in progress has written and taken. -/
  sent : Option Sent := none
  taken : Option Reply := none
  returned : List Return := []

namespace Session

/-- The driver notes something about descriptor `c`. -/
def note (s : Session) (c : Nat) (f : Conn → Conn) : Session :=
  { s with conns := Function.update s.conns c ((s.conns c).map f) }

/-- `wdb_reset`. -/
def reset (s : Session) : Session :=
  { s with
    wdb := { s.wdb with fd := none, havePlatform := false }
    conns := match s.wdb.fd with
      | some c => Function.update s.conns c none
      | none => s.conns }

/-- `wdb_set_path`. -/
def setPath (s : Session) : Option (List UInt8) → Session
  | none => s
  | some path =>
    if s.wdb.path = path then s
    else { s.reset with wdb := { s.reset.wdb with path := path.take 255 } }

/-- A descriptor that is opened and closed again. -/
def openAndClose (s : Session) : Session :=
  { s with nextConn := s.nextConn + 1, conns := Function.update s.conns s.nextConn none }

/-- `wdb_connect`. -/
def connect (s : Session) (opening : Opening) : Option Err × Session :=
  match s.wdb.fd with
  | some _ => (none, s)
  | none =>
    if s.wdb.path = [] then (some .eopen, s)
    else
      match opening with
      | .noNode => (some .eopen, s)
      | .badVersion => (some .eproto, s.openAndClose)
      | .noMap => (some .eopen, s.openAndClose)
      | .ok => (none, { s with
          wdb := { s.wdb with fd := some s.nextConn }
          nextConn := s.nextConn + 1
          conns := Function.update s.conns s.nextConn (some {}) })

/-- The copy of a reply's data. -/
def copyReply (m : Mapped) (t : TransactionData) : Option Err × Parcel :=
  if maxReply < t.dataSize then (some .eproto, {})
  else if 0 < t.dataSize then
    match ({} : Parcel).grow (fun _ => m.room) t.dataSize with
    | (p, some off) => (none, p.poke off (m.bytes t.buffer t.dataSize))
    | (p, none) => (some .enomem, p)
  else (none, {})

/-- The first object of a reply, if it is a handle. -/
def findObject (m : Mapped) (t : TransactionData) : Option Nat :=
  let off := number 8 (m.bytes t.offsets 8)
  let object := m.bytes (t.buffer + off) flatBinderObjectSize
  if 8 ≤ t.offsetsSize ∧ (off + flatBinderObjectSize) % 2 ^ 64 ≤ t.dataSize ∧
      number 4 object = binderTypeHandle then
    some (number 4 (object.drop 8))
  else none

/-- A reply comes out of a read. -/
def receive (s : Session) (c : Nat) (m : Mapped) (t : TransactionData) : Session :=
  { s.note c fun conn => { conn.deliver t.buffer with answered := m.answers :: conn.answered } with
    honest := s.honest &&
      (s.conns c).any fun conn => m.answers ∈ conn.written ∧ m.answers ∉ conn.answered
    taken := some ⟨m.answers, m.bytes t.buffer t.dataSize, t.flags &&& tfStatusCode ≠ 0, m.room⟩ }

/-- `BC_INCREFS` and `BC_ACQUIRE`, whose result is ignored. -/
def refer (s : Session) (c : Nat) (found : Option Nat) : Session :=
  s.note c fun conn => { conn with handles := found.toList ++ conn.handles }

/-- `free_buffer`, which ignores the result of `bwr_write`. -/
def freeBuffer (s : Session) (c buffer : Nat) (ok : Bool) : Session :=
  s.note c fun conn => conn.free buffer ok

/-- The branch of `transact` for `BR_REPLY`. -/
def takeReply (s : Session) (c : Nat) (m : Mapped) (object ok : Bool) (t : TransactionData) :
    Result × Session :=
  let copied := copyReply m t
  let found := if copied.1 = none ∧ object then findObject m t else none
  let s := ((s.receive c m t).refer c found).freeBuffer c t.buffer ok
  match copied with
  | (some e, _) => ({ rc := some e, object := found }, s)
  | (none, reply) =>
    if t.flags &&& tfStatusCode ≠ 0 then ({ rc := some .eproto, object := found }, s)
    else ({ reply, object := found }, s)

inductive Scan where
  | returns (r : Result) (s : Session)
  | waits (s : Session)

/-- The commands of a read.  Every round takes four bytes at least. -/
def scan (c : Nat) (m : Mapped) (object : Bool) : Nat → List UInt8 → Session → Scan
  | n + 1, b₀ :: b₁ :: b₂ :: b₃ :: bytes, s =>
    let cmd := number 4 [b₀, b₁, b₂, b₃]
    if bytes.length < payloadSize cmd then .returns { rc := some .eproto } s.reset
    else if cmd = brDeadReply then .returns { rc := some .edead } s.reset
    else if cmd = brFailedReply ∨ cmd = brFrozenReply then .returns { rc := some .eproto } s.reset
    else if cmd = brTransaction ∨ cmd = brTransactionSecCtx then
      let buffer := (transactionData bytes).buffer
      scan c m object n (bytes.drop (payloadSize cmd))
        ((s.note c fun conn => conn.deliver buffer).freeBuffer c buffer (m.frees bytes.length))
    else if cmd = brReply then
      let (r, s) := s.takeReply c m object (m.frees bytes.length) (transactionData bytes)
      .returns r s
    else scan c m object n (bytes.drop (payloadSize cmd)) s
  | _, _, s => .waits s

/-- The waiting loop.  When the rounds run out, the call has not returned. -/
def await (c : Nat) (object : Bool) : List Wait → Session → Option (Result × Session)
  | [], _ => none
  | .expired :: _, s => some ({ rc := some .etimedout }, s.reset)
  | .pollInterrupted :: ws, s => await c object ws s
  | .pollTimedOut :: _, s => some ({ rc := some .etimedout }, s.reset)
  | .pollFailed :: _, s => some ({ rc := some .edead }, s.reset)
  | .readAgain :: ws, s => await c object ws s
  | .readFailed :: _, s => some ({ rc := some .edead }, s.reset)
  | .read bytes m :: ws, s =>
    match scan c m object bytes.length bytes s with
    | .returns r s => some (r, s)
    | .waits s => await c object ws s

/-- The `BC_TRANSACTION` goes out. -/
def write (s : Session) (c handle code : Nat) (data : List UInt8) (cached : Bool) : Session :=
  { s.note c fun conn => { conn with written := s.nextTxn :: conn.written } with
    nextTxn := s.nextTxn + 1
    sent := some ⟨s.nextTxn, handle, code, data, cached,
      (s.conns c).elim [] Conn.handles⟩ }

def transactBody (s : Session) (handle code : Nat) (req : Option Parcel) (object cached : Bool)
    (env : Env) : Option (Result × Session) :=
  match req with
  | none => some ({ rc := some .einval }, s)
  | some req =>
    match req.error, s.connect env.opening with
    | some e, _ => some ({ rc := some e }, s)
    | none, (some e, s) => some ({ rc := some e }, s)
    | none, (none, s) =>
      s.wdb.fd.bind fun c =>
        if env.written then await c object env.waits (s.write c handle code req.data cached)
        else some ({ rc := some .edead }, s.reset)

/-- What is to be seen of the session when `transact` returns `r`. -/
def seen (s : Session) (r : Result) : Return :=
  ⟨s.sent, s.taken, s.honest, r, s.wdb, s.conns⟩

def record (s : Session) (r : Result) : Session := { s with returned := s.seen r :: s.returned }

/-- `transact`; `object` says whether the caller asks for a handle, `cached` that the handle it
calls is the cached one. -/
def transact (s : Session) (handle code : Nat) (req : Option Parcel) (object cached : Bool)
    (env : Env) : Option (Result × Session) :=
  (transactBody { s with sent := none, taken := none } handle code req object cached env).map
    fun (r, s) => (r, s.record r)

def ascii (text : String) : List UInt8 := text.toList.map fun ch => UInt8.ofNat ch.toNat

def ifaceServiceManager : List UInt8 := ascii "android.os.IServiceManager"

def servicePlatform : List UInt8 := ascii "waydroidplatform"

def smLookup : Nat := 2

/-- `wdb_get_service`. -/
def getService (s : Session) (name : List UInt8) (env : Env) : Option (Result × Session) :=
  let req := (({} : Parcel).putToken env.alloc ifaceServiceManager).putStr16 env.alloc (some name)
  (s.transact 0 smLookup (some req) true false env).map fun (r, s) =>
    ({ rc := if r.rc = none ∧ r.object = none then some .enoservice else r.rc
       object := r.object }, s)

/-- The handle of the platform service, looked up unless there is a cached one. -/
def findPlatform (s : Session) (envs : List Env) : Option (Option Err × Session × List Env) :=
  if s.wdb.havePlatform then some (none, s, envs)
  else
    match envs with
    | [] => none
    | env :: envs =>
      (s.getService servicePlatform env).map fun (r, s) =>
        let wdb := { s.wdb with platform := r.object.getD s.wdb.platform }
        match r.rc with
        | some e => (some e, { s with wdb }, envs)
        | none => (none, { s with wdb := { wdb with havePlatform := true } }, envs)

/-- The two attempts of `platform_call`. -/
def attempts (code : Nat) (req : Parcel) : Nat → Session → List Env → Option (Result × Session)
  | n, s, envs =>
    match s.findPlatform envs with
    | none => none
    | some (some e, s, _) => some ({ rc := some e }, s)
    | some (none, _, []) => none
    | some (none, s, env :: envs) =>
      match s.transact s.wdb.platform code (some req) false true env, n with
      | none, _ => none
      | some (r, s), 0 => some (r, s)
      | some (r, s), n + 1 =>
        if r.rc = some .edead then attempts code req n s envs else some (r, s)

def platformCall (s : Session) (code : Nat) (req : Parcel) (envs : List Env) :
    Option (Result × Session) :=
  (attempts code req 1 s envs).map fun (r, s) =>
    match r.rc with
    | some e => ({ rc := some e }, s)
    | none =>
      let (ex, reply) := r.reply.getI32
      if reply.error.isSome then ({ rc := some .eproto }, s)
      else if ex ≠ 0 then ({ rc := some .eremote }, s)
      else ({ reply }, s)

inductive Call where
  | transact (handle code : Nat) (req : Option Parcel) (env : Env)
  | getService (name : List UInt8) (env : Env)
  | platformCall (code : Nat) (req : Parcel) (envs : List Env)
  | setPath (path : Option (List UInt8))
  | reset

def step (s : Session) : Call → Option Session
  | .transact handle code req env => (s.transact handle code req false false env).map Prod.snd
  | .getService name env => (s.getService name env).map Prod.snd
  | .platformCall code req envs => (s.platformCall code req envs).map Prod.snd
  | .setPath path => some (s.setPath path)
  | .reset => some s.reset

/-- `wdb_new`. -/
def new (path : List UInt8) : Session := { wdb := { path := path.take 255 } }

end Session

end OniroSoc.Binder

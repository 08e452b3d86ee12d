import OniroSoc.Audio.Stream

/-!
# Audio — the server's protocol loop

`waydroid_audio_main.cpp`: what the server does with the bytes of a connection.  `Outside` stands
for the calls out of the server.
-/

namespace OniroSoc.Audio
open Support

structure Connection where
  version : UInt32 := protocolVersion
  authorized : Bool := false
  (input output : List UInt8 := [])
  streams : Std.ExtTreeMap UInt32 Stream compare := ∅
  nextChannel : UInt32 := 0

structure Session where
  conn : Connection
  (nextStreamIndex nextClientIndex : UInt32 := 0)

def packetBytes (channel : UInt32) (payload : List UInt8) (flags : UInt32) : List UInt8 :=
  bytes32 payload.length.toUInt32 ++ bytes32 channel ++ bytes32 0 ++ bytes32 0 ++ bytes32 flags ++
    payload

namespace Session

def send (s : Session) (m : Message) : Session :=
  { s with conn := { s.conn with
      output :=
        s.conn.output ++ packetBytes channelCommand (m.values.foldl TagWriter.put {}).buf 0 } }

def sendAll (s : Session) (ms : List Message) : Session := ms.foldl send s

def exec (s : Session) (channel : UInt32) (st : Stream) (program : List Segment) : Session :=
  let p := st.execAll program
  sendAll { s with conn := { s.conn with streams := s.conn.streams.insert channel p.1 } } p.2

def withStream (s : Session) (tag channel : UInt32) (k : Stream → Session) : Session :=
  match s.conn.streams[channel]? with
  | none => s.send (.error tag .noEntity)
  | some st => k st

structure CreateRequest where
  ss : SampleSpec
  cm : ChannelMap
  attr : BufferAttr
  corked : Bool

def getFlags : Nat → Get UInt8 Unit
  | 0 => pure ()
  | n + 1 => do
    let _ ← TagReader.getBool
    getFlags n

def getCreateRequest : Get UInt8 CreateRequest := do
  let ss ← TagReader.getSampleSpec
  let cm ← TagReader.getChannelMap {}
  let _sinkIndex ← TagReader.getU32
  let _device ← TagReader.getString
  let maxlength ← TagReader.getU32
  let corked ← TagReader.getBool
  let tlength ← TagReader.getU32
  let prebuf ← TagReader.getU32
  let minreq ← TagReader.getU32
  let _syncId ← TagReader.getU32
  let _volume ← TagReader.getCVolume
  -- the v12 flag block, then the v13 additions: start muted, adjust latency, the properties
  getFlags 7
  getFlags 2
  let _props ← TagReader.getProplist ∅
  pure { ss, cm, attr := { maxlength, tlength, prebuf, minreq }, corked }

def text (s : String) : List UInt8 := s.toList.map Char.toUInt8

def sinkName : List UInt8 := text "waydroid_output"

def sourceName : List UInt8 := text "waydroid_input"

def createReply (tag : UInt32) (st : Stream) (latency : UInt64) : Message :=
  .reply tag [.u32 st.channel, .u32 st.index, .u32 st.attr.tlength, .u32 st.attr.maxlength,
    .u32 st.attr.tlength, .u32 st.attr.prebuf, .u32 st.attr.minreq, .sampleSpec st.ss,
    .channelMap st.cm, .u32 0, .string (some sinkName), .bool false, .usec latency]

def createPlayback (out : Outside) (s : Session) (tag : UInt32) (req : CreateRequest) : Session :=
  if valid : req.ss.Valid then
    match openStream req.ss valid req.cm req.attr req.corked s.conn.nextChannel s.nextStreamIndex
      out.created out.now with
    | none => s.send (.error tag .invalid)
    | some st =>
      let s := { s with
        nextStreamIndex := s.nextStreamIndex + 1
        conn := { s.conn with nextChannel := s.conn.nextChannel + 1 } }
      let s := s.send (createReply tag st out.latency)
      { s with conn := { s.conn with streams := s.conn.streams.insert st.channel st } }
  else s.send (.error tag .invalid)

def parsed {α : Type} (g : Get UInt8 α) (r : TagReader) (k : α → Session) : Option Session :=
  (g r).1.map k

def auth (s : Session) (tag version : UInt32) : Session :=
  let peer := version &&& versionMask
  if peer < 8 then s.send (.error tag .version)
  else
    let version := min peer protocolVersion
    ({ s with conn := { s.conn with version, authorized := true } }).send
    (.reply tag [.u32 version])

def getClientName (version : UInt32) : Get UInt8 Unit :=
  if version ≥ 13 then do
    let _ ← TagReader.getProplist ∅
    pure ()
  else do
    let _ ← TagReader.getString
    pure ()

def setClientName (s : Session) (tag : UInt32) : Session :=
  if s.conn.version ≥ 13 then
    ({ s with nextClientIndex := s.nextClientIndex + 1 }).send (.reply tag [.u32 s.nextClientIndex])
  else s.send (.reply tag [])

def deleteStream (s : Session) (tag channel : UInt32) : Session :=
  s.withStream tag channel fun _ =>
    ({ s with conn := { s.conn with streams := s.conn.streams.erase channel } }).send
      (.reply tag [])

def bufferAttrReply (s : Session) (tag : UInt32) (st : Stream) (latency : UInt64) : Message :=
  .reply tag ([.u32 st.attr.maxlength, .u32 st.attr.tlength, .u32 st.attr.prebuf,
    .u32 st.attr.minreq] ++ if s.conn.version ≥ 13 then [.usec latency] else [])

def serverInfoReply (s : Session) (tag : UInt32) : Message :=
  .reply tag ([.string (some (text "waydroid_audio")), .string (some (text "13.0.0")),
    .string (some (text "waydroid")), .string (some (text "localhost")), .sampleSpec {},
    .string (some sinkName), .string (some sourceName), .u32 0] ++
    if s.conn.version ≥ 15 then [.channelMap {}] else [])

end Session

def Command.handled : List Command :=
  [.auth, .setClientName, .createPlaybackStream, .deletePlaybackStream, .corkPlaybackStream,
    .flushPlaybackStream, .triggerPlaybackStream, .prebufPlaybackStream, .drainPlaybackStream,
    .getPlaybackLatency, .setPlaybackStreamName, .setPlaybackStreamBufferAttr, .getServerInfo,
    .createRecordStream, .exit]

def Command.ofCode (code : UInt32) : Option Command := Command.handled.find? (·.code = code)

namespace Session

def handleCommand (out : Outside) (s : Session) (command tag : UInt32)
    (r : TagReader) : Option Session :=
  -- everything except AUTH needs an authorised connection
  if s.conn.authorized = false ∧ command ≠ Command.auth.code then some (s.send (.error tag .access))
  else
    match Command.ofCode command with
    | some .auth => parsed (do
        let version ← TagReader.getU32
        let _cookie ← TagReader.getArbitrary
        pure version) r fun version => s.auth tag version
    | some .setClientName => parsed (getClientName s.conn.version) r fun _ => s.setClientName tag
    | some .createPlaybackStream => parsed getCreateRequest r fun req =>
      createPlayback out s tag req
    | some .deletePlaybackStream => parsed TagReader.getU32 r fun channel =>
      s.deleteStream tag channel
    | some .corkPlaybackStream => parsed (do
        let channel ← TagReader.getU32
        let cork ← TagReader.getBool
        pure (channel, cork)) r fun p =>
          s.withStream tag p.1 fun st => s.exec p.1 st (onCork tag p.2)
    | some .flushPlaybackStream => parsed TagReader.getU32 r fun channel =>
      s.withStream tag channel fun st => s.exec channel st (onFlush tag)
    | some .triggerPlaybackStream | some .prebufPlaybackStream =>
      -- we never hold audio back for prebuf, so both are already true
      parsed TagReader.getU32 r fun channel =>
        s.withStream tag channel fun _ => s.send (.reply tag [])
    | some .drainPlaybackStream => parsed TagReader.getU32 r fun channel =>
      s.withStream tag channel fun st => s.exec channel st (onDrain tag)
    | some .getPlaybackLatency => parsed (do
        let channel ← TagReader.getU32
        let tv ← TagReader.getTimeval
        pure (channel, tv)) r fun p =>
          s.withStream tag p.1 fun st =>
            s.exec p.1 st (onLatency tag p.2.1 p.2.2 s.conn.version out)
    | some .setPlaybackStreamName => parsed (do
        let channel ← TagReader.getU32
        let _name ← TagReader.getString
        pure channel) r fun _ => s.send (.reply tag [])
    | some .setPlaybackStreamBufferAttr => parsed (do
        let channel ← TagReader.getU32
        let _maxlength ← TagReader.getU32
        let _tlength ← TagReader.getU32
        let _prebuf ← TagReader.getU32
        let _minreq ← TagReader.getU32
        pure channel) r fun channel =>
          s.withStream tag channel fun st => s.send (s.bufferAttrReply tag st out.latency)
    | some .getServerInfo => some (s.send (s.serverInfoReply tag))
    | some .createRecordStream => some (s.send (.error tag .notSupported))
    | some .exit => some (s.send (.reply tag []))
    | _ => some (s.send (.error tag .notSupported))

end Session

structure Packet where
  (channel flags : UInt32)
  offset : UInt64
  payload : List UInt8
  deriving DecidableEq, Repr

namespace Session

def handleStreamData (s : Session) (channel : UInt32) (data : List UInt8) : Session :=
  match s.conn.streams[channel]? with
  | none => s
  | some st => s.exec channel st (onData data)

def handlePacket (out : Outside) (s : Session) (p : Packet) : Option Session :=
  if p.channel ≠ channelCommand then some (s.handleStreamData p.channel p.payload)
  else if p.flags &&& flagShmdata ≠ 0 then none
  else
    match (do
        let command ← TagReader.getU32
        let tag ← TagReader.getU32
        pure (command, tag) : Get UInt8 (UInt32 × UInt32)) ⟨p.payload, 0, false⟩ with
    | (none, _) => none
    | (some (command, tag), r) => handleCommand out s command tag r

def pumpSinks (s : Session) : Session :=
  s.conn.streams.toList.foldl (fun s e => s.exec e.1 e.2 (onPump s.conn.version)) s

end Session

inductive ReadResult where
  | bytes (bs : List UInt8)
  | wouldBlock
  | interrupted
  | closed
  | failed
  deriving DecidableEq, Repr

def readSize : Nat := 16384

/-- The first loop of `ReadFrom`: what the reads add to the input, or `none` when the connection is
gone.  When the socket's answers run out it has nothing more to give, as after `wouldBlock`. -/
def received : List ReadResult → Option (List UInt8)
  | [] => some []
  | .bytes bs :: rest =>
    if bs.length = 0 then none
    else if bs.length < readSize then some bs
    else (received rest).map (bs ++ ·)
  | .wouldBlock :: _ => some []
  | .interrupted :: rest => received rest
  | .closed :: _ => none
  | .failed :: _ => none

inductive Dropped where
  | gone
  | tooLong
  | refused
  deriving DecidableEq, Repr

def be32At (d : List UInt8) (i : Nat) : UInt32 :=
  be32 (d.getD i 0) (d.getD (i + 1) 0) (d.getD (i + 2) 0) (d.getD (i + 3) 0)

def lengthAt (d : List UInt8) : Nat := (be32At d 0).toNat

def packetAt (d : List UInt8) : Packet where
  channel := be32At d 4
  offset := join64 (be32At d 8) (be32At d 12)
  flags := be32At d 16
  payload := (d.drop descriptorSize).take (lengthAt d)

/-- The second loop of `ReadFrom`, from the offset `off` on: drain as many whole packets as arrived.
It answers the packets it hands to `HandlePacket`, and the session and the offset it ends with.
`out off` is what the calls out of the server answer while the packet at `off` is handled. -/
def drainPackets (out : Nat → Outside) : Nat → Session → Nat →
    List Packet × Except Dropped (Session × Nat)
  | 0, s, off => ([], .ok (s, off))
  | fuel + 1, s, off =>
    let size := s.conn.input.length - off
    if size ≥ descriptorSize then
      let d := s.conn.input.drop off
      if lengthAt d > absoluteMaxBuffer then ([], .error .tooLong)
      else if size < descriptorSize + lengthAt d then ([], .ok (s, off))
      else
        match s.handlePacket (out off) (packetAt d) with
        | none => ([packetAt d], .error .refused)
        | some s =>
          let q := drainPackets out fuel s (off + (descriptorSize + lengthAt d))
          (packetAt d :: q.1, q.2)
    else ([], .ok (s, off))

/-- `ReadFrom`: the packets it hands on, and the session after it unless the connection is to be
dropped.  Every packet is longer than nothing, so the input's length is fuel enough. -/
def readFrom (out : Nat → Outside) (answers : List ReadResult) (s : Session) :
    List Packet × Except Dropped Session :=
  match received answers with
  | none => ([], .error .gone)
  | some bs =>
    let s := { s with conn := { s.conn with input := s.conn.input ++ bs } }
    let q := drainPackets out s.conn.input.length s 0
    (q.1, q.2.map fun p =>
      { p.1 with conn := { p.1.conn with input := p.1.conn.input.drop p.2 } })

end OniroSoc.Audio

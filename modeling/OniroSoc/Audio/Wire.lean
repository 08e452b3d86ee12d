import Std.Data.ExtTreeMap
import OniroSoc.Support.Bytes
import OniroSoc.Support.Cursor

/-!
# Audio — the PulseAudio protocol on the wire

`pa_wire.h`: the constants of the native protocol, the sample spec, and the tagstruct.  A
`TagWriter` is the bytes written so far, a `TagReader` a cursor whose failure is sticky.  A C string
stops at its first NUL.
-/

namespace OniroSoc.Audio
open Support

def protocolVersion : UInt32 := 13

def versionMask : UInt32 := 0x0000FFFF

def invalidIndex : UInt32 := 0xFFFFFFFF

def volumeNorm : UInt32 := 0x10000

def descriptorSize : Nat := 20

def channelCommand : UInt32 := 0xFFFFFFFF

def flagShmdata : UInt32 := 0x80000000

inductive Command where
  | error | reply
  | createPlaybackStream | deletePlaybackStream | createRecordStream
  | exit | auth | setClientName
  | drainPlaybackStream | getPlaybackLatency | getServerInfo
  | corkPlaybackStream | flushPlaybackStream | triggerPlaybackStream
  | setPlaybackStreamName | prebufPlaybackStream
  | request | overflow | underflow
  | setPlaybackStreamBufferAttr | started
  deriving DecidableEq, Repr

def Command.code : Command → UInt32
  | .error => 0
  | .reply => 2
  | .createPlaybackStream => 3
  | .deletePlaybackStream => 4
  | .createRecordStream => 5
  | .exit => 7
  | .auth => 8
  | .setClientName => 9
  | .drainPlaybackStream => 12
  | .getPlaybackLatency => 14
  | .getServerInfo => 20
  | .corkPlaybackStream => 41
  | .flushPlaybackStream => 42
  | .triggerPlaybackStream => 43
  | .setPlaybackStreamName => 46
  | .prebufPlaybackStream => 60
  | .request => 61
  | .overflow => 62
  | .underflow => 63
  | .setPlaybackStreamBufferAttr => 72
  | .started => 86

inductive Error where
  | access | invalid | noEntity | version | notSupported
  deriving DecidableEq, Repr

def Error.code : Error → UInt32
  | .access => 1
  | .invalid => 3
  | .noEntity => 5
  | .version => 17
  | .notSupported => 19

def sampleU8 : UInt8 := 0
def sampleAlaw : UInt8 := 1
def sampleUlaw : UInt8 := 2
def sampleS16le : UInt8 := 3
def sampleS16be : UInt8 := 4
def sampleFloat32le : UInt8 := 5
def sampleS32le : UInt8 := 7
def sampleS24le : UInt8 := 9
def sampleS24be : UInt8 := 10
def sampleS24_32be : UInt8 := 12

structure SampleSpec where
  format : UInt8 := sampleS16le
  channels : UInt8 := 2
  rate : UInt32 := 48000
  deriving DecidableEq, Repr

namespace SampleSpec

def width (ss : SampleSpec) : Nat :=
  if ss.format = sampleU8 ∨ ss.format = sampleAlaw ∨ ss.format = sampleUlaw then 1
  else if ss.format = sampleS16le ∨ ss.format = sampleS16be then 2
  else if ss.format = sampleS24le ∨ ss.format = sampleS24be then 3
  else 4

def frameSize (ss : SampleSpec) : Nat := ss.width * ss.channels.toNat

def Valid (ss : SampleSpec) : Prop :=
  ss.channels > 0 ∧ ss.channels ≤ 32 ∧ ss.rate > 0 ∧ ss.rate ≤ 384000 ∧ ss.format ≤ sampleS24_32be

instance (ss : SampleSpec) : Decidable ss.Valid := by unfold Valid; infer_instance

def bytesToUsec (ss : SampleSpec) (bytes : UInt64) : UInt64 :=
  let fs := ss.frameSize
  if fs = 0 ∨ ss.rate = 0 then 0
  else bytes / fs.toUInt64 * 1000000 / ss.rate.toUInt64

def usecToBytes (ss : SampleSpec) (usec : UInt64) : UInt64 :=
  usec * ss.rate.toUInt64 / 1000000 * ss.frameSize.toUInt64

end SampleSpec

def channelFrontLeft : UInt8 := 1
def channelFrontRight : UInt8 := 2

def frontChannels : Vector UInt8 32 :=
  ((Vector.replicate 32 0).set 0 channelFrontLeft).set 1 channelFrontRight

structure ChannelMap where
  channels : UInt8 := 2
  map : Vector UInt8 32 := frontChannels
  deriving DecidableEq, Repr

structure BufferAttr where
  (maxlength tlength prebuf minreq : UInt32 := invalidIndex)
  deriving DecidableEq, Repr

inductive Tag where
  | string | stringNull | u32 | u8 | u64 | s64 | sampleSpec | arbitrary
  | booleanTrue | booleanFalse | timeval | usec | channelMap | cvolume | proplist | volume
  deriving DecidableEq, Repr

def Tag.byte : Tag → UInt8
  | .string => 't'.toUInt8
  | .stringNull => 'N'.toUInt8
  | .u32 => 'L'.toUInt8
  | .u8 => 'B'.toUInt8
  | .u64 => 'R'.toUInt8
  | .s64 => 'r'.toUInt8
  | .sampleSpec => 'a'.toUInt8
  | .arbitrary => 'x'.toUInt8
  | .booleanTrue => '1'.toUInt8
  | .booleanFalse => '0'.toUInt8
  | .timeval => 'T'.toUInt8
  | .usec => 'U'.toUInt8
  | .channelMap => 'm'.toUInt8
  | .cvolume => 'v'.toUInt8
  | .proplist => 'P'.toUInt8
  | .volume => 'V'.toUInt8

abbrev Props := Std.ExtTreeMap (List UInt8) (List UInt8) compare

structure TagWriter where
  buf : List UInt8 := []
  deriving DecidableEq, Repr

namespace TagWriter

def raw8 (t : TagWriter) (v : UInt8) : TagWriter := ⟨t.buf ++ [v]⟩

def raw32 (t : TagWriter) (v : UInt32) : TagWriter := ⟨t.buf ++ bytes32 v⟩

def raw64 (t : TagWriter) (v : UInt64) : TagWriter :=
  (t.raw32 (v >>> 32).toUInt32).raw32 v.toUInt32

def insert (t : TagWriter) (bytes : List UInt8) : TagWriter := ⟨t.buf ++ bytes⟩

def putU8 (t : TagWriter) (v : UInt8) : TagWriter := (t.raw8 Tag.u8.byte).raw8 v

def putU32 (t : TagWriter) (v : UInt32) : TagWriter := (t.raw8 Tag.u32.byte).raw32 v

def putU64 (t : TagWriter) (v : UInt64) : TagWriter := (t.raw8 Tag.u64.byte).raw64 v

def putS64 (t : TagWriter) (v : Int64) : TagWriter := (t.raw8 Tag.s64.byte).raw64 v.toUInt64

def putUsec (t : TagWriter) (v : UInt64) : TagWriter := (t.raw8 Tag.usec.byte).raw64 v

def putBool (t : TagWriter) (v : Bool) : TagWriter :=
  t.raw8 (if v then Tag.booleanTrue else Tag.booleanFalse).byte

def putString (t : TagWriter) : Option (List UInt8) → TagWriter
  | none => t.raw8 Tag.stringNull.byte
  | some s => (t.raw8 Tag.string.byte).insert (s.takeWhile (· ≠ 0) ++ [0])

def putSampleSpec (t : TagWriter) (ss : SampleSpec) : TagWriter :=
  (((t.raw8 Tag.sampleSpec.byte).raw8 ss.format).raw8 ss.channels).raw32 ss.rate

/-- A map of more than 32 channels is an access past the array in the source; here it writes
zeros. -/
def putChannelMap (t : TagWriter) (cm : ChannelMap) : TagWriter :=
  (List.range cm.channels.toNat).foldl (fun t i => t.raw8 (cm.map.toList.getD i 0))
    ((t.raw8 Tag.channelMap.byte).raw8 cm.channels)

def putCVolume (t : TagWriter) (channels : UInt8) (value : UInt32) : TagWriter :=
  (List.range channels.toNat).foldl (fun t _ => t.raw32 value)
    ((t.raw8 Tag.cvolume.byte).raw8 channels)

def putTimeval (t : TagWriter) (sec usec : UInt32) : TagWriter :=
  ((t.raw8 Tag.timeval.byte).raw32 sec).raw32 usec

def putProp (t : TagWriter) (kv : List UInt8 × List UInt8) : TagWriter :=
  (((((t.putString (some kv.1)).putU32 (kv.2.length + 1).toUInt32).raw8
    Tag.arbitrary.byte).raw32 (kv.2.length + 1).toUInt32).insert kv.2).raw8 0

def putProplist (t : TagWriter) (props : Props) : TagWriter :=
  (props.toList.foldl putProp (t.raw8 Tag.proplist.byte)).raw8 Tag.stringNull.byte

end TagWriter

inductive Value where
  | u8 (v : UInt8)
  | u32 (v : UInt32)
  | u64 (v : UInt64)
  | s64 (v : Int64)
  | usec (v : UInt64)
  | bool (v : Bool)
  | string (s : Option (List UInt8))
  | sampleSpec (ss : SampleSpec)
  | channelMap (cm : ChannelMap)
  | cvolume (channels : UInt8) (value : UInt32)
  | timeval (sec usec : UInt32)
  | proplist (props : Props)
  deriving DecidableEq

def TagWriter.put (t : TagWriter) : Value → TagWriter
  | .u8 v => t.putU8 v
  | .u32 v => t.putU32 v
  | .u64 v => t.putU64 v
  | .s64 v => t.putS64 v
  | .usec v => t.putUsec v
  | .bool v => t.putBool v
  | .string s => t.putString s
  | .sampleSpec ss => t.putSampleSpec ss
  | .channelMap cm => t.putChannelMap cm
  | .cvolume channels value => t.putCVolume channels value
  | .timeval sec usec => t.putTimeval sec usec
  | .proplist props => t.putProplist props

abbrev TagReader := Cursor UInt8

namespace TagReader

def eof (r : TagReader) : Bool := !r.failed && r.off == r.data.length

def take8 : Get UInt8 UInt8 := Get.take

def expect (want : UInt8) : Get UInt8 Unit := do
  let tag ← take8
  if tag = want then pure () else Get.fail

def take32 : Get UInt8 UInt32 := fun r =>
  if h : r.failed = false ∧ r.off + 4 ≤ r.data.length then
    (some (be32 r.data[r.off] r.data[r.off + 1] r.data[r.off + 2] r.data[r.off + 3]),
      { r with off := r.off + 4 })
  else Get.fail r

def take64 : Get UInt8 UInt64 := do
  let hi ← take32
  let lo ← take32
  pure (join64 hi lo)

def getU8 : Get UInt8 UInt8 := do expect Tag.u8.byte; take8

def getU32 : Get UInt8 UInt32 := do expect Tag.u32.byte; take32

def getU64 : Get UInt8 UInt64 := do expect Tag.u64.byte; take64

def getS64 : Get UInt8 Int64 := do
  expect Tag.s64.byte
  let v ← take64
  pure v.toInt64

def getUsec : Get UInt8 UInt64 := do expect Tag.usec.byte; take64

def getBool : Get UInt8 Bool := do
  let tag ← take8
  if tag = Tag.booleanTrue.byte then pure true
  else if tag = Tag.booleanFalse.byte then pure false
  else Get.fail

def skipToNul (data : List UInt8) : Nat → Nat → Nat
  | 0, off => off
  | fuel + 1, off =>
    if h : off < data.length then
      if data[off] ≠ 0 then skipToNul data fuel (off + 1) else off
    else off

def takeCString : Get UInt8 (List UInt8) := fun r =>
  let stop := skipToNul r.data (r.data.length - r.off) r.off
  if stop ≥ r.data.length then Get.fail { r with off := stop }
  else (some ((r.data.drop r.off).take (stop - r.off)), { r with off := stop + 1 })

def getString : Get UInt8 (List UInt8 × Bool) := do
  let tag ← take8
  if tag = Tag.stringNull.byte then pure ([], true)
  else if tag ≠ Tag.string.byte then Get.fail
  else do
    let out ← takeCString
    pure (out, false)

def getSampleSpec : Get UInt8 SampleSpec := do
  expect Tag.sampleSpec.byte
  let format ← take8
  let channels ← take8
  let rate ← take32
  pure { format, channels, rate }

def takeMap : Nat → Nat → Vector UInt8 32 → Get UInt8 (Vector UInt8 32)
  | 0, _, map => pure map
  | n + 1, i, map => do
    let v ← take8
    takeMap n (i + 1) (map.setIfInBounds i v)

def getChannelMap (cm : ChannelMap) : Get UInt8 ChannelMap := do
  expect Tag.channelMap.byte
  let channels ← take8
  if channels.toNat > 32 then Get.fail
  else do
    let map ← takeMap channels.toNat 0 cm.map
    pure { channels, map }

def takeVolumes : Nat → Option UInt32 → Get UInt8 (Option UInt32)
  | 0, first => pure first
  | n + 1, first => do
    let v ← take32
    takeVolumes n (first <|> some v)

def getCVolume : Get UInt8 (UInt8 × UInt32) := do
  expect Tag.cvolume.byte
  let channels ← take8
  let first ← takeVolumes channels.toNat none
  pure (channels, first.getD volumeNorm)

def getTimeval : Get UInt8 (UInt32 × UInt32) := do
  expect Tag.timeval.byte
  let sec ← take32
  let usec ← take32
  pure (sec, usec)

def takeBytes (len : Nat) : Get UInt8 (List UInt8) := fun r =>
  if len > r.data.length - r.off then Get.fail r
  else (some ((r.data.drop r.off).take len), { r with off := r.off + len })

def getArbitrary : Get UInt8 (List UInt8) := do
  expect Tag.arbitrary.byte
  let len ← take32
  takeBytes len.toNat

def dropNul (value : List UInt8) : List UInt8 :=
  if value.getLast? = some 0 then value.dropLast else value

def atNull (r : TagReader) : Option Bool := r.data[r.off]?.map (· = Tag.stringNull.byte)

/-- The loop of `GetProplist`.  Every round moves on by at least a byte, so the unread bytes are
fuel enough. -/
def getProps : Nat → Props → Get UInt8 Props
  | 0, _ => Get.fail
  | fuel + 1, props => fun r =>
    match atNull r with
    | none => Get.fail r
    | some true => (some props, { r with off := r.off + 1 })
    | some false => (do
        let key ← getString
        let _declared ← getU32
        let value ← getArbitrary
        getProps fuel (props.insert key.1 (dropNul value)) : Get UInt8 Props) r

def getProplist (props : Props) : Get UInt8 Props := do
  expect Tag.proplist.byte
  fun r => getProps (r.data.length - r.off + 1) props r

end TagReader

end OniroSoc.Audio

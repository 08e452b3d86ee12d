import OniroSoc.Support.Handles
import OniroSoc.Support.Pool
import OniroSoc.Camera.Operator

/-!
# A camera and its Android objects

Every call of `HybrisCameraDevice` and `HybrisStreamOperator` on an object of the Android camera
library. An instruction is what one of the three mutexes guards, or one call of the library.
-/

namespace OniroSoc.Camera
open Support List

inductive Kind where
  | device | session | request | container | output | target | reader
deriving DecidableEq

abbrev Object := Handle Kind

namespace Device

structure LensReader where
  lens : Int
  reader : Object
  window : Bool

structure Stream where
  id : Int
  reader : Object
  sizes : List Int := []
  lensReaders : List LensReader := []
  (output target : Option Object := none)
  captureId : Int := -1
  streaming : Bool := false

def Stream.live (stream : Stream) : Bool := stream.streaming && 0 ≤ stream.captureId

structure Guarded where
  (session repeatingRequest outputs : Option Object := none)
  streams : List Stream := []
  committed : Bool := false

namespace Guarded

def anyStreamingLocked (g : Guarded) : Bool := g.streams.any Stream.live

def targets (g : Guarded) : List Object :=
  (g.streams.filter Stream.live).filterMap Stream.target

def targetsOf (g : Guarded) (streamIds : List Int) : Option (List Object) :=
  streamIds.mapM fun id => (g.streams.find? fun stream => stream.id = id).bind Stream.target

def mark (g : Guarded) (captureId : Int) (streamIds : List Int) (streaming : Bool) : Guarded :=
  { g with streams := g.streams.map fun stream =>
      if stream.id ∈ streamIds then { stream with captureId, streaming } else stream }

def unmark (g : Guarded) (captureId : Int) : Guarded :=
  { g with streams := g.streams.map fun stream =>
      if stream.captureId = captureId then { stream with captureId := -1, streaming := false } else stream }

def swapped (g : Guarded) : Guarded :=
  { g with session := none, repeatingRequest := none, outputs := none, committed := false }

end Guarded

structure StreamInfo where
  streamId : Int
  producer : Bool := true
  sizes : List Int := []

structure Build where
  g : Guarded
  lens : Int
  again : Bool
  done : List Stream := []

def Build.guarded (b : Build) (left : List Stream) : Guarded :=
  { b.g with streams := b.done ++ left }

inductive Instr where
  -- `CreateStreams`
  | createStreams (infos : List StreamInfo)
  | createNext (g : Guarded) (infos : List StreamInfo)
  | getWindow (g : Guarded) (reader : Object) (info : StreamInfo) (infos : List StreamInfo)
  -- `CommitStreams`
  | commitStreams
  | commitSwap
  | commitLens (want : Int)
  -- `UpdateSettings` and `SettingsChanged`
  | updateSettings
  | settingsChanged
  | settingsSwap
  -- `SwitchLens`, and what its callers do after it
  | switchLens (lens : Int) (again : Bool)
  | openCamera (lens previous : Int) (again : Bool)
  | reopen (lens : Int) (again : Bool)
  | publish (device : Option Object) (lens : Int) (again : Bool)
  | rebuild (again : Bool)
  -- `BuildSessionLocked`
  | createContainer (g : Guarded) (again : Bool)
  | buildStream (b : Build) (left : List Stream)
  | createOutput (b : Build) (stream : Stream) (left : List Stream)
  | createTarget (b : Build) (stream : Stream) (left : List Stream)
  | sessionDevice (g : Guarded) (again : Bool)
  | createSession (g : Guarded) (device : Option Object) (again : Bool)
  -- `RepeatLocked`; `switch` is whether the thread holds `switchLock_`
  | repeatLocked (g : Guarded) (switch : Bool)
  | createRepeating (g : Guarded) (device : Option Object) (switch : Bool)
  | setRepeating (g : Guarded) (request : Object) (switch : Bool)
  -- `Capture`
  | capture (captureId : Int) (streamIds : List Int) (isStreaming : Bool)
  | submitCapture (captureId : Int) (streamIds : List Int) (isStreaming : Bool)
  | createStill (g : Guarded) (device : Option Object) (captureId : Int) (streamIds : List Int)
      (targets : List Object)
  | shoot (g : Guarded) (request : Object)
  -- `CancelCapture`, `ReleaseStreams`, `Close` and `Shutdown`
  | cancelCapture (captureId : Int)
  | releaseStreams (streamIds : List Int)
  | close
  | shutdown (device : Option Object)
  -- single calls, with no lock held
  | stopRepeating (session : Object)
  | stopAndClose (session : Object)
  | unlisten (reader : Object)
  | free (o : Object)
  | unlockSwitch

end Device

structure Device where
  ndk : Handles Kind := {}
  device : Option Object := none
  lens : Int := 0
  lenses : Nat := 1
  (manager streamOperator : Bool := true)
  op : Option Device.Guarded := some {}
  switchLock : Bool := false
  shut : Bool := false

namespace Device

structure Env where
  (ok window : Bool := true)
  want : Int := 0

def closeSession (session repeating outputs : Option Object) : List Instr :=
  session.toList.map .stopAndClose ++ repeating.toList.map .free ++ outputs.toList.map .free

def destroyStream (stream : Stream) : List Instr :=
  stream.target.toList.map .free ++ stream.output.toList.map .free ++ [.unlisten stream.reader] ++
    stream.lensReaders.map fun entry => .unlisten entry.reader

def takeStreams (streams : List Stream) : List Int → List Stream × List Stream
  | [] => ([], streams)
  | id :: ids =>
    let (doomed, kept) := takeStreams (streams.filter fun stream => ¬ stream.id = id) ids
    ((streams.filter fun stream => stream.id = id) ++ doomed, kept)

def leave (s : Device) (g : Guarded) (switch : Bool) : Device × List Instr :=
  ({ s with op := some g }, if switch then [.unlockSwitch] else [])

def dropOutput (s : Device) (stream : Stream) : Device × Stream :=
  ({ s with ndk := s.ndk.closeAll (stream.output.toList ++ stream.target.toList) },
    { stream with output := none, target := none })

def windowForLens (s : Device) (env : Env) (stream : Stream)
    (lens : Int) : Handles Kind × Stream × Bool :=
  if lens ≤ 0 ∨ (s.lenses : Int) ≤ lens then (s.ndk, stream, true)
  else if lens ∈ stream.sizes then (s.ndk, stream, true)
  else
    match stream.lensReaders.find? fun entry => entry.lens = lens with
    | some entry => (s.ndk, stream, entry.window)
    | none =>
      if !env.ok then (s.ndk, stream, false)
      else
        let (ndk, reader) := s.ndk.create .reader
        (ndk.use (some reader),
          { stream with lensReaders := stream.lensReaders ++ [⟨lens, reader, env.window⟩] }, env.window)

def exec (s : Device) (env : Env) : Instr → Option (Device × List Instr)
  | .createStreams infos => s.op.map fun g => ({ s with op := none }, [.createNext g infos])
  | .createNext g [] => some (s.leave g false)
  | .createNext g (info :: infos) =>
    if g.streams.any fun stream => stream.id = info.streamId then some (s, [.createNext g infos])
    else if !info.producer || !env.ok then some (s.leave g false)
    else
      let (ndk, reader) := s.ndk.create .reader
      some ({ s with ndk }, [.getWindow g reader info infos])
  | .getWindow g reader info infos =>
    let s₁ := { s with ndk := s.ndk.use (some reader) }
    if !env.ok then some (s₁.leave g false)
    else
      let stream := { id := info.streamId, reader, sizes := info.sizes }
      some (s₁, [.createNext { g with streams := g.streams ++ [stream] } infos])
  | .commitStreams =>
    if s.switchLock then none else some ({ s with switchLock := true }, [.commitSwap])
  | .commitSwap => s.op.map fun g =>
    ({ s with op := some g.swapped },
      closeSession g.session g.repeatingRequest g.outputs ++ [.commitLens env.want])
  | .commitLens want =>
    some (s, if want ≠ s.lens then [.switchLens want false] else [.rebuild false])
  | .updateSettings => some (s, if s.streamOperator then [.settingsChanged] else [])
  | .settingsChanged =>
    if s.switchLock then none else some ({ s with switchLock := true }, [.settingsSwap])
  | .settingsSwap => s.op.map fun g =>
    if !g.committed || g.session.isNone then s.leave g true
    else if env.want = s.lens then
      if g.anyStreamingLocked then ({ s with op := none }, [.repeatLocked g true]) else s.leave g true
    else
      ({ s with op := some g.swapped },
        closeSession g.session g.repeatingRequest g.outputs ++ [.switchLens env.want true])
  | .switchLens lens again =>
    if lens < 0 ∨ (s.lenses : Int) ≤ lens then some (s, [.rebuild again])
    else if lens = s.lens ∧ s.device.isSome then some (s, [.rebuild again])
    else
      some ({ s with device := none }, s.device.toList.map .free ++
        if s.manager then [.openCamera lens s.lens again] else [.rebuild again])
  | .openCamera lens previous again =>
    if env.ok then
      let (ndk, device) := s.ndk.create .device
      some ({ s with ndk }, [.publish (some device) lens again])
    else some (s, [.reopen previous again])
  | .reopen lens again =>
    if env.ok then
      let (ndk, device) := s.ndk.create .device
      some ({ s with ndk }, [.publish (some device) lens again])
    else some (s, [.publish none lens again])
  | .publish device lens again => some ({ s with device, lens }, [.rebuild again])
  | .rebuild again => s.op.map fun g =>
    -- Only `CommitStreams` asks whether there are streams.
    if s.device.isNone || (!again && g.streams.isEmpty) then s.leave g true
    else ({ s with op := none }, [.createContainer g again])
  | .createContainer g again =>
    if env.ok then
      let (ndk, container) := s.ndk.create .container
      some ({ s with ndk },
        [.buildStream ⟨{ g with outputs := some container }, s.lens, again, []⟩ g.streams])
    else some (s.leave g true)
  | .buildStream b [] => some (s, [.sessionDevice (b.guarded []) b.again])
  | .buildStream b (stream :: left) =>
    let (s₁, stream) := s.dropOutput stream
    let (ndk, stream, window) := s₁.windowForLens env stream b.lens
    if window then some ({ s₁ with ndk }, [.createOutput b stream left])
    else some ({ s₁ with ndk }.leave (b.guarded (stream :: left)) true)
  | .createOutput b stream left =>
    if env.ok then
      let (ndk, output) := s.ndk.create .output
      -- `ACaptureSessionOutputContainer_add`
      some ({ s with ndk := (ndk.use b.g.outputs).use (some output) },
        [.createTarget b { stream with output := some output } left])
    else some (s.leave (b.guarded (stream :: left)) true)
  | .createTarget b stream left =>
    if env.ok then
      let (ndk, target) := s.ndk.create .target
      some ({ s with ndk },
        [.buildStream { b with done := b.done ++ [{ stream with target := some target }] } left])
    else some (s, [.buildStream { b with done := b.done ++ [stream] } left])
  | .sessionDevice g again => some (s, [.createSession g s.device again])
  | .createSession g device again =>
    let s₁ := { s with ndk := (s.ndk.use device).use g.outputs }
    if env.ok && device.isSome then
      let (ndk, session) := s₁.ndk.create .session
      let g₁ := { g with session := some session, committed := true }
      some (if again && g₁.anyStreamingLocked then ({ s₁ with ndk }, [.repeatLocked g₁ true])
        else { s₁ with ndk }.leave g₁ true)
    else some (s₁.leave { g with session := none } true)
  | .repeatLocked g switch =>
    if g.targets = [] then some (s.leave g switch)
    else some (s, [.createRepeating g s.device switch])
  | .createRepeating g device switch =>
    let s₁ := { s with ndk := s.ndk.use device }
    if env.ok && device.isSome then
      let (ndk, request) := s₁.ndk.create .request
      -- `ACaptureRequest_addTarget`
      some ({ s₁ with ndk := ndk.useAll (request :: g.targets) }, [.setRepeating g request switch])
    else some (s₁.leave g switch)
  | .setRepeating g request switch =>
    let ndk := (s.ndk.use g.session).use (some request)
    if env.ok && g.session.isSome then
      some ({ s with ndk := ndk.closeAll g.repeatingRequest.toList }.leave
        { g with repeatingRequest := some request } switch)
    else some ({ s with ndk := ndk.close request }.leave g switch)
  | .capture captureId streamIds isStreaming =>
    if s.switchLock then none
    else some ({ s with switchLock := true }, [.submitCapture captureId streamIds isStreaming])
  | .submitCapture captureId streamIds isStreaming => s.op.map fun g =>
    if !g.committed || g.session.isNone then s.leave g true
    else match g.targetsOf streamIds with
      | none => s.leave g true
      | some targets =>
        if isStreaming then ({ s with op := none }, [.repeatLocked (g.mark captureId streamIds true) true])
        else ({ s with op := none }, [.createStill g s.device captureId streamIds targets])
  | .createStill g device captureId streamIds targets =>
    let s₁ := { s with ndk := s.ndk.use device }
    if env.ok && device.isSome then
      let (ndk, request) := s₁.ndk.create .request
      some ({ s₁ with ndk := ndk.useAll (request :: targets) },
        [.shoot (g.mark captureId streamIds false) request])
    else some (s₁.leave g true)
  | .shoot g request =>
    some ({ s with ndk := ((s.ndk.use g.session).use (some request)).close request }.leave g true)
  | .cancelCapture captureId => s.op.map fun g =>
    let wasStreaming := g.streams.any fun stream => stream.captureId = captureId && stream.streaming
    let g₁ := g.unmark captureId
    if !wasStreaming then s.leave g₁ false
    else if g₁.anyStreamingLocked then ({ s with op := none }, [.repeatLocked g₁ false])
    else
      ({ s with op := some { g₁ with repeatingRequest := none } },
        g.session.toList.map .stopRepeating ++ g.repeatingRequest.toList.map .free)
  | .releaseStreams streamIds => s.op.map fun g =>
    let (doomed, kept) := takeStreams g.streams streamIds
    ({ s with op := some { g with streams := kept } }, doomed.flatMap destroyStream)
  | .close =>
    if s.streamOperator then some ({ s with streamOperator := false, device := none },
      [.shutdown s.device])
    else some ({ s with device := none }, s.device.toList.map .free)
  | .shutdown device => s.op.map fun g =>
    ({ s with op := some {}, shut := true },
      closeSession g.session g.repeatingRequest g.outputs ++ g.streams.flatMap destroyStream ++
        device.toList.map .free)
  | .stopRepeating session => some ({ s with ndk := s.ndk.use (some session) }, [])
  | .stopAndClose session => some ({ s with ndk := s.ndk.use (some session) }, [.free session])
  | .unlisten reader => some ({ s with ndk := s.ndk.use (some reader) }, [.free reader])
  | .free o => some ({ s with ndk := s.ndk.close o }, [])
  | .unlockSwitch => some ({ s with switchLock := false }, [])

inductive Call where
  | createStreams (infos : List StreamInfo)
  | commitStreams
  | updateSettings
  | capture (captureId : Int) (streamIds : List Int) (isStreaming : Bool)
  | cancelCapture (captureId : Int)
  | releaseStreams (streamIds : List Int)
  | close

def Call.instr : Call → Instr
  | .createStreams infos => .createStreams infos
  | .commitStreams => .commitStreams
  | .updateSettings => .updateSettings
  | .capture captureId streamIds isStreaming => .capture captureId streamIds isStreaming
  | .cancelCapture captureId => .cancelCapture captureId
  | .releaseStreams streamIds => .releaseStreams streamIds
  | .close => .close

def machine : Machine Device Instr Call Env where
  start s call := some (s, [call.instr])
  exec := exec

def opened (lenses : Nat) : Device where
  ndk := (({} : Handles Kind).create .device).1
  device := some (({} : Handles Kind).create .device).2
  lenses := lenses

/-!
### The operator of the captures

`Operator` is the same state with booleans for the objects, and with what the frames of a stream
need.
-/

/-- The two models of what `lock_` guards are about the same streams. -/
structure Guarded.Shows (g : Guarded) (op : Operator) : Prop where
  ids : op.ids = g.streams.map Stream.id
  committed : op.committed = g.committed
  session : op.session.isSome = g.session.isSome
  stream : ∀ x ∈ g.streams, (op.stream x.id).captureId = x.captureId ∧
    (op.stream x.id).streaming = x.streaming ∧ (op.stream x.id).target = x.target.isSome

namespace Guarded.Shows
variable {g : Guarded} {op : Operator} (h : g.Shows op)
include h

theorem mark (captureId : Int) (info : CaptureInfo) (streaming : Bool) :
    (g.mark captureId info.streamIds streaming).Shows (op.mark captureId info streaming) := by
  obtain ⟨hids, hcommitted, hsession, hstream⟩ := h
  have hid : ∀ x : Stream,
      (if x.id ∈ info.streamIds then { x with captureId, streaming } else x).id = x.id := by
    intro x
    split_ifs <;> rfl
  refine ⟨?_, hcommitted, hsession, ?_⟩
  · simpa [Guarded.mark, Function.comp_def, hid] using hids
  · intro x hx
    obtain ⟨y, hy, rfl⟩ := mem_map.mp hx
    have := hstream y hy
    rw [hid]
    by_cases hin : y.id ∈ info.streamIds <;> simp [Operator.mark, hin, this]

theorem unmark (captureId : Int) :
    (g.unmark captureId).Shows (op.unmark (op.carrying captureId)) := by
  obtain ⟨hids, hcommitted, hsession, hstream⟩ := h
  have hid : ∀ x : Stream, (if x.captureId = captureId then
      { x with captureId := -1, streaming := false } else x).id = x.id := by
    intro x
    split_ifs <;> rfl
  refine ⟨?_, hcommitted, hsession, ?_⟩
  · simpa [Guarded.unmark, Function.comp_def, hid] using hids
  · intro x hx
    obtain ⟨y, hy, rfl⟩ := mem_map.mp hx
    have hfields := hstream y hy
    have hin : y.id ∈ op.carrying captureId ↔ y.captureId = captureId := by
      rw [op.mem_carrying, hids, hfields.1]
      exact and_iff_right (mem_map_of_mem hy)
    rw [hid]
    by_cases hcarries : y.captureId = captureId <;> simp [Operator.unmark, hin, hcarries, hfields]

theorem anyStreamingLocked : g.anyStreamingLocked = op.anyStreamingLocked := by
  rw [Bool.eq_iff_iff, Guarded.anyStreamingLocked, Operator.anyStreamingLocked, h.ids, any_map]
  simp only [any_eq_true, Function.comp_apply]
  refine exists_congr fun x => and_congr_right fun hx => ?_
  rw [Stream.live, Camera.Stream.live, (h.stream x hx).1, (h.stream x hx).2.1]

theorem targets_eq_nil : g.targets = [] ↔ op.targets = [] := by
  rw [Guarded.targets, Operator.targets, h.ids, filterMap_eq_nil_iff, filter_eq_nil_iff]
  simp only [mem_filter, forall_mem_map, and_imp]
  refine forall₂_congr fun x hx => ?_
  rw [Stream.live, Camera.Stream.live, (h.stream x hx).1, (h.stream x hx).2.1, (h.stream x hx).2.2]
  cases x.target <;> simp

theorem target_isSome (id : Int) :
    ((g.streams.find? fun x => x.id = id).bind Stream.target).isSome = true ↔
      id ∈ op.ids ∧ (op.stream id).target = true := by
  rw [h.ids]
  cases hfind : g.streams.find? fun x => x.id = id with
  | none =>
    have hno : id ∉ g.streams.map Stream.id := by simpa using hfind
    simp [hno]
  | some x =>
    have hid : x.id = id := by simpa using find?_some hfind
    have hmem := mem_of_find?_eq_some hfind
    have htarget := (h.stream x hmem).2.2
    subst hid
    simp [htarget, mem_map_of_mem hmem]

theorem ready (info : CaptureInfo) : op.Ready info ↔
    g.committed = true ∧ g.session.isSome = true ∧ (g.targetsOf info.streamIds).isSome = true := by
  rw [Operator.Ready, h.committed, h.session]
  refine and_congr_right fun _ => and_congr_right fun _ => ?_
  rw [Guarded.targetsOf]
  induction info.streamIds with
  | nil => simp
  | cons id ids ih =>
    rw [forall_mem_cons, ← h.target_isSome, ih, mapM_cons]
    cases (g.streams.find? fun x => x.id = id).bind Stream.target with
    | none => simp
    | some target =>
      cases ids.mapM fun id => (g.streams.find? fun x => x.id = id).bind Stream.target <;> simp

theorem any_streaming (captureId : Int) :
    (g.streams.any fun x => x.captureId = captureId && x.streaming) =
      (op.carrying captureId).any fun id => (op.stream id).streaming := by
  rw [Bool.eq_iff_iff, Operator.carrying, h.ids, any_filter, any_map]
  simp only [any_eq_true, Function.comp_apply]
  refine exists_congr fun x => and_congr_right fun hx => ?_
  rw [(h.stream x hx).1, (h.stream x hx).2.1]

variable {s : Device} {env : Env} (hs : s.op = some g)
include hs

/-- **The two models agree.**  The device submits a capture exactly if the operator does, and leaves
on its streams what the operator leaves. -/
theorem exec_submitCapture (captureId : Int) (info : CaptureInfo) (isStreaming : Bool) :
    (¬ op.Ready info → exec s env (.submitCapture captureId info.streamIds isStreaming) =
      some (s.leave g true)) ∧
    (op.Ready info → ∃ targets, exec s env (.submitCapture captureId info.streamIds isStreaming) =
      some ({ s with op := none }, [if isStreaming
        then .repeatLocked (g.mark captureId info.streamIds true) true
        else .createStill g s.device captureId info.streamIds targets]) ∧
      (g.mark captureId info.streamIds isStreaming).Shows (op.mark captureId info isStreaming)) := by
  rw [h.ready]
  simp only [exec, hs, Option.map_some]
  refine ⟨fun hnot => ?_, ?_⟩
  · cases hcommitted : g.committed <;> cases hsession : g.session <;>
      cases htargets : g.targetsOf info.streamIds <;> simp_all
  · rintro ⟨hcommitted, hsession, htargets⟩
    obtain ⟨targets, htargets⟩ := Option.isSome_iff_exists.mp htargets
    obtain ⟨session, hsession⟩ := Option.isSome_iff_exists.mp hsession
    refine ⟨targets, ?_, h.mark captureId info isStreaming⟩
    cases isStreaming <;> simp [hcommitted, hsession, htargets]

/-- A cancellation goes on as the operator does. -/
theorem exec_cancelCapture (captureId : Int) :
    (g.unmark captureId).Shows (op.unmark (op.carrying captureId)) ∧
    exec s env (.cancelCapture captureId) = some (
      if (op.carrying captureId).any fun id => (op.stream id).streaming then
        if (op.unmark (op.carrying captureId)).anyStreamingLocked then
          ({ s with op := none }, [.repeatLocked (g.unmark captureId) false])
        else
          ({ s with op := some { g.unmark captureId with repeatingRequest := none } },
            g.session.toList.map .stopRepeating ++ g.repeatingRequest.toList.map .free)
      else s.leave (g.unmark captureId) false) := by
  refine ⟨h.unmark captureId, ?_⟩
  simp only [exec, hs, Option.map_some, h.any_streaming, (h.unmark captureId).anyStreamingLocked]
  cases (op.carrying captureId).any fun id => (op.stream id).streaming <;> rfl

omit hs in
/-- So does a repeating request. -/
theorem exec_repeatLocked (switch : Bool) :
    exec s env (.repeatLocked g switch) =
      some
        (if op.targets = [] then s.leave g switch else
           (s, [.createRepeating g s.device switch])) := by
  simp only [exec, h.targets_eq_nil]
  split_ifs <;> rfl

end Guarded.Shows

end Device

end OniroSoc.Camera

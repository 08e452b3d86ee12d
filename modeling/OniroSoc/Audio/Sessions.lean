import OniroSoc.Audio.Framing
import OniroSoc.Audio.Credit

/-!
# Audio — the streams of a session are live streams

The loop of `Server.lean` runs a handler through without a break; `StreamRuns.lean` lets the render
thread in between.  What the loop does to a stream is one of those runs (`Live.run_program`), so
every stream of every session is one that the results about live streams speak of.  Only an
authorised client has streams, each under its own channel.
-/

namespace OniroSoc.Audio
open Support Option

theorem Live.run_program (s : Live) (segs : List Segment) :
    run Live.step { s with todo := segs } (List.replicate segs.length .proceed) =
      some {
        stream := (s.stream.execAll segs).1
        todo := []
        sent := s.sent ++ (s.stream.execAll segs).2
        done := s.done ++ segs } := by
  induction segs generalizing s with
  | nil => simp [Stream.execAll]
  | cons seg segs ih =>
    have hstep : Live.step { s with todo := seg :: segs } .proceed =
        some { s.proceed seg segs with todo := segs } := rfl
    rw [List.length_cons, List.replicate_succ, run_cons, hstep, bind_some, ih]
    simp [Live.proceed, Stream.execAll]

theorem Stream.execAll_channel (st : Stream) (segs : List Segment) :
    (st.execAll segs).1.channel = st.channel := by
  induction segs generalizing st with
  | nil => rfl
  | cons seg segs ih => exact (ih _).trans (st.exec_frame seg).1

def Stream.Reached (st : Stream) : Prop :=
  ∃ s₀ as s, Live.Created s₀ ∧ run Live.step s₀ as = some s ∧ s.todo = [] ∧ s.stream = st

namespace Stream.Reached

variable {st : Stream}

theorem opened {ss : SampleSpec} {valid : ss.Valid} {cm : ChannelMap} {asked : BufferAttr}
    {corked : Bool} {channel index : UInt32} {created : Bool} {now : UInt64}
    (h : openStream ss valid cm asked corked channel index created now = some st) : st.Reached := by
  refine ⟨{ stream := st }, [], { stream := st }, ?_, rfl, rfl, rfl⟩
  exact ⟨ss, valid, cm, asked, corked, channel, index, created, now, h, rfl, rfl, rfl⟩

theorem handled (h : st.Reached) {hd : Handler} (ha : hd.Admitted) :
    (st.execAll hd.program).1.Reached := by
  obtain ⟨s₀, as, s, h₀, hrun, htodo, rfl⟩ := h
  have hbegin : Live.step s (.begin hd) = some { s with todo := hd.program } := by
    simp [Live.step, htodo, ha]
  have hall : run Live.step s₀ (as ++ .begin hd :: List.replicate hd.program.length .proceed) =
      run Live.step { s with todo := hd.program } (List.replicate hd.program.length .proceed) := by
    rw [run_append, hrun, bind_some, run_cons, hbegin, bind_some]
  exact ⟨s₀, _, _, h₀, hall.trans (Live.run_program s hd.program), rfl, rfl⟩

theorem rendered (h : st.Reached) {r : RenderStep} {sink : OhosSink}
    (hr : st.sink.renderStep r = some sink) : { st with sink }.Reached := by
  obtain ⟨s₀, as, s, h₀, hrun, htodo, rfl⟩ := h
  refine ⟨s₀, as ++ [.render r], s.withSink sink, h₀, ?_, htodo, rfl⟩
  rw [run_append, hrun, bind_some, run_cons, Live.step, hr]
  rfl

end Stream.Reached

namespace Session

def Backs (s : Session) (channel : UInt32) (st : Stream) : Prop :=
  s.conn.authorized = true ∧ st.channel = channel ∧ st.Reached

def Reached (s : Session) : Prop :=
  ∀ channel st, s.conn.streams[channel]? = some st → s.Backs channel st

variable {s s' : Session} {channel : UInt32} {st : Stream}

theorem Reached.of_streams (h : s.Reached)
    (ha : s.conn.authorized = true → s'.conn.authorized = true)
    (hs : s'.conn.streams = s.conn.streams) : s'.Reached := by
  intro channel st hst
  exact (h channel st (hs ▸ hst)).imp_left ha

theorem Reached.insert (h : s.Reached) (hst : s.Backs channel st)
    (ha : s'.conn.authorized = s.conn.authorized)
    (hs : s'.conn.streams = s.conn.streams.insert channel st) : s'.Reached := by
  intro channel' st' hst'
  rw [hs, Std.ExtTreeMap.getElem?_insert] at hst'
  split at hst'
  · next heq =>
      cases hst'
      cases Std.compare_eq_iff_eq.mp heq
      exact hst.imp_left ha.trans
  · exact (h channel' st' hst').imp_left ha.trans

theorem Reached.erase (h : s.Reached) (ha : s'.conn.authorized = s.conn.authorized)
    (hs : s'.conn.streams = s.conn.streams.erase channel) : s'.Reached := by
  intro channel' st' hst'
  rw [hs, Std.ExtTreeMap.getElem?_erase] at hst'
  split at hst'
  · cases hst'
  · exact (h channel' st' hst').imp_left ha.trans

theorem streams_sendAll (s : Session) (ms : List Message) :
    (s.sendAll ms).conn.streams = s.conn.streams := by
  induction ms generalizing s with
  | nil => rfl
  | cons m ms ih => exact ih (s.send m)

theorem authorized_exec (s : Session) (channel : UInt32) (st : Stream) (program : List Segment) :
    (s.exec channel st program).conn.authorized = s.conn.authorized :=
  congrArg Prod.fst (same_exec s channel st program).1

namespace Reached
variable (h : s.Reached)
include h

theorem exec (hst : s.Backs channel st) (hd : Handler) (ha : hd.Admitted) :
    (s.exec channel st hd.program).Reached := by
  obtain ⟨hauth, hchannel, hreached⟩ := hst
  refine h.insert ⟨hauth, ?_, hreached.handled ha⟩ (authorized_exec ..) (streams_sendAll _ _)
  exact (st.execAll_channel _).trans hchannel

theorem withStream (tag channel : UInt32) {k : Stream → Session}
    (hk : ∀ st, s.Backs channel st → (k st).Reached) : (s.withStream tag channel k).Reached := by
  unfold Session.withStream
  split
  · exact h.of_streams id rfl
  · next st hst => exact hk st (h channel st hst)

theorem createPlayback (hauth : s.conn.authorized = true) (out : Outside)
    (tag : UInt32) (req : CreateRequest) : (createPlayback out s tag req).Reached := by
  unfold Session.createPlayback
  split
  · split
    · exact h.of_streams id rfl
    · next st hst => exact h.insert ⟨hauth, rfl, .opened hst⟩ rfl rfl
  · exact h.of_streams id rfl

theorem auth (tag version : UInt32) : (s.auth tag version).Reached := by
  unfold Session.auth
  dsimp only
  split
  · exact h.of_streams id rfl
  · exact h.of_streams (fun _ => rfl) rfl

theorem setClientName (tag : UInt32) : (s.setClientName tag).Reached := by
  unfold Session.setClientName
  split <;> exact h.of_streams id rfl

end Reached

theorem reached_parsed {α : Type} {g : Get UInt8 α} {r : TagReader} {k : α → Session}
    (h : parsed g r k = some s') (hk : ∀ a, (k a).Reached) : s'.Reached := by
  obtain ⟨a, -, rfl⟩ := map_eq_some_iff.mp h
  exact hk a

section
variable (h : s.Reached)
include h

theorem Reached.handleCommand {out : Outside} {command tag : UInt32}
    {r : TagReader} (hc : handleCommand out s command tag r = some s') : s'.Reached := by
  have handler : ∀ (channel : UInt32) (hd : Handler), hd.Admitted →
      (s.withStream tag channel fun st => s.exec channel st hd.program).Reached :=
    fun channel hd ha => h.withStream tag channel fun _ hst => h.exec hst hd ha
  have answer : ∀ m : Message, (s.send m).Reached := fun m => h.of_streams id rfl
  unfold Session.handleCommand at hc
  split at hc
  · cases hc
    exact answer _
  · next hopen =>
    split at hc
    · exact reached_parsed hc fun version => h.auth tag version
    · exact reached_parsed hc fun _ => h.setClientName tag
    · next hcode =>
        have hauth : s.conn.authorized = true := by
          by_contra hn
          have hcommand : command = Command.auth.code :=
            by_contra fun hne => hopen ⟨Bool.eq_false_of_not_eq_true hn, hne⟩
          rw [hcommand] at hcode
          exact absurd hcode (by decide)
        exact reached_parsed hc fun req => h.createPlayback hauth out tag req
    · exact reached_parsed hc fun channel => h.withStream tag channel fun _ _ => h.erase rfl rfl
    · exact reached_parsed hc fun p => handler p.1 (.cork tag p.2) trivial
    · exact reached_parsed hc fun channel => handler channel (.flush tag) trivial
    · exact reached_parsed hc fun channel => h.withStream tag channel fun _ _ => answer _
    · exact reached_parsed hc fun channel => h.withStream tag channel fun _ _ => answer _
    · exact reached_parsed hc fun channel => handler channel (.drain tag) trivial
    · exact reached_parsed hc fun p =>
        handler p.1 (.latency tag p.2.1 p.2.2 s.conn.version out) trivial
    · exact reached_parsed hc fun _ => answer _
    · exact reached_parsed hc fun channel => h.withStream tag channel fun _ _ => answer _
    all_goals
      cases hc
      exact answer _

theorem Reached.handlePacket {out : Outside} {p : Packet}
    (hlen : p.payload.length ≤ absoluteMaxBuffer) (hp : s.handlePacket out p = some s') :
    s'.Reached := by
  unfold Session.handlePacket at hp
  split at hp
  · cases hp
    unfold handleStreamData
    split
    · exact h
    · next st hst => exact h.exec (h _ st hst) (.data p.payload) hlen
  · split at hp
    · cases hp
    · split at hp
      · cases hp
      · exact h.handleCommand hp

theorem Reached.pumpSinks : s.pumpSinks.Reached := by
  let Good (s' : Session) : Prop := s'.Reached ∧ s'.conn.authorized = s.conn.authorized
  refine (List.foldlRecOn (motive := Good) _ _ ⟨h, rfl⟩ ?_).1
  rintro s' ⟨hs', ha⟩ e he
  have hst := h e.1 e.2 (Std.ExtTreeMap.mem_toList_iff_getElem?_eq_some.mp he)
  exact ⟨hs'.exec (hst.imp_left ha.trans) (.pump _) trivial, (authorized_exec ..).trans ha⟩

theorem drainPackets_reached {out : Nat → Outside} {fuel off off' : Nat} (hd : (drainPackets out fuel s off).2 = .ok (s', off')) : s'.Reached := by
  induction fuel generalizing s off with
  | zero =>
    cases hd
    exact h
  | succ fuel ih =>
    unfold drainPackets at hd
    dsimp only at hd
    split_ifs at hd with hsize hbig hshort
    · cases hd
      exact h
    · split at hd
      · cases hd
      · next s₁ hs₁ =>
          refine ih (h.handlePacket ?_ hs₁) hd
          exact (List.length_take_le _ _).trans (Nat.le_of_not_lt hbig)
    · cases hd
      exact h

theorem Reached.readFrom {out : Nat → Outside} {answers : List ReadResult} (hr : (readFrom out answers s).2 = .ok s') : s'.Reached := by
  unfold Audio.readFrom at hr
  split at hr
  · cases hr
  · next bs _ =>
      dsimp only at hr
      generalize hd : (drainPackets _ _ _ _).2 = drained at hr
      rcases drained with e | ⟨s₁, off⟩
      · cases hr
      · cases hr
        have hin : Reached { s with conn := { s.conn with input := s.conn.input ++ bs } } :=
          h.of_streams id rfl
        exact (drainPackets_reached hin hd).of_streams id rfl

end

inductive Turned (s : Session) : Session → Prop
  | read (out : Nat → Outside) (answers : List ReadResult) {s' : Session}
      (h : (readFrom out answers s).2 = .ok s') : Turned s s'
  | pump : Turned s s.pumpSinks
  | render (channel : UInt32) {st : Stream} (r : RenderStep) {sink : OhosSink}
      (hst : s.conn.streams[channel]? = some st) (h : st.sink.renderStep r = some sink) :
      Turned s { s with conn := { s.conn with
        streams := s.conn.streams.insert channel { st with sink } } }

theorem Reached.turned (h : s.Reached) (ht : s.Turned s') : s'.Reached := by
  cases ht with
  | read out answers hr => exact h.readFrom hr
  | pump => exact h.pumpSinks
  | render channel r hst hr =>
    obtain ⟨hauth, hchannel, hreached⟩ := h channel _ hst
    refine h.insert ?_ rfl rfl
    exact ⟨hauth, hchannel, hreached.rendered hr⟩

theorem served_reached (h : s.conn.streams = ∅) (hs : Relation.ReflTransGen Turned s s') :
    s'.Reached := by
  induction hs with
  | refl =>
    intro channel st hst
    rw [h] at hst
    simp at hst
  | tail _ ht ih => exact ih.turned ht

/-- **The streams of a session.** Whatever a client sends, and whatever the render threads do
between the turns of the loop, a client has streams only once it is authorised, each under its own
channel; what is buffered and what the client may still send stay within `tlength`, and the ring
keeps its size. -/
theorem served_streams (h : s.conn.streams = ∅) (hs : Relation.ReflTransGen Turned s s')
    (hst : s'.conn.streams[channel]? = some st) : s'.conn.authorized = true ∧ st.channel = channel ∧
      (st.sink.buffered : Int) + st.outstanding ≤ st.attr.tlength.toNat ∧
        st.sink.ring.size = st.attr.maxlength.toNat := by
  obtain ⟨hauth, hchannel, s₀, as, live, h₀, hrun, -, rfl⟩ := served_reached h hs channel st hst
  have hledger := Live.run_ledger h₀ hrun
  exact ⟨hauth, hchannel, hledger.within, hledger.size⟩

/-- A `CREATE_PLAYBACK_STREAM` with buffers of 64 bytes. -/
def creating : List Value :=
  [.u32 Command.createPlaybackStream.code, .u32 7, .sampleSpec {}, .channelMap {}, .u32 0,
    .string none, .u32 64, .bool false, .u32 64, .u32 0, .u32 16, .u32 0, .cvolume 2 volumeNorm] ++
    .replicate 9 (.bool false) ++ [.proplist ∅]

def creation : Except Dropped Session :=
  (readFrom (fun _ => ⟨0, 0, true⟩)
    [.bytes (packetBytes channelCommand (creating.foldl TagWriter.put {}).buf 0)]
    { conn := { authorized := true } }).2

theorem served_streams_creation :
    ∃ s' st, creation = .ok s' ∧ s'.conn.streams[(0 : UInt32)]? = some st ∧ st.channel = 0 ∧
      (st.sink.buffered : Int) + st.outstanding ≤ st.attr.tlength.toNat := by
  have hsome : (creation.toOption.bind (·.conn.streams[(0 : UInt32)]?)).isSome = true := by
    decide +kernel
  cases hread : creation with
  | error e => simp [hread, Except.toOption] at hsome
  | ok s' =>
    rw [hread] at hsome
    obtain ⟨st, hst⟩ := isSome_iff_exists.mp hsome
    obtain ⟨-, hchannel, hwithin, -⟩ := served_streams rfl (.single (.read _ _ hread)) hst
    exact ⟨s', st, rfl, hst, hchannel, hwithin⟩

end Session

end OniroSoc.Audio

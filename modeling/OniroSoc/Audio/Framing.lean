import OniroSoc.Support.Framing
import OniroSoc.Audio.Server

/-!
# Audio — packets, however the bytes arrive

`readFrom` keeps what has arrived and is not yet a whole packet, and goes on with it when more
comes. How the kernel cuts the client's bytes into reads makes no difference.
-/

namespace OniroSoc.Audio
open Support List Option

def word : List UInt8 → Option (UInt32 × List UInt8)
  | b₀ :: b₁ :: b₂ :: b₃ :: rest => some (be32 b₀ b₁ b₂ b₃, rest)
  | _ => none

def descriptor (b : List UInt8) : Option (Nat × Packet × List UInt8) := do
  let (length, b) ← word b
  let (channel, b) ← word b
  let (offsetHi, b) ← word b
  let (offsetLo, b) ← word b
  let (flags, b) ← word b
  pure (length.toNat, { channel, flags, offset := join64 offsetHi offsetLo, payload := [] }, b)

def nextPacket (b : List UInt8) : Next Packet :=
  match descriptor b with
  | none => .more
  | some (length, p, rest) =>
    if length > absoluteMaxBuffer then .bad
    else if rest.length < length then .more
    else .packet { p with payload := rest.take length } (descriptorSize + length)

variable {b rest : List UInt8} {p : Packet}

theorem word_append {w : UInt32} (c : List UInt8) (h : word b = some (w, rest)) :
    word (b ++ c) = some (w, rest ++ c) := by
  match b, h with
  | b₀ :: b₁ :: b₂ :: b₃ :: rest, h =>
    cases h
    rfl

theorem word_length {w : UInt32} (h : word b = some (w, rest)) : b.length = rest.length + 4 := by
  match b, h with
  | b₀ :: b₁ :: b₂ :: b₃ :: rest, h =>
    cases h
    rfl

variable {length : Nat}

theorem descriptor_inv (h : descriptor b = some (length, p, rest)) :
    ∃ w₀ w₁ w₂ w₃ w₄ b₁ b₂ b₃ b₄,
      word b = some (w₀, b₁) ∧ word b₁ = some (w₁, b₂) ∧ word b₂ = some (w₂, b₃) ∧
      word b₃ = some (w₃, b₄) ∧ word b₄ = some (w₄, rest) ∧ length = w₀.toNat ∧
      p = { channel := w₁, flags := w₄, offset := join64 w₂ w₃, payload := [] } := by
  simp only [descriptor, bind_eq_bind, Option.pure_def, bind_eq_some_iff] at h
  obtain ⟨⟨w₀, b₁⟩, h₀, ⟨w₁, b₂⟩, h₁, ⟨w₂, b₃⟩, h₂, ⟨w₃, b₄⟩, h₃, ⟨w₄, b₅⟩, h₄, he⟩ := h
  cases he
  exact ⟨w₀, w₁, w₂, w₃, w₄, b₁, b₂, b₃, b₄, h₀, h₁, h₂, h₃, h₄, rfl, rfl⟩

theorem descriptor_append (c : List UInt8) (h : descriptor b = some (length, p, rest)) :
    descriptor (b ++ c) = some (length, p, rest ++ c) := by
  obtain ⟨w₀, w₁, w₂, w₃, w₄, b₁, b₂, b₃, b₄, h₀, h₁, h₂, h₃, h₄, rfl, rfl⟩ := descriptor_inv h
  simp [descriptor, word_append c h₀, word_append c h₁, word_append c h₂, word_append c h₃,
    word_append c h₄]

theorem descriptor_length
    (h : descriptor b = some (length, p, rest)) : b.length = rest.length + descriptorSize := by
  obtain ⟨w₀, w₁, w₂, w₃, w₄, b₁, b₂, b₃, b₄, h₀, h₁, h₂, h₃, h₄, -, -⟩ := descriptor_inv h
  rw [word_length h₀, word_length h₁, word_length h₂, word_length h₃, word_length h₄]
  rfl

theorem nextPacket_packet {b : List UInt8} {n : Nat} (h : nextPacket b = .packet p n) :
    ∃ length q rest, descriptor b = some (length, q, rest) ∧ length ≤ absoluteMaxBuffer ∧
      length ≤ rest.length ∧ p = { q with payload := rest.take length } ∧
      n = descriptorSize + length := by
  unfold nextPacket at h
  split at h
  · cases h
  · next length q rest hd =>
      split_ifs at h with h₁ h₂
      cases h
      exact ⟨length, q, rest, hd, by omega, by omega, rfl, rfl⟩

def descriptors : Framing UInt8 Packet where
  next := nextPacket
  size_pos h := by
    obtain ⟨length, q, rest, -, -, -, -, rfl⟩ := nextPacket_packet h
    exact Nat.add_pos_left (by decide) _
  size_le h := by
    obtain ⟨length, q, rest, hd, -, hle, -, rfl⟩ := nextPacket_packet h
    rw [descriptor_length hd]
    omega
  packet_append c h := by
    obtain ⟨length, q, rest, hd, hmax, hle, rfl, rfl⟩ := nextPacket_packet h
    have hlen : ¬ (rest ++ c).length < length := by
      rw [List.length_append]
      omega
    simp only [nextPacket, descriptor_append c hd, if_neg (Nat.not_lt.mpr hmax), if_neg hlen,
      List.take_append_of_le_length hle]
  bad_append c h := by
    unfold nextPacket at h
    split at h
    · cases h
    · next length q rest hd =>
        split_ifs at h with h₁
        simp only [nextPacket, descriptor_append c hd, if_pos h₁]

namespace Session

def negotiated (s : Session) : Bool × UInt32 := (s.conn.authorized, s.conn.version)

def Same (s s' : Session) : Prop := s'.negotiated = s.negotiated ∧ s'.conn.input = s.conn.input

theorem same_send (s : Session) (m : Message) : Same s (s.send m) := ⟨rfl, rfl⟩

theorem same_sendAll (s : Session) (ms : List Message) : Same s (s.sendAll ms) := by
  induction ms generalizing s with
  | nil => exact ⟨rfl, rfl⟩
  | cons m ms ih => exact ih (s.send m)

theorem same_exec (s : Session) (channel : UInt32) (st : Stream) (program : List Segment) :
    Same s (s.exec channel st program) :=
  same_sendAll { s with conn := { s.conn with
    streams := s.conn.streams.insert channel (st.execAll program).1 } } _

theorem same_withStream (s : Session) (tag channel : UInt32) {k : Stream → Session}
    (hk : ∀ st, Same s (k st)) : Same s (s.withStream tag channel k) := by
  unfold withStream
  split
  · exact ⟨rfl, rfl⟩
  · exact hk _

theorem same_createPlayback (out : Outside) (s : Session) (tag : UInt32) (req : CreateRequest) :
    Same s (createPlayback out s tag req) := by
  unfold createPlayback
  split
  · split <;> exact ⟨rfl, rfl⟩
  · exact ⟨rfl, rfl⟩

theorem same_setClientName (s : Session) (tag : UInt32) : Same s (s.setClientName tag) := by
  unfold setClientName
  split <;> exact ⟨rfl, rfl⟩

def outcome (s : Session) : (Bool × UInt32) × List UInt8 := (s.negotiated, s.conn.input)

variable {s t : Session} (h : t.negotiated = s.negotiated)

include h

theorem parsed_outcome {α : Type} (g : Get UInt8 α) (r : TagReader) {k l : α → Session}
    (hk : ∀ a, Same s (k a)) (hl : ∀ a, Same t (l a)) :
    (parsed g r k).map outcome = ((parsed g r l).map negotiated).map (·, s.conn.input) := by
  unfold parsed
  cases (g r).1 with
  | none => rfl
  | some a =>
    simp only [map_some, outcome, (hk a).1, (hk a).2, (hl a).1, h]

theorem send_outcome (m n : Message) :
    (some (s.send m)).map outcome = ((some (t.send n)).map negotiated).map (·, s.conn.input) := by
  have ht : (t.send n).negotiated = t.negotiated := rfl
  simp only [map_some, ht, h]
  rfl

theorem auth_outcome (g : Get UInt8 UInt32) (r : TagReader) (tag : UInt32) :
    (parsed g r fun version => s.auth tag version).map outcome =
      ((parsed g r fun version => t.auth tag version).map negotiated).map (·, s.conn.input) := by
  unfold parsed
  cases (g r).1 with
  | none => rfl
  | some version =>
    simp only [map_some, auth]
    split
    · exact send_outcome h _ _
    · rfl

theorem handleCommand_outcome (out out' : Outside) (command tag : UInt32) (r : TagReader) :
    (handleCommand out s command tag r).map outcome =
      ((handleCommand out' t command tag r).map negotiated).map (·, s.conn.input) := by
  obtain ⟨ha, hv⟩ : t.conn.authorized = s.conn.authorized ∧ t.conn.version = s.conn.version :=
    Prod.mk.inj h
  unfold handleCommand
  rw [ha, hv]
  split
  · exact send_outcome h _ _
  · split
    · exact auth_outcome h _ r tag
    · exact parsed_outcome h _ r (fun _ => same_setClientName s tag) fun _ => same_setClientName t tag
    · exact parsed_outcome h _ r (same_createPlayback out s tag) (same_createPlayback out' t tag)
    · exact parsed_outcome h _ r (fun _ => same_withStream s tag _ fun _ => ⟨rfl, rfl⟩)
        fun _ => same_withStream t tag _ fun _ => ⟨rfl, rfl⟩
    · exact parsed_outcome h _ r (fun _ => same_withStream s tag _ fun _ => same_exec s _ _ _)
        fun _ => same_withStream t tag _ fun _ => same_exec t _ _ _
    · exact parsed_outcome h _ r (fun _ => same_withStream s tag _ fun _ => same_exec s _ _ _)
        fun _ => same_withStream t tag _ fun _ => same_exec t _ _ _
    · exact parsed_outcome h _ r (fun _ => same_withStream s tag _ fun _ => same_send s _)
        fun _ => same_withStream t tag _ fun _ => same_send t _
    · exact parsed_outcome h _ r (fun _ => same_withStream s tag _ fun _ => same_send s _)
        fun _ => same_withStream t tag _ fun _ => same_send t _
    · exact parsed_outcome h _ r (fun _ => same_withStream s tag _ fun _ => same_exec s _ _ _)
        fun _ => same_withStream t tag _ fun _ => same_exec t _ _ _
    · exact parsed_outcome h _ r (fun _ => same_withStream s tag _ fun _ => same_exec s _ _ _)
        fun _ => same_withStream t tag _ fun _ => same_exec t _ _ _
    · exact parsed_outcome h _ r (fun _ => same_send s _) fun _ => same_send t _
    · exact parsed_outcome h _ r (fun _ => same_withStream s tag _ fun _ => same_send s _)
        fun _ => same_withStream t tag _ fun _ => same_send t _
    · exact send_outcome h _ _
    · exact send_outcome h _ _
    · exact send_outcome h _ _
    · exact send_outcome h _ _

theorem handlePacket_outcome (out out' : Outside) (p : Packet) :
    (handlePacket out s p).map outcome =
      ((handlePacket out' t p).map negotiated).map (·, s.conn.input) := by
  unfold handlePacket
  split
  · have hdata : ∀ s : Session, Same s (s.handleStreamData p.channel p.payload) := by
      intro s
      unfold handleStreamData
      split
      · exact ⟨rfl, rfl⟩
      · exact same_exec s _ _ _
    simp only [map_some, outcome, (hdata s).1, (hdata s).2, (hdata t).1, h]
  · split
    · rfl
    · split
      · rfl
      · exact handleCommand_outcome h out out' _ _ _

end Session

def verdict (n : Bool × UInt32) (p : Packet) : Option (Bool × UInt32) :=
  (Session.handlePacket ⟨0, 0, false⟩ { conn := { authorized := n.1, version := n.2 } } p).map
    Session.negotiated

theorem verdict_eq (out : Outside) (s : Session) (p : Packet) :
    (s.handlePacket out p).map Session.outcome =
      (verdict s.negotiated p).map (·, s.conn.input) := by
  refine Session.handlePacket_outcome ?_ out _ p
  rfl

theorem verdict_none {out : Outside} {s : Session}
    (h : s.handlePacket out p = none) : verdict s.negotiated p = none := by
  have := verdict_eq out s p
  rw [h] at this
  exact map_eq_none_iff.mp this.symm

theorem verdict_some {out : Outside} {s s' : Session} (h : s.handlePacket out p = some s') :
    verdict s.negotiated p = some s'.negotiated ∧ s'.conn.input = s.conn.input := by
  have := verdict_eq out s p
  rw [h] at this
  obtain ⟨n, hn, he⟩ := map_eq_some_iff.mp this.symm
  obtain ⟨hneg, hinput⟩ := Prod.mk.inj he
  exact ⟨hn.trans (congrArg some hneg), hinput.symm⟩

theorem be32At_drop (d : List UInt8) (k i : Nat) : be32At (d.drop k) i = be32At d (k + i) := by
  simp [be32At, getD_eq_getElem?_getD, Nat.add_assoc]

variable {d : List UInt8}

theorem word_eq (h : 4 ≤ d.length) : word d = some (be32At d 0, d.drop 4) := by
  match d, h with
  | b₀ :: b₁ :: b₂ :: b₃ :: rest, _ => rfl

theorem descriptor_eq (h : descriptorSize ≤ d.length) :
    descriptor d = some (lengthAt d, { packetAt d with payload := [] }, d.drop descriptorSize) := by
  have hs : descriptorSize = 20 := rfl
  have h₁ : ∀ k, k ≤ 16 → word (d.drop k) = some (be32At d k, d.drop (k + 4)) := by
    intro k hk
    rw [word_eq (by rw [length_drop]; omega), be32At_drop, drop_drop, Nat.add_zero]
  have h₀ := h₁ 0 (by omega)
  rw [drop_zero] at h₀
  simp [descriptor, h₀, h₁ 4, h₁ 8, h₁ 12, h₁ 16, hs, packetAt, lengthAt]

theorem descriptor_short (h : d.length < descriptorSize) : descriptor d = none := by
  cases hd : descriptor d with
  | none => rfl
  | some p =>
    obtain ⟨length, q, rest⟩ := p
    have := descriptor_length hd
    omega

theorem nextPacket_eq (d : List UInt8) : nextPacket d =
      if d.length ≥ descriptorSize then
        if lengthAt d > absoluteMaxBuffer then .bad
        else if d.length < descriptorSize + lengthAt d then .more
        else .packet (packetAt d) (descriptorSize + lengthAt d)
      else .more := by
  unfold nextPacket
  split_ifs with h hbig hshort
  · simp [descriptor_eq h, hbig]
  · have : (d.drop descriptorSize).length < lengthAt d := by
      rw [length_drop]
      omega
    simp only [descriptor_eq h, if_neg hbig, if_pos this]
  · have : ¬ (d.drop descriptorSize).length < lengthAt d := by
      rw [length_drop]
      omega
    simp only [descriptor_eq h, if_neg hbig, if_neg this]
    rfl
  · simp only [descriptor_short (Nat.lt_of_not_le h)]

/-- A reading of the client's bytes has come out as the parser did: it handed on the same packets,
and it kept the same bytes and negotiated the same, or dropped the client for the same reason. -/
def Agree (q : List Packet × Except Dropped Session)
    (P : Parsed UInt8 Packet (Bool × UInt32)) : Prop :=
  q.1 = P.passed ∧
    match q.2 with
    | .ok s => P.stop = .waiting s.conn.input ∧ P.state = s.negotiated
    | .error .tooLong => P.stop = .bad
    | .error .refused => P.stop = .refused
    | .error .gone => False

theorem Agree.after {q : List Packet × Except Dropped Session}
    {P : Parsed UInt8 Packet (Bool × UInt32)} (h : Agree q P) (ps : List Packet) :
    Agree (ps ++ q.1, q.2) (Parsed.after ps P) :=
  ⟨congrArg (ps ++ ·) h.1, h.2⟩

def erased (p : Session × Nat) : Session :=
  { p.1 with conn := { p.1.conn with input := p.1.conn.input.drop p.2 } }

theorem drainPackets_parse (out : Nat → Outside) (fuel : Nat) (s : Session) (off : Nat)
    (hf : s.conn.input.length - off ≤ fuel) :
    Agree ((drainPackets out fuel s off).1, (drainPackets out fuel s off).2.map erased)
      (descriptors.parse verdict s.negotiated (s.conn.input.drop off)) := by
  -- by induction on the packets of the input
  induction fuel generalizing s off with
  | zero =>
    have hnil : s.conn.input.drop off = [] := drop_eq_nil_of_le (by omega)
    have hmore : descriptors.next (s.conn.input.drop off) = .more := by
      rw [hnil]
      rfl
    rw [Framing.parse_more hmore]
    exact ⟨rfl, rfl, rfl⟩
  | succ fuel ih =>
    have hlen : s.conn.input.length - off = (s.conn.input.drop off).length :=
      length_drop.symm
    have hnext : descriptors.next (s.conn.input.drop off) = _ :=
      nextPacket_eq (s.conn.input.drop off)
    unfold drainPackets
    dsimp only
    rw [hlen]
    split_ifs at hnext ⊢ with hsize hbig hshort
    · rw [Framing.parse_bad hnext]
      exact ⟨rfl, rfl⟩
    · rw [Framing.parse_more hnext]
      exact ⟨rfl, rfl, rfl⟩
    · split
      · next hrefused =>
          rw [Framing.parse_refused hnext (verdict_none hrefused)]
          exact ⟨rfl, rfl⟩
      · next s₁ hs₁ =>
          obtain ⟨hv, hinput⟩ := verdict_some hs₁
          have hrest := ih s₁ (off + (descriptorSize + lengthAt (s.conn.input.drop off))) (by
            have : descriptorSize = 20 := rfl
            rw [hinput]
            omega)
          rw [Framing.parse_packet hnext hv, drop_drop, ← hinput]
          rw [← hinput] at hrest
          exact hrest.after [packetAt (s₁.conn.input.drop off)]
    · rw [Framing.parse_more hnext]
      exact ⟨rfl, rfl, rfl⟩

theorem readFrom_parse {answers : List ReadResult} {bs : List UInt8}
    (h : received answers = some bs) (out : Nat → Outside) (s : Session) :
    Agree (readFrom out answers s)
      (descriptors.parse verdict s.negotiated (s.conn.input ++ bs)) := by
  have := drainPackets_parse out (s.conn.input ++ bs).length
    { s with conn := { s.conn with input := s.conn.input ++ bs } } 0 (Nat.sub_le _ _)
  rw [drop_zero] at this
  unfold readFrom
  rw [h]
  exact this

/-- The bytes that an answer of `read` carries. -/
def ReadResult.data : ReadResult → List UInt8
  | .bytes bs => bs
  | _ => []

/-- The answers that one call of `ReadFrom` reads from an open connection: reads that fill the
buffer and interrupted ones, then a shorter read or one that would block. -/
inductive Answers : List ReadResult → Prop where
  | nothing : Answers [.wouldBlock]
  | short {bs : List UInt8} : 0 < bs.length → bs.length < readSize → Answers [.bytes bs]
  | full {bs : List UInt8} {rest : List ReadResult} :
      bs.length = readSize → Answers rest → Answers (.bytes bs :: rest)
  | interrupted {rest : List ReadResult} : Answers rest → Answers (.interrupted :: rest)

/-- The first loop of `ReadFrom` keeps every byte it reads. -/
theorem Answers.received_eq {answers : List ReadResult} (h : Answers answers) :
    received answers = some (answers.flatMap ReadResult.data) := by
  induction h with
  | nothing => rfl
  | short hpos hshort => simp [received, ReadResult.data, hshort, Nat.ne_of_gt hpos]
  | full hfull _ ih => simp [received, ReadResult.data, ih, hfull, readSize]
  | interrupted _ ih => simpa [received, ReadResult.data] using ih

/-- One turn of the loop for a connection: whatever else happens in the server, which leaves alone
what this client has negotiated and its input, and then a call of `ReadFrom` that finds the
connection open. -/
structure Turn where
  other : Session → Session
  quiet : ∀ s, Session.Same s (other s)
  out : Nat → Outside
  answers : List ReadResult
  isOpen : Answers answers

/-- The bytes that arrive in a turn, read by read. -/
def Turn.bytes (t : Turn) : List UInt8 := t.answers.flatMap ReadResult.data

/-- The turns of a connection until it is dropped: the packets handed to `HandlePacket`, and the
session at the end. -/
def serve : Session → List Turn → List Packet × Except Dropped Session
  | s, [] => ([], .ok s)
  | s, t :: ts =>
    match readFrom t.out t.answers (t.other s) with
    | (ps, .error e) => (ps, .error e)
    | (ps, .ok s₁) => (ps ++ (serve s₁ ts).1, (serve s₁ ts).2)

theorem serve_feed (ts : List Turn) (s : Session) (P : Parsed UInt8 Packet (Bool × UInt32))
    (hstop : P.stop = .waiting s.conn.input) (hstate : P.state = s.negotiated) :
    Agree (P.passed ++ (serve s ts).1, (serve s ts).2)
      ((ts.map Turn.bytes).foldl (descriptors.feed verdict) P) := by
  induction ts generalizing s P with
  | nil => exact ⟨append_nil _, hstop, hstate⟩
  | cons t ts ih =>
    have hread :=
      readFrom_parse (show received _ = some t.bytes from t.isOpen.received_eq) t.out (t.other s)
    obtain ⟨hneg, hinput⟩ := t.quiet s
    rw [hneg, hinput] at hread
    have hfeed : descriptors.feed verdict P t.bytes = Parsed.after P.passed
        (descriptors.parse verdict s.negotiated (s.conn.input ++ t.bytes)) := by
      simp only [Framing.feed, Parsed.andThen, hstop, hstate]
    rw [map_cons, foldl_cons, hfeed]
    have hafter := hread.after P.passed
    rw [serve]
    rcases hq : readFrom t.out t.answers (t.other s) with ⟨ps, e | s₁⟩
    · -- dropped: the parser stays where it is, whatever it is fed
      rw [hq] at hafter
      rw [Framing.foldl_feed_stopped]
      · exact hafter
      · intro bs hb
        cases e with
        | gone => exact hafter.2
        | tooLong => cases hafter.2.symm.trans hb
        | refused => cases hafter.2.symm.trans hb
    · rw [hq] at hafter
      have := ih s₁ _ hafter.2.1 hafter.2.2
      rw [← hafter.1] at this
      simpa using this

/-- **Packet framing does not depend on how the bytes arrive.** The packets handed on, the point and
the reason of a drop, and the bytes kept are those of parsing the whole stream at once. -/
theorem framing_independent (s : Session) (h : s.conn.input = []) (ts : List Turn) :
    Agree (serve s ts) (descriptors.parse verdict s.negotiated (ts.map Turn.bytes).flatten) := by
  have hnil : descriptors.parse verdict s.negotiated [] =
      ⟨[], s.negotiated, .waiting s.conn.input⟩ := by
    rw [h]
    exact Framing.parse_more rfl
  have := serve_feed ts s (descriptors.parse verdict s.negotiated []) (by rw [hnil]) (by rw [hnil])
  rw [Framing.foldl_feed, hnil] at this
  exact this

def Turn.reading (bs : List UInt8) (h : 0 < bs.length ∧ bs.length < readSize) : Turn where
  other := id
  quiet _ := ⟨rfl, rfl⟩
  out _ := ⟨0, 0, false⟩
  answers := [.bytes bs]
  isOpen := .short h.1 h.2

def cutPacket : List Turn :=
  [.reading [0, 0, 0, 2, 0, 0] (by decide),
    .reading [0, 3, 0, 0, 0, 0, 0, 0, 0, 0, 0, 0, 0, 0, 7] (by decide), .reading [8] (by decide)]

theorem framing_independent_cut : ({ conn := {} } : Session).conn.input = [] ∧
      Agree (serve { conn := {} } cutPacket)
        (descriptors.parse verdict (false, protocolVersion) (cutPacket.map Turn.bytes).flatten) :=
  ⟨rfl, framing_independent { conn := {} } rfl cutPacket⟩

end OniroSoc.Audio

import OniroSoc.Support.Bytes

/-!
# The DHCP responder: options

`dhcp_opt_u8` walks the options of a request; `dhcp_build_reply` writes those of the answer.
-/

namespace OniroSoc.Launcher.Dhcp
open Support List

/-- The loop of `dhcp_opt_u8` on the `optlen` bytes of `o`.  There is no value when it reads past
them or does not end in the rounds it is given. -/
def optLoop (o : List UInt8) (want : UInt8) : (rounds i : Nat) → Option Int
  | 0, _ => none
  | rounds + 1, i =>
    if i < o.length then do
      let code ← o[i]?
      if code = 255 then some (-1)
      else if code = 0 then optLoop o want rounds (i + 1)
      else if i + 1 ≥ o.length then some (-1)
      else
        let len ← o[i + 1]?
        if i + 2 + len.toNat > o.length then some (-1)
        else if code = want ∧ len ≥ 1 then o[i + 2]?.map fun b => (b.toNat : Int)
        else optLoop o want rounds (i + 2 + len.toNat)
    else some (-1)

def optU8 (o : List UInt8) (want : UInt8) : Option Int := optLoop o want (o.length + 1) 4

/-- `struct dhcp_msg`; a word is meant with its most significant byte first on the wire. -/
structure Msg where
  (op htype hlen hops : UInt8 := 0)
  xid : UInt32 := 0
  (secs flags : UInt16 := 0)
  (ciaddr yiaddr siaddr giaddr : UInt32 := 0)
  chaddr : List UInt8 := replicate 16 0
  sname : List UInt8 := replicate 64 0
  file : List UInt8 := replicate 128 0
  options : List UInt8 := replicate 312 0

/-- `offsetof(struct dhcp_msg, options)`. -/
def optionsOffset : Nat := 236

def put (o : List UInt8) (code : UInt8) (d : List UInt8) : List UInt8 :=
  o ++ code :: UInt8.ofNat d.length :: d

def hostIp : UInt32 := 0xC0A8F001

def contIp : UInt32 := 0xC0A8F002

/-- The options of a reply, up to their end; `gw` is what `host_default_gw` finds. -/
def replyOptions (msgtype : UInt8) (gw : UInt32) : List UInt8 :=
  let o := put (bytes32 0x63825363) 53 [msgtype]
  let o := put o 54 (bytes32 hostIp)
  let o := put o 51 (bytes32 86400)
  let o := put o 1 (bytes32 0xFFFFFF00)
  let o := put o 3 (bytes32 hostIp)
  let dns := (if gw ≠ 0 then bytes32 gw else []) ++ bytes32 0x08080808 ++ bytes32 0x01010101
  put o 6 dns ++ [255]

/-- `dhcp_build_reply`, and the length it returns. -/
def buildReply (req : Msg) (msgtype : UInt8) (gw : UInt32) : Msg × Nat :=
  let o := replyOptions msgtype gw
  ({ op := 2
     htype := if req.htype ≠ 0 then req.htype else 1
     hlen := if req.hlen ≠ 0 then req.hlen else 6
     xid := req.xid
     flags := req.flags
     yiaddr := contIp
     siaddr := hostIp
     giaddr := req.giaddr
     chaddr := req.chaddr
     options := o ++ replicate (312 - o.length) 0 }, optionsOffset + o.length)

/-- The options of a field behind the cookie: pads are skipped, and an END or an option that
overruns ends it. -/
def tlvs : List UInt8 → List (UInt8 × List UInt8)
  | [] => []
  | code :: rest =>
    if code = 255 then []
    else if code = 0 then tlvs rest
    else
      match rest with
      | [] => []
      | len :: rest =>
        if len.toNat ≤ rest.length then (code, rest.take len.toNat) :: tlvs (rest.drop len.toNat) else []
termination_by o => o.length

/-- The first byte of the first option with the code and a payload, or -1. -/
def lookup (want : UInt8) (options : List (UInt8 × List UInt8)) : Int :=
  ((options.filter (·.1 = want)).flatMap Prod.snd).head?.elim (-1) fun b => b.toNat

variable {want : UInt8}

theorem lookup_cons (code : UInt8) (payload : List UInt8) (options : List (UInt8 × List UInt8)) :
    lookup want ((code, payload) :: options) =
      if code = want then payload.head?.elim (lookup want options) (fun b => b.toNat) else lookup
        want options := by
  by_cases hcode : code = want
  · cases payload <;> simp [lookup, hcode]
  · simp [lookup, hcode]

theorem optLoop_eq (o : List UInt8) {rounds i : Nat} (h : o.length - i < rounds) :
    optLoop o want rounds i = some (lookup want (tlvs (o.drop i))) := by
  induction rounds generalizing i with
  | zero => omega
  | succ rounds ih =>
    rw [optLoop]
    by_cases hi : i < o.length
    · rw [if_pos hi, drop_eq_getElem_cons hi, tlvs.eq_def, getElem?_eq_getElem hi]
      simp only [Option.bind_eq_bind, Option.bind_some]
      generalize o[i] = code
      by_cases hend : code = 255
      · rw [if_pos hend, if_pos hend]
        rfl
      rw [if_neg hend, if_neg hend]
      by_cases hpad : code = 0
      · rw [if_pos hpad, if_pos hpad]
        exact ih (by omega)
      rw [if_neg hpad, if_neg hpad]
      by_cases hshort : i + 1 ≥ o.length
      · rw [if_pos hshort, drop_of_length_le hshort]
        rfl
      rw [if_neg hshort, drop_eq_getElem_cons (by omega), getElem?_eq_getElem (by omega), Option.bind_some]
      dsimp only
      generalize o[i + 1] = len
      by_cases hover : i + 2 + len.toNat > o.length
      · rw [if_pos hover, if_neg (by rw [length_drop]; omega)]
        rfl
      have hfits : len.toNat ≤ (o.drop (i + 1 + 1)).length := by
        rw [length_drop]
        omega
      rw [if_neg hover, if_pos hfits, drop_drop, lookup_cons, ih (by omega), head?_take, head?_drop]
      by_cases hcode : code = want
      · by_cases hzero : len = 0
        · simp [hzero]
        · have hnat : len.toNat ≠ 0 := fun h => hzero (UInt8.toNat_inj.mp h)
          have hpos : len ≥ 1 := UInt8.le_iff_toNat_le.mpr (Nat.one_le_iff_ne_zero.mpr hnat)
          rw [if_pos ⟨hcode, hpos⟩, if_pos hcode, if_neg hnat, getElem?_eq_getElem (by omega)]
          rfl
      · rw [if_neg fun h => hcode h.1, if_neg hcode, Nat.add_assoc]
    · rw [if_neg hi, drop_of_length_le (by omega), tlvs]
      rfl

/-- **Options are looked up as they are laid out**, with no read past `optlen`, and the options of a
reply have the message type and end in END within their field. -/
theorem options_looked_up : (∀ o want, optU8 o want = some (lookup want (tlvs (o.drop 4)))) ∧
    ∀ req msgtype gw, ∃ n ≤ 312, (buildReply req msgtype gw).2 = optionsOffset + n ∧
      (buildReply req msgtype gw).1.options.length = 312 ∧
      (buildReply req msgtype gw).1.options[n - 1]? = some 255 ∧
      optU8 ((buildReply req msgtype gw).1.options.take n) 53 = some (msgtype.toNat : Int) := by
  have hwalk : ∀ o want, optU8 o want = some (lookup want (tlvs (o.drop 4))) :=
    fun o _ => optLoop_eq o (by omega)
  refine ⟨hwalk, fun req msgtype gw => ?_⟩
  have hlen : (replyOptions msgtype gw).length ≤ 46 := by
    by_cases hgw : gw = 0 <;> simp [replyOptions, put, hgw]
  refine ⟨(replyOptions msgtype gw).length, by omega, rfl, ?_, ?_, ?_⟩
  · simp [buildReply]
    omega
  · have hend : (replyOptions msgtype gw).getLast? = some 255 := getLast?_concat
    rw [buildReply, getElem?_append_left (by simp [replyOptions]), ← getLast?_eq_getElem?, hend]
  · rw [buildReply, take_left, hwalk]
    have hfirst : ∃ rest, (replyOptions msgtype gw).drop 4 = 53 :: 1 :: msgtype :: rest := ⟨_, rfl⟩
    obtain ⟨rest, hrest⟩ := hfirst
    rw [hrest, tlvs.eq_def]
    simp [lookup_cons]

theorem tlvs_put {options : List (UInt8 × List UInt8)} (rest : List UInt8)
    (h : ∀ p ∈ options, p.1 ≠ 0 ∧ p.1 ≠ 255 ∧ p.2.length < 256) :
    tlvs ((options.flatMap fun p => put [] p.1 p.2) ++ 255 :: rest) = options := by
  induction options with
  | nil => simp [tlvs.eq_def]
  | cons p options ih =>
    obtain ⟨⟨hpad, hend, hlen⟩, h⟩ := forall_mem_cons.mp h
    have hnat : (UInt8.ofNat p.2.length).toNat = p.2.length := UInt8.toNat_ofNat_of_lt' hlen
    rw [flatMap_cons, append_assoc, put, nil_append, cons_append, cons_append, tlvs]
    simp [hpad, hend, hnat, ih h]

/-- **A client reads what was put**: in every reply it finds these options, in this order and no
others. -/
theorem reply_read_back (req : Msg) (msgtype : UInt8) (gw : UInt32) :
    tlvs ((buildReply req msgtype gw).1.options.drop 4) = [(53, [msgtype]), (54, bytes32 hostIp),
      (51, bytes32 86400), (1, bytes32 0xFFFFFF00), (3, bytes32 hostIp),
      (6, (if gw ≠ 0 then bytes32 gw else []) ++ bytes32 0x08080808 ++ bytes32 0x01010101)] := by
  refine Eq.trans ?_ (tlvs_put (replicate (312 - (replyOptions msgtype gw).length) 0) ?_)
  · simp [buildReply, replyOptions, put]
    rfl
  · by_cases hgw : gw = 0 <;> simp [hgw]

end OniroSoc.Launcher.Dhcp

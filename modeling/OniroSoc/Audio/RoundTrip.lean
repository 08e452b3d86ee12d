import Mathlib.Data.List.TakeWhile
import OniroSoc.Support.Circular
import OniroSoc.Audio.Wire

/-!
# Audio — the tagstruct round trip

What a sequence of `put…` calls writes, the matching sequence of `get…` calls reads back.
-/

namespace OniroSoc.Audio
open Support

def bytes64 (v : UInt64) : List UInt8 := bytes32 (v >>> 32).toUInt32 ++ bytes32 v.toUInt32

def cstring (s : List UInt8) : List UInt8 := Tag.string.byte :: (s.takeWhile (· ≠ 0) ++ [0])

def propBytes (kv : List UInt8 × List UInt8) : List UInt8 :=
  cstring kv.1 ++ (Tag.u32.byte :: bytes32 (kv.2.length + 1).toUInt32 ++
    (Tag.arbitrary.byte :: bytes32 (kv.2.length + 1).toUInt32 ++ (kv.2 ++ [0])))

def Value.bytes : Value → List UInt8
  | .u8 v => [Tag.u8.byte, v]
  | .u32 v => Tag.u32.byte :: bytes32 v
  | .u64 v => Tag.u64.byte :: bytes64 v
  | .s64 v => Tag.s64.byte :: bytes64 v.toUInt64
  | .usec v => Tag.usec.byte :: bytes64 v
  | .bool v => [(if v then Tag.booleanTrue else Tag.booleanFalse).byte]
  | .string none => [Tag.stringNull.byte]
  | .string (some s) => cstring s
  | .sampleSpec ss => Tag.sampleSpec.byte :: ss.format :: ss.channels :: bytes32 ss.rate
  | .channelMap cm => Tag.channelMap.byte :: cm.channels ::
      (List.range cm.channels.toNat).map fun i => cm.map.toList.getD i 0
  | .cvolume channels value => Tag.cvolume.byte :: channels ::
      (List.range channels.toNat).flatMap fun _ => bytes32 value
  | .timeval sec us => Tag.timeval.byte :: (bytes32 sec ++ bytes32 us)
  | .proplist props =>
    Tag.proplist.byte :: (props.toList.flatMap propBytes ++ [Tag.stringNull.byte])

namespace TagWriter

@[simp] theorem raw8_buf (t : TagWriter) (v : UInt8) : (t.raw8 v).buf = t.buf ++ [v] := rfl

@[simp] theorem raw32_buf (t : TagWriter) (v : UInt32) : (t.raw32 v).buf = t.buf ++ bytes32 v := rfl

@[simp] theorem raw64_buf (t : TagWriter) (v : UInt64) : (t.raw64 v).buf = t.buf ++ bytes64 v := by
  simp [raw64, bytes64]

@[simp] theorem insert_buf (t : TagWriter) (bs : List UInt8) : (t.insert bs).buf = t.buf ++ bs := rfl

theorem foldl_buf {ι : Type} {f : TagWriter → ι → TagWriter} {w : ι → List UInt8}
    (h : ∀ t i, (f t i).buf = t.buf ++ w i) (l : List ι) (t : TagWriter) :
    (l.foldl f t).buf = t.buf ++ l.flatMap w := by
  induction l generalizing t with
  | nil => simp
  | cons i l ih => rw [List.foldl_cons, ih, h, List.flatMap_cons, List.append_assoc]

theorem putProp_buf (t : TagWriter) (kv : List UInt8 × List UInt8) :
    (t.putProp kv).buf = t.buf ++ propBytes kv := by
  simp [putProp, propBytes, cstring, putString, putU32]

theorem put_buf (t : TagWriter) (v : Value) : (t.put v).buf = t.buf ++ v.bytes := by
  cases v with
  | u8 v => simp [put, putU8, Value.bytes]
  | u32 v => simp [put, putU32, Value.bytes]
  | u64 v => simp [put, putU64, Value.bytes]
  | s64 v => simp [put, putS64, Value.bytes]
  | usec v => simp [put, putUsec, Value.bytes]
  | bool v => simp [put, putBool, Value.bytes]
  | string s => cases s <;> simp [put, putString, Value.bytes, cstring]
  | sampleSpec ss => simp [put, putSampleSpec, Value.bytes]
  | channelMap cm =>
    simp only [put, putChannelMap]
    rw [foldl_buf fun t i => raw8_buf t (cm.map.toList.getD i 0)]
    simp [Value.bytes, ← List.map_eq_flatMap]
  | cvolume channels value =>
    simp only [put, putCVolume]
    rw [foldl_buf fun t _ => raw32_buf t value]
    simp [Value.bytes]
  | timeval sec usec => simp [put, putTimeval, Value.bytes]
  | proplist props =>
    simp only [put, putProplist, raw8_buf]
    rw [foldl_buf putProp_buf]
    simp [Value.bytes]

end TagWriter

namespace TagReader

theorem reads_expect (b : UInt8) : Reads (expect b) [b] () := by
  have := (Reads.take b).bind (f := fun tag => if tag = b then pure () else Get.fail)
    (v := []) (c := ()) (by rw [if_pos rfl]; exact Reads.pure ())
  rwa [List.append_nil] at this

theorem reads_tagged {α : Type} {b : UInt8} {g : Get UInt8 α} {w : List UInt8} {a : α}
    (h : Reads g w a) : Reads (do expect b; g) (b :: w) a :=
  (reads_expect b).bind h

theorem reads_take32 (v : UInt32) : Reads take32 (bytes32 v) v := fun u w => by
  have h : (Cursor.at u (bytes32 v ++ w)).failed = false ∧
      (Cursor.at u (bytes32 v ++ w)).off + 4 ≤ (Cursor.at u (bytes32 v ++ w)).data.length :=
    ⟨rfl, by simp [Cursor.at]⟩
  rw [take32, dif_pos h]
  simp [Cursor.at, bytes32, be32_bytes32, List.getElem_append_right]

theorem reads_take64 (v : UInt64) : Reads take64 (bytes64 v) v := by
  have h := (reads_take32 (v >>> 32).toUInt32).bind
    (f := fun hi => take32 >>= fun lo => pure (join64 hi lo)) (reads_take32 v.toUInt32).map
  rwa [join64_split] at h

theorem skipToNul_eq (u s v : List UInt8) (hs : 0 ∉ s) (fuel : Nat) (hf : s.length < fuel) :
    skipToNul (u ++ (s ++ 0 :: v)) fuel u.length = u.length + s.length := by
  -- the word scanned so far moves over to `u`
  induction s generalizing u fuel with
  | nil =>
    obtain ⟨fuel, rfl⟩ := Nat.exists_eq_add_one.mpr (Nat.zero_lt_of_lt hf)
    simp [skipToNul]
  | cons b s ih =>
    obtain ⟨fuel, rfl⟩ := Nat.exists_eq_add_one.mpr (Nat.zero_lt_of_lt hf)
    simp only [List.mem_cons, not_or] at hs
    have hb : b ≠ 0 := fun h => hs.1 h.symm
    have := ih (u ++ [b]) hs.2 fuel (by simpa using hf)
    simp only [List.append_assoc, List.singleton_append, List.length_append, List.length_cons,
      List.length_nil] at this
    simp [skipToNul, hb, this]
    omega

variable {s : List UInt8}

theorem reads_takeCString (hs : 0 ∉ s) : Reads takeCString (s ++ [0]) s := fun u v => by
  have hstop := skipToNul_eq u s v hs (s.length + (v.length + 1)) (by omega)
  simp [takeCString, Cursor.at, hstop]
  omega

theorem takeWhile_ne_zero (hs : 0 ∉ s) : s.takeWhile (· ≠ 0) = s := by
  rw [List.takeWhile_eq_self_iff]
  intro b hb
  simpa using fun h : b = 0 => hs (h ▸ hb)

theorem reads_getString (hs : 0 ∉ s) : Reads getString (cstring s) (s, false) := by
  rw [cstring, takeWhile_ne_zero hs]
  refine (Reads.take Tag.string.byte).bind ?_
  rw [if_neg (by decide), if_neg (by decide)]
  exact (reads_takeCString hs).map

theorem reads_getString_null : Reads getString [Tag.stringNull.byte] ([], true) := by
  refine (Reads.take Tag.stringNull.byte).bind (v := []) ?_
  rw [if_pos rfl]
  exact Reads.pure _

theorem reads_takeMap (bs : List UInt8) (i : Nat) (map : Vector UInt8 32) :
    ∃ map' : Vector UInt8 32, map'.toList = Support.overwrite map.toList i bs ∧
      Reads (takeMap bs.length i map) bs map' := by
  induction bs generalizing i map with
  | nil => exact ⟨map, rfl, Reads.pure map⟩
  | cons b bs ih =>
    obtain ⟨map', hmap, hreads⟩ := ih (i + 1) (map.setIfInBounds i b)
    refine ⟨map', hmap.trans ?_, (Reads.take b).bind hreads⟩
    rw [Support.overwrite, Vector.toList_setIfInBounds]

theorem reads_getChannelMap (cm₀ : ChannelMap) {channels : UInt8} {bs : List UInt8}
    (hlen : bs.length = channels.toNat) (h32 : channels.toNat ≤ 32) :
    ∃ map : Vector UInt8 32, map.toList.take bs.length = bs ∧
      Reads (getChannelMap cm₀) (Tag.channelMap.byte :: channels :: bs) { channels, map } := by
  obtain ⟨map, hmap, hreads⟩ := reads_takeMap bs 0 cm₀.map
  refine ⟨map, ?_, reads_tagged ((Reads.take channels).bind ?_)⟩
  · have htake := @Support.take_overwrite _ cm₀.map.toList bs 0 (by simp; omega)
    rwa [← hmap, Nat.zero_add, List.take_zero, List.nil_append] at htake
  · rw [if_neg (by omega), ← hlen]
    exact hreads.map (f := fun map => (⟨channels, map⟩ : ChannelMap))

theorem reads_takeVolumes {ι : Type} (value : UInt32) (l : List ι) (first : Option UInt32) :
    Reads (takeVolumes l.length first) (l.flatMap fun _ => bytes32 value)
      (first <|> l.head?.map fun _ => value) := by
  induction l generalizing first with
  | nil => cases first <;> exact Reads.pure _
  | cons i l ih =>
    have := (reads_take32 value).bind (f := fun v => takeVolumes l.length (first <|> some v))
      (ih (first <|> some value))
    cases first <;> simpa [takeVolumes] using this

theorem reads_getCVolume {channels : UInt8} (value : UInt32) (h : 1 ≤ channels.toNat) :
    Reads getCVolume (Tag.cvolume.byte :: channels ::
      (List.range channels.toNat).flatMap fun _ => bytes32 value) (channels, value) := by
  refine reads_tagged ((Reads.take channels).bind ?_)
  have hv := reads_takeVolumes value (List.range channels.toNat) none
  rw [List.length_range] at hv
  have hhead : (List.range channels.toNat).head? = some 0 := by
    obtain ⟨n, hn⟩ : ∃ n, channels.toNat = n + 1 := ⟨channels.toNat - 1, by omega⟩
    rw [hn, List.head?_range]
    simp
  rw [hhead] at hv
  exact hv.map (f := fun first => (channels, first.getD volumeNorm))

theorem reads_takeBytes (w : List UInt8) : Reads (takeBytes w.length) w w := fun u v => by
  simp [takeBytes, Cursor.at]

theorem dropNul_append (value : List UInt8) : dropNul (value ++ [0]) = value := by
  simp [dropNul]

def PropOk (kv : List UInt8 × List UInt8) : Prop := 0 ∉ kv.1 ∧ kv.2.length < 2 ^ 32 - 1

theorem reads_getArbitrary {value : List UInt8} (h : value.length < 2 ^ 32 - 1) :
    Reads getArbitrary (Tag.arbitrary.byte :: bytes32 (value.length + 1).toUInt32 ++ (value ++ [0]))
      (value ++ [0]) := by
  refine reads_tagged ((reads_take32 _).bind ?_)
  have hlen : (value.length + 1).toUInt32.toNat = (value ++ [0]).length := by
    rw [List.length_append, List.length_singleton]
    exact Nat.mod_eq_of_lt (by omega)
  rw [hlen]
  exact reads_takeBytes _

theorem atNull_cstring (u s v : List UInt8) :
    atNull (Cursor.at u (cstring s ++ v)) = some false := by
  simp [atNull, Cursor.at, cstring]
  decide

theorem getProps_entry {fuel : Nat} {props : Props} {r : TagReader} (h : atNull r = some false) : getProps (fuel
    + 1) props r = (do
        let key ← getString
        let _ ← getU32
        let value ← getArbitrary
        getProps fuel (props.insert key.1 (dropNul value)) : Get UInt8 Props) r := by
  simp only [getProps, h]

theorem reads_getProps {es : List (List UInt8 × List UInt8)} (hes : ∀ kv ∈ es, PropOk kv)
    {fuel : Nat} (hf : es.length < fuel) (props : Props) :
    Reads (getProps fuel props) (es.flatMap propBytes ++ [Tag.stringNull.byte])
      (props.insertMany es) := by
  induction es generalizing fuel props with
  | nil =>
    obtain ⟨fuel, rfl⟩ := Nat.exists_eq_add_one.mpr (Nat.zero_lt_of_lt hf)
    intro u v
    simp [getProps, atNull, Cursor.at, Std.ExtTreeMap.insertMany_nil]
  | cons kv es ih =>
    obtain ⟨fuel, rfl⟩ := Nat.exists_eq_add_one.mpr (Nat.zero_lt_of_lt hf)
    obtain ⟨hkey, hval⟩ := hes kv (by simp)
    have hrest := ih (fun kv h => hes kv (by simp [h])) (by simpa using hf) (props.insert kv.1 kv.2)
    have hentry := (reads_getString hkey).bind
      (f := fun key => getU32 >>= fun _ => getArbitrary >>= fun value =>
        getProps fuel (props.insert key.1 (dropNul value)))
      ((reads_tagged (reads_take32 (kv.2.length + 1).toUInt32)).bind
        ((reads_getArbitrary hval).bind (by rw [dropNul_append]; exact hrest)))
    have hword : ∀ v, (kv :: es).flatMap propBytes ++ v = cstring kv.1 ++ (Tag.u32.byte ::
        bytes32 (kv.2.length + 1).toUInt32 ++ (Tag.arbitrary.byte ::
        bytes32 (kv.2.length + 1).toUInt32 ++ (kv.2 ++ [0]) ++ (es.flatMap propBytes ++ v))) := by
      simp [propBytes]
    rw [hword, ← Prod.mk.eta (p := kv), Std.ExtTreeMap.insertMany_cons]
    intro u v
    rw [getProps_entry (by rw [List.append_assoc]; exact atNull_cstring _ _ _)]
    exact hentry u v

theorem insertMany_toList (props : Props) : (∅ : Props).insertMany props.toList = props := by
  apply Std.ExtTreeMap.ext_getElem?
  intro k
  cases h : props[k]? with
  | some v =>
    exact Std.ExtTreeMap.getElem?_insertMany_list_of_mem (Std.ReflCmp.compare_self)
      Std.ExtTreeMap.distinct_keys_toList (Std.ExtTreeMap.mem_toList_iff_getElem?_eq_some.mpr h)
  | none =>
    rw [Std.ExtTreeMap.getElem?_insertMany_list_of_contains_eq_false, Std.ExtTreeMap.getElem?_empty]
    rw [Std.ExtTreeMap.map_fst_toList_eq_keys]
    simp [Std.ExtTreeMap.mem_iff_isSome_getElem?, h]

theorem length_le_flatMap_propBytes (es : List (List UInt8 × List UInt8)) :
    es.length ≤ (es.flatMap propBytes).length := by
  induction es with
  | nil => simp
  | cons kv es ih => simp [propBytes, cstring]; omega

theorem reads_getProplist {props : Props} (h : ∀ kv ∈ props.toList, PropOk kv) :
    Reads (getProplist ∅) (Value.proplist props).bytes props := by
  refine reads_tagged fun u v => ?_
  have hlen := length_le_flatMap_propBytes props.toList
  have hfuel : props.toList.length < (u ++ (props.toList.flatMap propBytes ++
      [Tag.stringNull.byte] ++ v)).length - u.length + 1 := by
    simp only [List.length_append]
    omega
  have := reads_getProps h hfuel ∅ u v
  rwa [insertMany_toList] at this

end TagReader

/-- The values the writer takes as they are: strings and keys without NUL bytes, channel maps that
fit their array, volumes of at least one channel, values whose length fits its word. -/
def Value.Writable : Value → Prop
  | .string (some s) => 0 ∉ s
  | .channelMap cm => cm.channels.toNat ≤ 32
  | .cvolume channels _ => 1 ≤ channels.toNat
  | .proplist props => ∀ kv ∈ props.toList, TagReader.PropOk kv
  | _ => True

inductive Call where
  | u8 | u32 | u64 | s64 | usec | bool | string | sampleSpec
  | channelMap (cm : ChannelMap)
  | cvolume | timeval | proplist

def Call.read : Call → Get UInt8 Value
  | .u8 => Value.u8 <$> TagReader.getU8
  | .u32 => Value.u32 <$> TagReader.getU32
  | .u64 => Value.u64 <$> TagReader.getU64
  | .s64 => Value.s64 <$> TagReader.getS64
  | .usec => Value.usec <$> TagReader.getUsec
  | .bool => Value.bool <$> TagReader.getBool
  | .string => (fun s => Value.string (if s.2 then none else some s.1)) <$> TagReader.getString
  | .sampleSpec => Value.sampleSpec <$> TagReader.getSampleSpec
  | .channelMap cm => Value.channelMap <$> TagReader.getChannelMap cm
  | .cvolume => (fun v => Value.cvolume v.1 v.2) <$> TagReader.getCVolume
  | .timeval => (fun tv => Value.timeval tv.1 tv.2) <$> TagReader.getTimeval
  | .proplist => Value.proplist <$> TagReader.getProplist ∅

inductive Call.Matches : Call → Value → Prop where
  | u8 (v : UInt8) : Matches .u8 (.u8 v)
  | u32 (v : UInt32) : Matches .u32 (.u32 v)
  | u64 (v : UInt64) : Matches .u64 (.u64 v)
  | s64 (v : Int64) : Matches .s64 (.s64 v)
  | usec (v : UInt64) : Matches .usec (.usec v)
  | bool (v : Bool) : Matches .bool (.bool v)
  | string (s : Option (List UInt8)) : Matches .string (.string s)
  | sampleSpec (ss : SampleSpec) : Matches .sampleSpec (.sampleSpec ss)
  | channelMap (cm₀ cm : ChannelMap) : Matches (.channelMap cm₀) (.channelMap cm)
  | cvolume (channels : UInt8) (value : UInt32) : Matches .cvolume (.cvolume channels value)
  | timeval (sec us : UInt32) : Matches .timeval (.timeval sec us)
  | proplist (props : Props) : Matches .proplist (.proplist props)

def Value.Same : Value → Value → Prop
  | .channelMap cm, .channelMap cm' =>
    cm.channels = cm'.channels ∧ ∀ i, ∀ h : i < 32, i < cm.channels.toNat → cm.map[i] = cm'.map[i]
  | v, v' => v = v'

theorem Call.reads {c : Call} {v : Value} (hc : c.Matches v) (hv : v.Writable) :
    ∃ v', Reads c.read v.bytes v' ∧ v.Same v' := by
  have mapped : ∀ {α : Type} {g : Get UInt8 α} {w : List UInt8} {a : α} (f : α → Value),
      Reads g w a → Reads (f <$> g) w (f a) := fun f h => by
    rw [map_eq_pure_bind]
    exact h.map
  cases hc with
  | u8 v => exact ⟨_, mapped _ (TagReader.reads_tagged (Reads.take v)), rfl⟩
  | u32 v => exact ⟨_, mapped _ (TagReader.reads_tagged (TagReader.reads_take32 v)), rfl⟩
  | u64 v | usec v => exact ⟨_, mapped _ (TagReader.reads_tagged (TagReader.reads_take64 v)), rfl⟩
  | s64 v =>
    refine ⟨_, mapped _ (TagReader.reads_tagged (TagReader.reads_take64 v.toUInt64).map), ?_⟩
    simp [Value.Same]
  | bool v =>
    refine ⟨.bool v, mapped _ ?_, rfl⟩
    cases v with
    | true =>
      refine (Reads.take Tag.booleanTrue.byte).bind (v := []) ?_
      rw [if_pos rfl]
      exact Reads.pure true
    | false =>
      refine (Reads.take Tag.booleanFalse.byte).bind (v := []) ?_
      rw [if_neg (by decide), if_pos rfl]
      exact Reads.pure false
  | string s =>
    cases s with
    | none => exact ⟨_, mapped _ TagReader.reads_getString_null, rfl⟩
    | some s => exact ⟨_, mapped _ (TagReader.reads_getString hv), rfl⟩
  | sampleSpec ss =>
    refine ⟨_, mapped _ (TagReader.reads_tagged ((Reads.take ss.format).bind
      ((Reads.take ss.channels).bind (TagReader.reads_take32 ss.rate).map))), rfl⟩
  | channelMap cm₀ cm =>
    obtain ⟨map, htake, hreads⟩ := @TagReader.reads_getChannelMap cm₀ cm.channels
      ((List.range cm.channels.toNat).map fun i => cm.map.toList.getD i 0) (by simp) hv
    refine ⟨_, mapped _ hreads, rfl, fun i h32 hi => ?_⟩
    have hget := congrArg (·[i]?) htake
    simpa [hi, h32] using hget.symm
  | cvolume channels value => exact ⟨_, mapped _ (TagReader.reads_getCVolume value hv), rfl⟩
  | timeval sec us =>
    refine ⟨_, mapped _ (TagReader.reads_tagged ((TagReader.reads_take32 sec).bind
      (TagReader.reads_take32 us).map)), rfl⟩
  | proplist props => exact ⟨_, mapped _ (TagReader.reads_getProplist hv), rfl⟩

theorem reads_mapM {cs : List Call} {vs : List Value} (hc : List.Forall₂ Call.Matches cs vs)
    (hv : ∀ v ∈ vs, v.Writable) : ∃ vs', Reads (cs.mapM Call.read) (vs.flatMap Value.bytes) vs' ∧
      List.Forall₂ Value.Same vs vs' := by
  induction hc with
  | nil => exact ⟨[], by simpa using Reads.pure (β := UInt8) ([] : List Value), .nil⟩
  | cons h _ ih =>
    obtain ⟨v', hr, hs⟩ := Call.reads h (hv _ (by simp))
    obtain ⟨vs', hrs, hss⟩ := ih fun v h => hv v (by simp [h])
    refine ⟨v' :: vs', ?_, .cons hs hss⟩
    rw [List.mapM_cons, List.flatMap_cons]
    exact hr.bind (hrs.map (f := fun vs => v' :: vs))

/-- **The tagstruct round trip.** The matching calls in the same order all succeed, answer the same
values and leave the reader at the end of the bytes. -/
theorem tagstruct_round_trip {vs : List Value} {cs : List Call} (hv : ∀ v ∈ vs, v.Writable)
    (hc : List.Forall₂ Call.Matches cs vs) :
    ∃ vs' r, cs.mapM Call.read ⟨(vs.foldl TagWriter.put {}).buf, 0, false⟩ = (some vs', r) ∧
      List.Forall₂ Value.Same vs vs' ∧ TagReader.eof r = true := by
  obtain ⟨vs', hr, hs⟩ := reads_mapM hc hv
  rw [TagWriter.foldl_buf TagWriter.put_buf, List.nil_append]
  exact ⟨vs', _, hr.whole, hs, by simp [TagReader.eof]⟩

def sampleValues : List Value :=
  [.u8 7, .u32 0xFFFFFFFF, .u64 0x0123456789ABCDEF, .s64 (-1), .usec 20000, .bool true,
    .string none, .string (some []), .string (some [104, 105]), .sampleSpec {}, .channelMap {},
    .cvolume 2 volumeNorm, .timeval 1 2, .proplist ((∅ : Props).insert [107] [118, 0, 119, 0])]

def sampleCalls : List Call :=
  [.u8, .u32, .u64, .s64, .usec, .bool, .string, .string, .string, .sampleSpec, .channelMap {},
    .cvolume, .timeval, .proplist]

theorem sampleValues_writable : ∀ v ∈ sampleValues, v.Writable := by
  simp only [sampleValues, List.forall_mem_cons, List.not_mem_nil, false_implies, implies_true,
    and_true]
  refine ⟨trivial, trivial, trivial, trivial, trivial, trivial, trivial, by simp [Value.Writable],
    by simp [Value.Writable], trivial, by simp [Value.Writable], by simp [Value.Writable], trivial,
    ?_⟩
  rintro ⟨k, v⟩ h
  rw [Std.ExtTreeMap.mem_toList_iff_getElem?_eq_some, Std.ExtTreeMap.getElem?_insert] at h
  split at h
  · next hk =>
      obtain rfl := Std.LawfulEqCmp.eq_of_compare hk
      cases h
      exact ⟨by decide, by decide⟩
  · simp at h

theorem sampleCalls_match : List.Forall₂ Call.Matches sampleCalls sampleValues := by
  simp only [sampleCalls, sampleValues, List.forall₂_cons, List.forall₂_nil_left_iff, and_true]
  exact ⟨.u8 _, .u32 _, .u64 _, .s64 _, .usec _, .bool _, .string _, .string _, .string _,
    .sampleSpec _, .channelMap _ _, .cvolume _ _, .timeval _ _, .proplist _⟩

theorem tagstruct_round_trip_sample :
    ∃ vs' r, sampleCalls.mapM Call.read ⟨(sampleValues.foldl TagWriter.put {}).buf, 0, false⟩ =
        (some vs', r) ∧
      List.Forall₂ Value.Same sampleValues vs' ∧ TagReader.eof r = true :=
  tagstruct_round_trip sampleValues_writable sampleCalls_match

end OniroSoc.Audio

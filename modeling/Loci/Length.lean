import Loci.Object

/-!
# Length codecs

Most objects record their length in a 16-bit field at a fixed offset from their start: the
TLV16 objects at 2, the objects led by a `uint16` length at 0, meter stats at 4, and packet
queues at 4 or 8 depending on the version. These accessors are one codec with the offset as
its parameter. A whole message keeps its length in the message header at the start of the
buffer, and a meter band stats list has no length field at all: its length is derived from
its meter stats parent.

## Main definitions

* `Loci.u16LengthGet` / `Loci.u16LengthSet` — the 16-bit length codec
* `Loci.LengthCodecLaw` — a length setter is read back by its getter and writes only its field
* `Loci.LengthWrapLaw` — so is every `int` length, cut to its low 16 bits
* `Loci.RegisterLaw` — re-storing the length read changes nothing, a store is read back cut to
  16 bits, and the last store wins

## Main results

* `u16Length_lengthCodecLaw` — every offset gives a lawful codec
* `u16_length_codecs_lawful` — the four 16-bit length codecs of the source are lawful, and a
  packet queue length written in one version is invisible to the other side of 1.2
* `ofObjectMessageWire_lengthCodecLaw` — the message length codec is lawful at the header's
  length field, wherever the object lies in the message
* `length_setters_wrap` — no length setter asserts its range: a length outside 16 bits is
  stored cut to 16 bits
* `length_fields_are_registers` — every length field of the file is a register
* `ofListMeterBandStatsWireLengthGet_eq_some_iff` — the list length is defined exactly under
  a meter stats parent
-/

namespace Loci

/-! ### Whole messages -/

/-- Modelled from the spec: the offset of the length in the message header. -/
def ofMessageLengthOffset : Nat := 2

/-- `of_object_message_wire_length_get`: the message header's length, read at the start of
the buffer (`OF_OBJECT_TO_MESSAGE`) whatever the object's own offset. -/
def ofObjectMessageWireLengthGet (obj : OfObject) : Option Int :=
  (obj.wbuf.bind (·.u16Get ofMessageLengthOffset)).map Int.ofNat

/-- `of_object_message_wire_length_set`. -/
def ofObjectMessageWireLengthSet (obj : OfObject) (bytes : Int) : Option OfObject :=
  obj.wbuf.bind fun wbuf =>
    (wbuf.u16Set ofMessageLengthOffset (bytes % 2 ^ 16).toNat).map obj.withWbuf

/-! ### The 16-bit length codec -/

/-- `TLV16_WIRE_LENGTH_OFFSET`. -/
def tlv16WireLengthOffset : Nat := 2

/-- `OF_U16_LEN_LENGTH_OFFSET`. -/
def ofU16LenLengthOffset : Nat := 0

/-- `OF_PACKET_QUEUE_LENGTH_OFFSET`: 8 from version 1.2 on, 4 before. -/
def ofPacketQueueLengthOffset (ver : Version) : Nat :=
  if ver.toNat ≥ Version.ofVersion1_2.toNat then 8 else 4

/-- `OF_METER_STATS_LENGTH_OFFSET`. -/
def ofMeterStatsLengthOffset : Nat := 4

/-- The shape of the 16-bit length getters: the `uint16_t` at the version's length offset,
widened to the C `int` it is returned in. -/
def u16LengthGet (lengthOffset : Version → Nat) (obj : OfObject) : Option Int :=
  (obj.fieldGet (lengthOffset obj.version) 2).map Int.ofNat

/-- The shape of the 16-bit length setters: the `int` argument, converted to the `uint16_t`
the store takes, at the version's length offset. -/
def u16LengthSet (lengthOffset : Version → Nat) (obj : OfObject) (bytes : Int) :
    Option OfObject :=
  obj.fieldSet (lengthOffset obj.version) 2 (bytes % 2 ^ 16).toNat

/-- `of_tlv16_wire_length_get`. -/
def ofTlv16WireLengthGet : OfObject → Option Int := u16LengthGet fun _ => tlv16WireLengthOffset

/-- `of_tlv16_wire_length_set`. -/
def ofTlv16WireLengthSet : OfObject → Int → Option OfObject :=
  u16LengthSet fun _ => tlv16WireLengthOffset

/-- `of_u16_len_wire_length_get`. -/
def ofU16LenWireLengthGet : OfObject → Option Int := u16LengthGet fun _ => ofU16LenLengthOffset

/-- `of_u16_len_wire_length_set`. -/
def ofU16LenWireLengthSet : OfObject → Int → Option OfObject :=
  u16LengthSet fun _ => ofU16LenLengthOffset

/-- `of_packet_queue_wire_length_get`. -/
def ofPacketQueueWireLengthGet : OfObject → Option Int := u16LengthGet ofPacketQueueLengthOffset

/-- `of_packet_queue_wire_length_set`. -/
def ofPacketQueueWireLengthSet : OfObject → Int → Option OfObject :=
  u16LengthSet ofPacketQueueLengthOffset

/-- `of_meter_stats_wire_length_get`. -/
def ofMeterStatsWireLengthGet : OfObject → Option Int :=
  u16LengthGet fun _ => ofMeterStatsLengthOffset

/-- `of_meter_stats_wire_length_set`. -/
def ofMeterStatsWireLengthSet : OfObject → Int → Option OfObject :=
  u16LengthSet fun _ => ofMeterStatsLengthOffset

/-- A length codec is lawful at `pos` when, on every object whose buffer holds the two bytes
at `pos obj`, storing any 16-bit length succeeds, is read back, and rewrites only those two
bytes. -/
def LengthCodecLaw (get : OfObject → Option Int) (set : OfObject → Int → Option OfObject)
    (pos : OfObject → Nat) : Prop :=
  ∀ (obj : OfObject) (wbuf : WireBuffer) (n : Int), obj.wbuf = some wbuf →
    pos obj + 2 ≤ wbuf.bytes.length → 0 ≤ n → n < 2 ^ 16 →
      ∃ obj', set obj n = some obj' ∧ get obj' = some n ∧ obj'.ChangesOnly obj (pos obj) 2

/-- A length codec wraps at `pos` when, on every object whose buffer holds the two bytes at
`pos obj`, storing any `int` succeeds, rewrites only those two bytes, and is read back cut to
16 bits, as the conversion to the store's `uint16_t` argument cuts it. -/
def LengthWrapLaw (get : OfObject → Option Int) (set : OfObject → Int → Option OfObject)
    (pos : OfObject → Nat) : Prop :=
  ∀ (obj : OfObject) (wbuf : WireBuffer) (n : Int), obj.wbuf = some wbuf →
    pos obj + 2 ≤ wbuf.bytes.length →
      ∃ obj', set obj n = some obj' ∧ get obj' = some (n % 2 ^ 16) ∧
        obj'.ChangesOnly obj (pos obj) 2

/-- A codec that wraps is lawful: a 16-bit length is its own cut. -/
theorem LengthWrapLaw.lengthCodecLaw {get : OfObject → Option Int}
    {set : OfObject → Int → Option OfObject} {pos : OfObject → Nat}
    (wraps : LengthWrapLaw get set pos) : LengthCodecLaw get set pos := by
  intro obj wbuf n hbuf room low high
  obtain ⟨obj', hset, hget, frame⟩ := wraps obj wbuf n hbuf room
  exact ⟨obj', hset, hget.trans (congrArg some (Int.emod_eq_of_lt low high)), frame⟩

/-- A 16-bit length store is read back cut to 16 bits. -/
theorem u16LengthGet_of_u16LengthSet {lengthOffset : Version → Nat} {obj obj' : OfObject}
    {bytes : Int} (h : u16LengthSet lengthOffset obj bytes = some obj') :
    u16LengthGet lengthOffset obj' = some (bytes % 2 ^ 16) := by
  rw [u16LengthGet, OfObject.version_of_fieldSet h, OfObject.fieldGet_of_fieldSet_self h]
  simp only [Option.map_some', Option.some.injEq, Int.ofNat_eq_coe]
  omega

/-- The 16-bit codec wraps at every offset. -/
theorem u16Length_lengthWrapLaw (lengthOffset : Version → Nat) :
    LengthWrapLaw (u16LengthGet lengthOffset) (u16LengthSet lengthOffset)
      fun obj => obj.absoluteOffset (lengthOffset obj.version) := by
  intro obj wbuf n hbuf room
  obtain ⟨obj', hset⟩ :=
    OfObject.exists_fieldSet_of_room (lengthOffset obj.version) 2 (n % 2 ^ 16).toNat hbuf room
  exact ⟨obj', hset, u16LengthGet_of_u16LengthSet hset, OfObject.changesOnly_of_fieldSet hset⟩

/-- The 16-bit codec is lawful at every offset. -/
theorem u16Length_lengthCodecLaw (lengthOffset : Version → Nat) :
    LengthCodecLaw (u16LengthGet lengthOffset) (u16LengthSet lengthOffset)
      fun obj => obj.absoluteOffset (lengthOffset obj.version) :=
  (u16Length_lengthWrapLaw lengthOffset).lengthCodecLaw

/-- A length store is invisible to every 16-bit load two bytes or more away from it. -/
theorem u16LengthGet_of_u16LengthSet_of_disjoint {lengthOffset lengthOffset' : Version → Nat}
    {obj obj' : OfObject} {bytes : Int} (v : Version)
    (h : u16LengthSet lengthOffset obj bytes = some obj')
    (disjoint : lengthOffset' v + 2 ≤ lengthOffset obj.version ∨
      lengthOffset obj.version + 2 ≤ lengthOffset' v) :
    u16LengthGet lengthOffset' { obj' with version := v } =
      u16LengthGet lengthOffset' { obj with version := v } := by
  obtain ⟨_, _, hbuf, hset, rfl⟩ := OfObject.exists_of_fieldSet h
  simp only [u16LengthGet, OfObject.fieldGet, OfObject.withWbuf, hbuf, Option.some_bind]
  rw [WireBuffer.getBe_of_setBe_of_disjoint hset (by simp [OfObject.absoluteOffset]; omega)]
  rfl

/-- The four 16-bit length codecs of the source are lawful at their own offsets, and a packet
queue length written in a version is invisible to a packet queue read in a version on the
other side of 1.2. -/
theorem u16_length_codecs_lawful :
    LengthCodecLaw ofTlv16WireLengthGet ofTlv16WireLengthSet (·.objOffset + 2) ∧
    LengthCodecLaw ofU16LenWireLengthGet ofU16LenWireLengthSet (·.objOffset) ∧
    LengthCodecLaw ofPacketQueueWireLengthGet ofPacketQueueWireLengthSet
      (fun obj =>
        obj.objOffset + if obj.version.toNat ≥ Version.ofVersion1_2.toNat then 8 else 4) ∧
    LengthCodecLaw ofMeterStatsWireLengthGet ofMeterStatsWireLengthSet (·.objOffset + 4) ∧
    ∀ (obj obj' : OfObject) (v : Version) (n : Int),
      (obj.version.toNat ≥ Version.ofVersion1_2.toNat ↔
        v.toNat < Version.ofVersion1_2.toNat) →
      ofPacketQueueWireLengthSet obj n = some obj' →
        ofPacketQueueWireLengthGet { obj' with version := v } =
          ofPacketQueueWireLengthGet { obj with version := v } :=
  ⟨u16Length_lengthCodecLaw _, u16Length_lengthCodecLaw _, u16Length_lengthCodecLaw _,
    u16Length_lengthCodecLaw _, fun _ _ v _ otherSide h =>
      u16LengthGet_of_u16LengthSet_of_disjoint v h (by
        simp only [ofPacketQueueLengthOffset]
        split_ifs <;> omega)⟩

/-- What a successful message length store did: it stored the length, cut to 16 bits, in the
message header at the start of the object's buffer. -/
theorem ofObjectMessageWireLengthSet_eq_some {obj obj' : OfObject} {bytes : Int}
    (h : ofObjectMessageWireLengthSet obj bytes = some obj') :
    ∃ wbuf wbuf', obj.wbuf = some wbuf ∧
      wbuf.setBe ofMessageLengthOffset 2 (bytes % 2 ^ 16).toNat = some wbuf' ∧
      obj' = obj.withWbuf wbuf' := by
  obtain ⟨wbuf, hbuf, hset⟩ := Option.bind_eq_some.mp h
  obtain ⟨wbuf', hstore, rfl⟩ := Option.map_eq_some'.mp hset
  exact ⟨wbuf, wbuf', hbuf, hstore, rfl⟩

/-- A message length store is read back cut to 16 bits. -/
theorem ofObjectMessageWireLengthGet_of_set {obj obj' : OfObject} {bytes : Int}
    (h : ofObjectMessageWireLengthSet obj bytes = some obj') :
    ofObjectMessageWireLengthGet obj' = some (bytes % 2 ^ 16) := by
  obtain ⟨wbuf, wbuf', -, hstore, rfl⟩ := ofObjectMessageWireLengthSet_eq_some h
  simp only [ofObjectMessageWireLengthGet, OfObject.withWbuf_wbuf, Option.some_bind,
    WireBuffer.u16Get_eq, WireBuffer.getBe_of_setBe_self hstore, Option.map_some',
    Option.some.injEq, Int.ofNat_eq_coe]
  omega

/-- The message length codec wraps at the header's length field. -/
theorem ofObjectMessageWire_lengthWrapLaw :
    LengthWrapLaw ofObjectMessageWireLengthGet ofObjectMessageWireLengthSet
      fun _ => ofMessageLengthOffset := by
  intro obj wbuf n hbuf room
  obtain ⟨wbuf', hstore⟩ :
      ∃ wbuf', wbuf.setBe ofMessageLengthOffset 2 (n % 2 ^ 16).toNat = some wbuf' :=
    ⟨_, WireBuffer.setBe_of_le room⟩
  have hset : ofObjectMessageWireLengthSet obj n = some (obj.withWbuf wbuf') := by
    simp only [ofObjectMessageWireLengthSet, hbuf, Option.some_bind, WireBuffer.u16Set_eq,
      hstore, Option.map_some']
  exact ⟨_, hset, ofObjectMessageWireLengthGet_of_set hset,
    ⟨wbuf, wbuf', hbuf, rfl, WireBuffer.length_of_setBe hstore,
      fun _ outside => WireBuffer.getElem?_of_setBe hstore outside⟩⟩

/-- The message length codec is lawful at the header's length field, whatever the object's
own offset. -/
theorem ofObjectMessageWire_lengthCodecLaw :
    LengthCodecLaw ofObjectMessageWireLengthGet ofObjectMessageWireLengthSet
      fun _ => ofMessageLengthOffset :=
  ofObjectMessageWire_lengthWrapLaw.lengthCodecLaw

/-- Every length setter of the file takes any `int` without an assertion on its range: on an
object whose buffer holds the length field the store succeeds, writes only that field, and a
length outside 16 bits, negative or 65536 and above, is read back cut to its low 16 bits. -/
theorem length_setters_wrap :
    LengthWrapLaw ofTlv16WireLengthGet ofTlv16WireLengthSet (·.objOffset + 2) ∧
    LengthWrapLaw ofU16LenWireLengthGet ofU16LenWireLengthSet (·.objOffset) ∧
    LengthWrapLaw ofPacketQueueWireLengthGet ofPacketQueueWireLengthSet
      (fun obj =>
        obj.objOffset + if obj.version.toNat ≥ Version.ofVersion1_2.toNat then 8 else 4) ∧
    LengthWrapLaw ofMeterStatsWireLengthGet ofMeterStatsWireLengthSet (·.objOffset + 4) ∧
    LengthWrapLaw ofObjectMessageWireLengthGet ofObjectMessageWireLengthSet
      fun _ => ofMessageLengthOffset :=
  ⟨u16Length_lengthWrapLaw _, u16Length_lengthWrapLaw _, u16Length_lengthWrapLaw _,
    u16Length_lengthWrapLaw _, ofObjectMessageWire_lengthWrapLaw⟩

/-! ### Length fields as registers -/

/-- A length codec behaves as a 16-bit register: storing the length just read changes
nothing, a store is read back cut to 16 bits, and of two stores the second wins. -/
def RegisterLaw (get : OfObject → Option Int) (set : OfObject → Int → Option OfObject) :
    Prop :=
  (∀ obj n, get obj = some n → set obj n = some obj) ∧
    (∀ obj obj' n, set obj n = some obj' → get obj' = some (n % 2 ^ 16)) ∧
    ∀ obj obj' n m, set obj n = some obj' → set obj' m = set obj m

/-- The 16-bit codec is a register at every offset. -/
theorem u16Length_registerLaw (lengthOffset : Version → Nat) :
    RegisterLaw (u16LengthGet lengthOffset) (u16LengthSet lengthOffset) := by
  refine ⟨fun obj n h => ?_, fun _ _ _ => u16LengthGet_of_u16LengthSet, fun obj obj' n m h => ?_⟩
  · obtain ⟨k, hget, rfl⟩ := Option.map_eq_some'.mp h
    have fits : k < 256 ^ 2 := OfObject.fieldGet_lt hget
    have stored : ((Int.ofNat k) % 2 ^ 16).toNat = k := by simp only [Int.ofNat_eq_coe]; omega
    rw [u16LengthSet, stored, OfObject.fieldSet_of_fieldGet hget]
  · rw [u16LengthSet, OfObject.version_of_fieldSet h, OfObject.fieldSet_of_fieldSet_self h]
    rfl

/-- The message length codec is a register. -/
theorem ofObjectMessageWire_registerLaw :
    RegisterLaw ofObjectMessageWireLengthGet ofObjectMessageWireLengthSet := by
  refine ⟨fun obj n h => ?_, fun _ _ _ => ofObjectMessageWireLengthGet_of_set,
    fun obj obj' n m h => ?_⟩
  · obtain ⟨k, hget, rfl⟩ := Option.map_eq_some'.mp h
    obtain ⟨wbuf, hbuf, hload⟩ := Option.bind_eq_some.mp hget
    have fits : k < 256 ^ 2 := WireBuffer.getBe_lt hload
    have stored : ((Int.ofNat k) % 2 ^ 16).toNat = k := by simp only [Int.ofNat_eq_coe]; omega
    rw [ofObjectMessageWireLengthSet, hbuf, Option.some_bind, stored, WireBuffer.u16Set_eq,
      WireBuffer.setBe_of_getBe hload, Option.map_some', OfObject.withWbuf_self hbuf]
  · obtain ⟨wbuf, wbuf', hbuf, hstore, rfl⟩ := ofObjectMessageWireLengthSet_eq_some h
    simp only [ofObjectMessageWireLengthSet, hbuf, OfObject.withWbuf_wbuf, Option.some_bind,
      WireBuffer.u16Set_eq, WireBuffer.setBe_of_setBe_self hstore]
    rfl

/-- Every length field of the file is a register: the four 16-bit codecs and the message
header's length. -/
theorem length_fields_are_registers :
    RegisterLaw ofTlv16WireLengthGet ofTlv16WireLengthSet ∧
    RegisterLaw ofU16LenWireLengthGet ofU16LenWireLengthSet ∧
    RegisterLaw ofPacketQueueWireLengthGet ofPacketQueueWireLengthSet ∧
    RegisterLaw ofMeterStatsWireLengthGet ofMeterStatsWireLengthSet ∧
    RegisterLaw ofObjectMessageWireLengthGet ofObjectMessageWireLengthSet :=
  ⟨u16Length_registerLaw _, u16Length_registerLaw _, u16Length_registerLaw _,
    u16Length_registerLaw _, ofObjectMessageWire_registerLaw⟩

/-! ### Meter band stats lists -/

/-- `of_list_meter_band_stats_wire_length_get`: a meter band stats list has no length field;
its length is its meter stats parent's length less the parent's fixed part. -/
def ofListMeterBandStatsWireLengthGet (T : TypeMaps) (obj : OfObject) : Option Int :=
  obj.parent.bind fun parent =>
    if parent.objectId = .ofMeterStats then some (parent.length - ofObjectFixedLength T parent)
    else none

/-- The list length is defined exactly under a meter stats parent, and is then the parent's
variable part. -/
theorem ofListMeterBandStatsWireLengthGet_eq_some_iff {T : TypeMaps} {obj : OfObject}
    {bytes : Int} :
    ofListMeterBandStatsWireLengthGet T obj = some bytes ↔
      ∃ parent, obj.parent = some parent ∧ parent.objectId = .ofMeterStats ∧
        bytes = parent.length - ofObjectFixedLength T parent := by
  simp only [ofListMeterBandStatsWireLengthGet, Option.bind_eq_some]
  constructor
  · rintro ⟨parent, hparent, hlen⟩
    split_ifs at hlen with meter
    exact ⟨parent, hparent, meter, (Option.some.inj hlen).symm⟩
  · rintro ⟨parent, hparent, meter, rfl⟩
    exact ⟨parent, hparent, if_pos meter⟩

end Loci

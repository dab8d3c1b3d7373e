import Loci.Tlv16
import Loci.OxmRefinement

/-!
# Object headers as registers

An object reaches its wire header through the accessors its class's wire callbacks point at,
and every set of them lives in this file: the TLV16 families use the TLV16 length accessors
with their family's identity getter and `of_tlv16_wire_object_id_set`, OXM match fields the
OXM accessors, and the classes whose identity is not on the wire a length codec alone, at
offset 0, at the packet queue or meter stats offset, or in the message header. Through its
class an object's header is two registers, the identity the class reads and the length
(`Loci.WireHeader`), and each setter call is a write to one of them (`Loci.WireOp.spec`).

Every class implements the two registers on one object. Let the object's window, a run of
bytes from its start, lie in its buffer and hold the class's fields. Then a supported call
succeeds, writes its register, and changes no byte outside the window, and the registers read
no byte outside it.

## Main definitions

* `Loci.WireHeader`, `Loci.WireOp`, `Loci.WireOp.spec` — the abstract header and its writes
* `Loci.WireClass` — the classes; `WireClass.apply` makes a call through a class's setters and
  `WireClass.view` reads the header through its getters
* `WireClass.Supported`, `WireClass.Placed` — the calls a class supports, and where the
  window must hold its fields
* `Loci.TypeMaps.ReadsBack` — a TLV16 identity its family reads back over any buffer content

## Main results

* `ofTlv16WireObjectIdSet_spec` — such an identity is stored, read back, and written inside the
  window
* `WireClass.apply_spec` — a supported call writes its register and nothing outside the window
* `WireClass.view_congr` — the registers read nothing outside the window
* `identity_setters_idempotent` — re-storing the identity a buffer holds rewrites no byte
-/

namespace Loci

/-! ### Registers -/

/-- The abstract header of an object: the identity its class reads and its length, each
`none` where the getter fails. A length holds at most 16 bits. -/
@[ext] structure WireHeader where
  objectId : Option ObjectId
  length : Option Int
  length_mem : ∀ n ∈ length, 0 ≤ n ∧ n < 2 ^ 16

/-- A call of one of an object's header setters. -/
inductive WireOp where
  /-- The class's length setter, `wire_length_set(obj, bytes)`. -/
  | setLength (bytes : Int)
  /-- The class's identity setter, `wire_object_id_set(obj, id)`. -/
  | setObjectId (id : ObjectId)
  deriving DecidableEq, Repr

/-- The call on the abstract header: the identity, or the length cut to the 16 bits of its
field, replaces its register. -/
def WireOp.spec : WireOp → WireHeader → WireHeader
  | .setLength bytes, hdr =>
    { hdr with
      length := some (bytes % 2 ^ 16)
      length_mem := fun _ stored => by cases stored; omega }
  | .setObjectId id, hdr => { hdr with objectId := some id }

/-- A sequence of calls on the abstract header. -/
def wireSpecRun (hdr : WireHeader) (ops : List WireOp) : WireHeader :=
  ops.foldl (fun hdr op => op.spec hdr) hdr

@[simp] theorem wireSpecRun_nil (hdr : WireHeader) : wireSpecRun hdr [] = hdr := rfl

@[simp] theorem wireSpecRun_cons (hdr : WireHeader) (op : WireOp) (ops : List WireOp) :
    wireSpecRun hdr (op :: ops) = wireSpecRun (op.spec hdr) ops := rfl

/-! ### Every length getter returns 16 bits -/

section LengthBounds

variable {obj : OfObject} {n : Int}

theorem u16LengthGet_mem (lengthOffset : Version → Nat)
    (h : u16LengthGet lengthOffset obj = some n) : 0 ≤ n ∧ n < 2 ^ 16 := by
  obtain ⟨k, hk, rfl⟩ := Option.map_eq_some'.mp h
  have fits : k < 256 ^ 2 := OfObject.fieldGet_lt hk
  simp only [Int.ofNat_eq_coe]
  omega

theorem ofOxmWireLengthGet_mem (h : ofOxmWireLengthGet obj = some n) : 0 ≤ n ∧ n < 2 ^ 16 := by
  obtain ⟨typeLen, -, rfl⟩ := Option.map_eq_some'.mp h
  rw [ofOxmLengthGet_eq]
  omega

theorem ofObjectMessageWireLengthGet_mem (h : ofObjectMessageWireLengthGet obj = some n) :
    0 ≤ n ∧ n < 2 ^ 16 := by
  obtain ⟨k, hk, rfl⟩ := Option.map_eq_some'.mp h
  obtain ⟨wbuf, -, hload⟩ := Option.bind_eq_some.mp hk
  have fits : k < 256 ^ 2 := WireBuffer.getBe_lt hload
  simp only [Int.ofNat_eq_coe]
  omega

end LengthBounds

/-! ### The classes -/

/-- Family `F` reads `id` back once it is stored, whatever the buffer held before: the tables
agree on `id` in the version, and it is not the generic experimenter action or action
identifier, for which the setter writes no vendor bytes. -/
def TypeMaps.ReadsBack (T : TypeMaps) (F : Tlv16Family) (v : Version) (id : ObjectId) : Prop :=
  T.Consistent F v id ∧ id ≠ .ofActionExperimenter ∧ id ≠ .ofActionIdExperimenter

/-- The object classes, by the accessors of this file their wire callbacks reach: the seven
TLV16 families, OXM match fields, and the classes without an identity on the wire, whose
length is a 16-bit field at offset 0, at the packet queue offset, at the meter stats offset,
or the whole message's. -/
inductive WireClass where
  | tlv16 (F : Tlv16Family)
  | oxm
  | u16Len
  | packetQueue
  | meterStats
  | message
  deriving DecidableEq, Repr

namespace WireClass

/-- The class's length getter. -/
def lengthGet : WireClass → OfObject → Option Int
  | tlv16 _ => ofTlv16WireLengthGet
  | oxm => ofOxmWireLengthGet
  | u16Len => ofU16LenWireLengthGet
  | packetQueue => ofPacketQueueWireLengthGet
  | meterStats => ofMeterStatsWireLengthGet
  | message => ofObjectMessageWireLengthGet

/-- The class's length setter. -/
def lengthSet : WireClass → OfObject → Int → Option OfObject
  | tlv16 _ => ofTlv16WireLengthSet
  | oxm => ofOxmWireLengthSet
  | u16Len => ofU16LenWireLengthSet
  | packetQueue => ofPacketQueueWireLengthSet
  | meterStats => ofMeterStatsWireLengthSet
  | message => ofObjectMessageWireLengthSet

variable (T : TypeMaps)

/-- The class's identity getter. A class without an identity on the wire reads none. -/
def objectIdGet : WireClass → OfObject → Option ObjectId
  | tlv16 F => F.wireObjectIdGet T
  | oxm => ofOxmWireObjectIdGet T
  | _ => fun _ => none

/-- The class's identity setter. A class without an identity on the wire has none, and the
call fails. -/
def objectIdSet : WireClass → OfObject → ObjectId → Option OfObject
  | tlv16 _ => ofTlv16WireObjectIdSet T
  | oxm => ofOxmWireObjectIdSet T
  | _ => fun _ _ => none

theorem lengthGet_mem (c : WireClass) {obj : OfObject} {n : Int}
    (h : c.lengthGet obj = some n) : 0 ≤ n ∧ n < 2 ^ 16 := by
  cases c
  case tlv16 => exact u16LengthGet_mem (fun _ => tlv16WireLengthOffset) h
  case oxm => exact ofOxmWireLengthGet_mem h
  case u16Len => exact u16LengthGet_mem (fun _ => ofU16LenLengthOffset) h
  case packetQueue => exact u16LengthGet_mem ofPacketQueueLengthOffset h
  case meterStats => exact u16LengthGet_mem (fun _ => ofMeterStatsLengthOffset) h
  case message => exact ofObjectMessageWireLengthGet_mem h

/-- The header an object denotes through its class's getters. -/
def view (c : WireClass) (obj : OfObject) : WireHeader where
  objectId := c.objectIdGet T obj
  length := c.lengthGet obj
  length_mem _ := c.lengthGet_mem

/-- A call through the class's setters. -/
def apply (c : WireClass) (obj : OfObject) : WireOp → Option OfObject
  | .setLength bytes => c.lengthSet obj bytes
  | .setObjectId id => c.objectIdSet T obj id

/-- The calls a class supports on an object of version `v` whose window has `extent` bytes.
A TLV16 identity must be read back by the family whatever the buffer held, and its
experimenter header, if it has one, must fit the window; an OXM length must pass the setter's
8-bit assertion, and an OXM identity must be valid with a wire type the OXM table maps back
to it. The other classes take any length and no identity. -/
def Supported (v : Version) (extent : Nat) : WireClass → WireOp → Prop
  | tlv16 F, .setObjectId id =>
    T.ReadsBack F v id ∧ (T.ofObjectToTypeMap v id = T.ofExperimenterType → 12 ≤ extent)
  | oxm, .setLength bytes => 0 ≤ bytes ∧ bytes < 256
  | oxm, .setObjectId id => T.OxmValidIn v id
  | _, .setLength _ => True
  | _, .setObjectId _ => False

/-- The window of `extent` bytes from the object's start holds the class's fields: the TLV16
type and length, and the experimenter header too unless the type is another one; the OXM
header word; the 16-bit length of the other families at its offset; and for a message the
length in the message header at the start of the buffer. -/
def Placed (extent : Nat) : WireClass → OfObject → Prop
  | tlv16 _, obj =>
    4 ≤ extent ∧ (extent < 12 → ofTlv16WireTypeGet obj ≠ some T.ofExperimenterType)
  | oxm, _ => 4 ≤ extent
  | u16Len, _ => ofU16LenLengthOffset + 2 ≤ extent
  | packetQueue, obj => ofPacketQueueLengthOffset obj.version + 2 ≤ extent
  | meterStats, _ => ofMeterStatsLengthOffset + 2 ≤ extent
  | message, obj =>
    obj.objOffset ≤ ofMessageLengthOffset ∧ ofMessageLengthOffset + 2 ≤ obj.objOffset + extent

instance (extent : Nat) : (c : WireClass) → (obj : OfObject) → Decidable (c.Placed T extent obj)
  | tlv16 _, obj => inferInstanceAs (Decidable
      (4 ≤ extent ∧ (extent < 12 → ofTlv16WireTypeGet obj ≠ some T.ofExperimenterType)))
  | oxm, _ => inferInstanceAs (Decidable (4 ≤ extent))
  | u16Len, _ => inferInstanceAs (Decidable (ofU16LenLengthOffset + 2 ≤ extent))
  | packetQueue, obj =>
    inferInstanceAs (Decidable (ofPacketQueueLengthOffset obj.version + 2 ≤ extent))
  | meterStats, _ => inferInstanceAs (Decidable (ofMeterStatsLengthOffset + 2 ≤ extent))
  | message, obj => inferInstanceAs (Decidable (obj.objOffset ≤ ofMessageLengthOffset ∧
      ofMessageLengthOffset + 2 ≤ obj.objOffset + extent))

end WireClass

open WireClass

/-- Two buffers of one extent that agree on an object's window give every field inside the
window one value. -/
theorem fieldGet_withWbuf_of_window {obj : OfObject} {wbuf wbuf' : WireBuffer}
    {extent offset width : Nat} (sameLength : wbuf'.bytes.length = wbuf.bytes.length)
    (agree : ∀ k, obj.objOffset ≤ k → k < obj.objOffset + extent →
      wbuf'.bytes[k]? = wbuf.bytes[k]?)
    (inside : offset + width ≤ extent) :
    (obj.withWbuf wbuf').fieldGet offset width = (obj.withWbuf wbuf).fieldGet offset width :=
  OfObject.fieldGet_withWbuf_congr obj sameLength fun k start stop =>
    agree k (by omega) (by omega)

variable {T : TypeMaps} {obj : OfObject} {wbuf wbuf' : WireBuffer} {extent : Nat}

/-! ### TLV16 objects -/

section Tlv16

variable {F : Tlv16Family}

/-- A supported identity is stored whatever the buffer held: on an object whose window lies in
its buffer the setter succeeds, the family's getter reads the identity back, and the setter
writes inside the window only, leaving a window too short for an experimenter header without
`OF_EXPERIMENTER_TYPE`. -/
theorem ofTlv16WireObjectIdSet_spec {id : ObjectId} (reads : T.ReadsBack F obj.version id)
    (long : T.ofObjectToTypeMap obj.version id = T.ofExperimenterType → 12 ≤ extent)
    (hbuf : obj.wbuf = some wbuf) (room : obj.objOffset + extent ≤ wbuf.bytes.length)
    (two : 2 ≤ extent) :
    ∃ obj', ofTlv16WireObjectIdSet T obj id = some obj' ∧ F.wireObjectIdGet T obj' = some id ∧
      obj'.ChangesOnly obj obj.objOffset extent ∧
      (extent < 12 → ofTlv16WireTypeGet obj' ≠ some T.ofExperimenterType) := by
  obtain ⟨consistent, notAction, notActionId⟩ := reads
  have ⟨wireType, hw, _, onExperimenter, _⟩ := consistent
  have long : wireType = T.ofExperimenterType → 12 ≤ extent := fun experimenter =>
    long (by rw [hw, experimenter])
  obtain ⟨obj', hset, htype, frame, hget⟩ := exists_ofTlv16WireObjectIdSet consistent hw hbuf
    (by omega) fun experimenter e hentry => by
      have := (extensionEntry_fits T hentry).2.2
      have := long experimenter
      omega
  have written : (if wireType = T.ofExperimenterType then 12 else 2) ≤ extent := by
    split_ifs with experimenter
    exacts [long experimenter, two]
  refine ⟨obj', hset, ?_, frame.mono le_rfl (Nat.add_le_add_left written _), fun short same => ?_⟩
  · rw [hget]
    split_ifs with generic
    · exact Tlv16Family.experimenterObjectIdGet_of_unregistered (onExperimenter generic.1)
        generic.2 notAction notActionId
    · rfl
  · have := long (Option.some.inj (htype.symm.trans same))
    omega

theorem tlv16_apply_spec {op : WireOp} (supported : (tlv16 F).Supported T obj.version extent op)
    (hbuf : obj.wbuf = some wbuf) (room : obj.objOffset + extent ≤ wbuf.bytes.length)
    (placed : (tlv16 F).Placed T extent obj) :
    ∃ obj', (tlv16 F).apply T obj op = some obj' ∧
      (tlv16 F).view T obj' = op.spec ((tlv16 F).view T obj) ∧
      obj'.ChangesOnly obj obj.objOffset extent ∧ (tlv16 F).Placed T extent obj' := by
  obtain ⟨four, short⟩ := placed
  cases op with
  | setLength bytes =>
    obtain ⟨obj', hset, hget, lengthOnly⟩ := u16Length_lengthWrapLaw
      (fun _ => tlv16WireLengthOffset) obj wbuf bytes hbuf
      (by simp only [OfObject.absoluteOffset, tlv16WireLengthOffset]; omega)
    have apart : ∀ offset width, offset + width ≤ 2 ∨ 4 ≤ offset →
        obj'.fieldGet offset width = obj.fieldGet offset width := fun _ _ away =>
      OfObject.fieldGet_of_fieldSet_of_disjoint hset (by simp only [tlv16WireLengthOffset]; omega)
    have sameType : ofTlv16WireTypeGet obj' = ofTlv16WireTypeGet obj := apart 0 2 (.inl le_rfl)
    exact ⟨obj', hset,
      WireHeader.ext (Tlv16Family.wireObjectIdGet_congr (OfObject.version_of_fieldSet hset) apart)
        hget,
      lengthOnly.mono (by simp [OfObject.absoluteOffset])
        (by simp [OfObject.absoluteOffset, tlv16WireLengthOffset]; omega),
      four, fun s => sameType ▸ short s⟩
  | setObjectId id =>
    obtain ⟨obj', hset, hget, frame, short'⟩ :=
      ofTlv16WireObjectIdSet_spec supported.1 supported.2 hbuf room (by omega)
    have between := (ofTlv16WireObjectIdSet_frame hset).2 tlv16WireLengthOffset 2 le_rfl le_rfl
    exact ⟨obj', hset, WireHeader.ext hget (congrArg (Option.map Int.ofNat) between), frame,
      four, short'⟩

/-- A TLV16 header reads only the version and the window, when the window holds the type and
the length, and the experimenter header too unless the type is another one. -/
theorem tlv16_view_congr (placed : (tlv16 F).Placed T extent (obj.withWbuf wbuf))
    (room : obj.objOffset + extent ≤ wbuf.bytes.length)
    (sameLength : wbuf'.bytes.length = wbuf.bytes.length)
    (agree : ∀ k, obj.objOffset ≤ k → k < obj.objOffset + extent →
      wbuf'.bytes[k]? = wbuf.bytes[k]?) :
    (tlv16 F).view T (obj.withWbuf wbuf') = (tlv16 F).view T (obj.withWbuf wbuf) ∧
      (tlv16 F).Placed T extent (obj.withWbuf wbuf') := by
  obtain ⟨four, short⟩ := placed
  have fields : ∀ offset width, offset + width ≤ extent →
      (obj.withWbuf wbuf').fieldGet offset width = (obj.withWbuf wbuf).fieldGet offset width :=
    fun _ _ => fieldGet_withWbuf_of_window sameLength agree
  have sameType :
      ofTlv16WireTypeGet (obj.withWbuf wbuf') = ofTlv16WireTypeGet (obj.withWbuf wbuf) :=
    fields 0 2 (by omega)
  refine ⟨WireHeader.ext ?_ (congrArg (Option.map Int.ofNat) (fields 2 2 four)), four,
    fun s => sameType ▸ short s⟩
  show F.wireObjectIdGet T (obj.withWbuf wbuf') = F.wireObjectIdGet T (obj.withWbuf wbuf)
  by_cases long : 12 ≤ extent
  · exact Tlv16Family.wireObjectIdGet_congr_header rfl fun offset width inside =>
      fields offset width (by omega)
  · obtain ⟨t, ht⟩ : ∃ t, ofTlv16WireTypeGet (obj.withWbuf wbuf) = some t :=
      OfObject.exists_fieldGet_of_room tlv16WireTypeOffset 2 (OfObject.withWbuf_wbuf obj wbuf)
        (by simp only [OfObject.withWbuf_objOffset, tlv16WireTypeOffset]; omega)
    have other : t ≠ T.ofExperimenterType := fun same =>
      short (by omega) (ht.trans (congrArg some same))
    rw [Tlv16Family.wireObjectIdGet_of_ne (sameType.trans ht) other,
      Tlv16Family.wireObjectIdGet_of_ne ht other]
    rfl

end Tlv16

/-! ### OXM match fields -/

section Oxm

/-- The call as a call of the OXM setters. -/
def WireOp.toOxmOp : WireOp → OxmOp
  | .setLength bytes => .setLength bytes
  | .setObjectId id => .setObjectId id

theorem oxm_apply_eq (op : WireOp) : oxm.apply T obj op = op.toOxmOp.apply T obj := by
  cases op <;> rfl

theorem oxm_apply_spec {op : WireOp} (supported : oxm.Supported T obj.version extent op)
    (hbuf : obj.wbuf = some wbuf) (room : obj.objOffset + extent ≤ wbuf.bytes.length)
    (four : oxm.Placed T extent obj) :
    ∃ obj', oxm.apply T obj op = some obj' ∧ oxm.view T obj' = op.spec (oxm.view T obj) ∧
      obj'.ChangesOnly obj obj.objOffset extent := by
  have four : 4 ≤ extent := four
  obtain ⟨hdr, hhdr⟩ := Option.isSome_iff_exists.mp
    ((oxmHeader_isSome_iff hbuf).mpr (le_trans (Nat.add_le_add_left four _) room))
  obtain ⟨hdr', hspec, hview⟩ : ∃ hdr', op.toOxmOp.spec T obj.version hdr = some hdr' ∧
      ∀ obj', obj'.version = obj.version → oxmHeader obj' = some hdr' →
        oxm.view T obj' = op.spec (oxm.view T obj) := by
    cases op with
    | setLength bytes =>
      have valid : 0 ≤ bytes ∧ bytes < 256 := supported
      refine ⟨_, dif_pos valid, fun obj' sameVersion hnew => WireHeader.ext ?_ ?_⟩
      · show ofOxmWireObjectIdGet T obj' = ofOxmWireObjectIdGet T obj
        rw [ofOxmWireObjectIdGet_eq_oxmHeader, ofOxmWireObjectIdGet_eq_oxmHeader, hnew, hhdr,
          sameVersion]
        rfl
      · show ofOxmWireLengthGet obj' = some (bytes % 2 ^ 16)
        rw [ofOxmWireLengthGet_eq_oxmHeader, hnew, Option.map_some', Option.some.injEq]
        show (bytes.toNat : Int) = bytes % 2 ^ 16
        omega
    | setObjectId id =>
      obtain ⟨valid, typed, maps⟩ := supported
      refine ⟨_, dif_pos ⟨valid, typed⟩, fun obj' sameVersion hnew => WireHeader.ext ?_ ?_⟩
      · show ofOxmWireObjectIdGet T obj' = some id
        rw [ofOxmWireObjectIdGet_eq_oxmHeader, hnew, sameVersion, Option.map_some']
        exact congrArg some maps
      · show ofOxmWireLengthGet obj' = ofOxmWireLengthGet obj
        rw [ofOxmWireLengthGet_eq_oxmHeader, ofOxmWireLengthGet_eq_oxmHeader, hnew, hhdr]
        rfl
  obtain ⟨obj', happly, hnew⟩ := Option.bind_eq_some.mp
    ((OxmOp.apply_refines op.toOxmOp).trans (by rw [hhdr, Option.some_bind, hspec]))
  have frame := OxmOp.changesOnly_of_apply happly
  exact ⟨obj', (oxm_apply_eq op).trans happly, hview obj' frame.version_eq hnew,
    frame.mono le_rfl (by omega)⟩

/-- An OXM header reads only the version and the header word. -/
theorem oxm_view_congr (four : oxm.Placed T extent (obj.withWbuf wbuf))
    (sameLength : wbuf'.bytes.length = wbuf.bytes.length)
    (agree : ∀ k, obj.objOffset ≤ k → k < obj.objOffset + extent →
      wbuf'.bytes[k]? = wbuf.bytes[k]?) :
    oxm.view T (obj.withWbuf wbuf') = oxm.view T (obj.withWbuf wbuf) := by
  have sameWord : getOxmTypeLen (obj.withWbuf wbuf') = getOxmTypeLen (obj.withWbuf wbuf) :=
    fieldGet_withWbuf_of_window sameLength agree four
  refine WireHeader.ext ?_ ?_
  · show ofOxmWireObjectIdGet T _ = ofOxmWireObjectIdGet T _
    unfold ofOxmWireObjectIdGet
    rw [sameWord]
    rfl
  · show ofOxmWireLengthGet _ = ofOxmWireLengthGet _
    unfold ofOxmWireLengthGet
    rw [sameWord]

end Oxm

/-! ### Classes with a length alone -/

section Length

/-- A 16-bit length store inside the window writes the length and nothing outside the
window. -/
theorem u16Length_apply_spec (lengthOffset : Version → Nat) (bytes : Int)
    (hbuf : obj.wbuf = some wbuf) (room : obj.objOffset + extent ≤ wbuf.bytes.length)
    (inside : lengthOffset obj.version + 2 ≤ extent) :
    ∃ obj', u16LengthSet lengthOffset obj bytes = some obj' ∧
      u16LengthGet lengthOffset obj' = some (bytes % 2 ^ 16) ∧
      obj'.ChangesOnly obj obj.objOffset extent := by
  obtain ⟨obj', hset, hget, lengthOnly⟩ :=
    u16Length_lengthWrapLaw lengthOffset obj wbuf bytes hbuf
      (by simp only [OfObject.absoluteOffset]; omega)
  exact ⟨obj', hset, hget, lengthOnly.mono (by simp [OfObject.absoluteOffset])
    (by simp only [OfObject.absoluteOffset]; omega)⟩

/-- A message length store writes the length in the message header and nothing outside a
window that holds it. -/
theorem message_apply_spec (bytes : Int) (hbuf : obj.wbuf = some wbuf)
    (room : obj.objOffset + extent ≤ wbuf.bytes.length) (placed : message.Placed T extent obj) :
    ∃ obj', ofObjectMessageWireLengthSet obj bytes = some obj' ∧
      ofObjectMessageWireLengthGet obj' = some (bytes % 2 ^ 16) ∧
      obj'.ChangesOnly obj obj.objOffset extent := by
  obtain ⟨start, stop⟩ := placed
  obtain ⟨obj', hset, hget, lengthOnly⟩ :=
    ofObjectMessageWire_lengthWrapLaw obj wbuf bytes hbuf (stop.trans room)
  exact ⟨obj', hset, hget, lengthOnly.mono start stop⟩

theorem u16LengthGet_withWbuf_congr (lengthOffset : Version → Nat)
    (sameLength : wbuf'.bytes.length = wbuf.bytes.length)
    (agree : ∀ k, obj.objOffset ≤ k → k < obj.objOffset + extent →
      wbuf'.bytes[k]? = wbuf.bytes[k]?)
    (inside : lengthOffset obj.version + 2 ≤ extent) :
    u16LengthGet lengthOffset (obj.withWbuf wbuf') =
      u16LengthGet lengthOffset (obj.withWbuf wbuf) :=
  congrArg (Option.map Int.ofNat) (fieldGet_withWbuf_of_window sameLength agree inside)

theorem ofObjectMessageWireLengthGet_withWbuf_congr
    (placed : message.Placed T extent (obj.withWbuf wbuf))
    (sameLength : wbuf'.bytes.length = wbuf.bytes.length)
    (agree : ∀ k, obj.objOffset ≤ k → k < obj.objOffset + extent →
      wbuf'.bytes[k]? = wbuf.bytes[k]?) :
    ofObjectMessageWireLengthGet (obj.withWbuf wbuf') =
      ofObjectMessageWireLengthGet (obj.withWbuf wbuf) := by
  obtain ⟨start, stop⟩ : obj.objOffset ≤ ofMessageLengthOffset ∧
      ofMessageLengthOffset + 2 ≤ obj.objOffset + extent := placed
  simp only [ofObjectMessageWireLengthGet, OfObject.withWbuf_wbuf, Option.some_bind,
    WireBuffer.u16Get_eq]
  rw [WireBuffer.getBe_congr sameLength fun i lane => agree _ (by omega) (by omega)]

end Length

/-! ### Every class -/

namespace WireClass

/-- One supported call on an object whose window lies in its buffer and holds the class's
fields succeeds, writes its register, changes no byte outside the window, and leaves the
window holding the fields. -/
theorem apply_spec {c : WireClass} {op : WireOp} (supported : c.Supported T obj.version extent op)
    (hbuf : obj.wbuf = some wbuf) (room : obj.objOffset + extent ≤ wbuf.bytes.length)
    (placed : c.Placed T extent obj) :
    ∃ obj', c.apply T obj op = some obj' ∧ c.view T obj' = op.spec (c.view T obj) ∧
      obj'.ChangesOnly obj obj.objOffset extent ∧ c.Placed T extent obj' := by
  cases c with
  | tlv16 F => exact tlv16_apply_spec supported hbuf room placed
  | oxm =>
    obtain ⟨obj', happly, hview, frame⟩ := oxm_apply_spec supported hbuf room placed
    exact ⟨obj', happly, hview, frame, placed⟩
  | u16Len =>
    cases op with
    | setLength bytes =>
      obtain ⟨obj', hset, hget, frame⟩ :=
        u16Length_apply_spec (fun _ => ofU16LenLengthOffset) bytes hbuf room placed
      exact ⟨obj', hset, WireHeader.ext rfl hget, frame, placed⟩
    | setObjectId _ => exact supported.elim
  | packetQueue =>
    cases op with
    | setLength bytes =>
      obtain ⟨obj', hset, hget, frame⟩ :=
        u16Length_apply_spec ofPacketQueueLengthOffset bytes hbuf room placed
      refine ⟨obj', hset, WireHeader.ext rfl hget, frame, ?_⟩
      show ofPacketQueueLengthOffset obj'.version + 2 ≤ extent
      rw [frame.version_eq]
      exact placed
    | setObjectId _ => exact supported.elim
  | meterStats =>
    cases op with
    | setLength bytes =>
      obtain ⟨obj', hset, hget, frame⟩ :=
        u16Length_apply_spec (fun _ => ofMeterStatsLengthOffset) bytes hbuf room placed
      exact ⟨obj', hset, WireHeader.ext rfl hget, frame, placed⟩
    | setObjectId _ => exact supported.elim
  | message =>
    cases op with
    | setLength bytes =>
      obtain ⟨obj', hset, hget, frame⟩ := message_apply_spec bytes hbuf room placed
      refine ⟨obj', hset, WireHeader.ext rfl hget, frame, ?_⟩
      show obj'.objOffset ≤ _ ∧ _ ≤ obj'.objOffset + extent
      rw [frame.objOffset_eq]
      exact placed
    | setObjectId _ => exact supported.elim

/-- Two buffers of one extent that agree on an object's window give it one header, when the
window lies in the buffer and holds the class's fields; it then holds them in both. -/
theorem view_congr {c : WireClass} (placed : c.Placed T extent (obj.withWbuf wbuf))
    (room : obj.objOffset + extent ≤ wbuf.bytes.length)
    (sameLength : wbuf'.bytes.length = wbuf.bytes.length)
    (agree : ∀ k, obj.objOffset ≤ k → k < obj.objOffset + extent →
      wbuf'.bytes[k]? = wbuf.bytes[k]?) :
    c.view T (obj.withWbuf wbuf') = c.view T (obj.withWbuf wbuf) ∧
      c.Placed T extent (obj.withWbuf wbuf') := by
  cases c with
  | tlv16 F => exact tlv16_view_congr placed room sameLength agree
  | oxm => exact ⟨oxm_view_congr placed sameLength agree, placed⟩
  | u16Len =>
    exact ⟨WireHeader.ext rfl (u16LengthGet_withWbuf_congr (fun _ => ofU16LenLengthOffset)
      sameLength agree placed), placed⟩
  | packetQueue =>
    exact ⟨WireHeader.ext rfl (u16LengthGet_withWbuf_congr ofPacketQueueLengthOffset
      sameLength agree placed), placed⟩
  | meterStats =>
    exact ⟨WireHeader.ext rfl (u16LengthGet_withWbuf_congr (fun _ => ofMeterStatsLengthOffset)
      sameLength agree placed), placed⟩
  | message =>
    exact ⟨WireHeader.ext rfl
      (ofObjectMessageWireLengthGet_withWbuf_congr placed sameLength agree), placed⟩

end WireClass

/-! ### Re-storing what is held -/

/-- Both identity setters leave alone a buffer that already holds the identity: re-storing
the identity a TLV16 family's getter read, when the translation table gives it the type read,
and storing an OXM identifier whose wire type is the masked type in the header, rewrite no
byte. The hello element getter, without an experimenter branch, is left out on
`OF_EXPERIMENTER_TYPE`. -/
theorem identity_setters_idempotent (T : TypeMaps) :
    (∀ (F : Tlv16Family) (obj : OfObject) (id : ObjectId) (wireType : Nat),
      F.wireObjectIdGet T obj = some id → ofTlv16WireTypeGet obj = some wireType →
      T.ofObjectToTypeMap obj.version id = wireType →
      (wireType = T.ofExperimenterType → F ≠ .helloElem) →
        ofTlv16WireObjectIdSet T obj id = some obj) ∧
    (∀ (obj : OfObject) (id : ObjectId) (typeLen : Nat), getOxmTypeLen obj = some typeLen →
      T.ofOxmValidId id = true →
      ofObjectToWireType T id obj.version = ofOxmMaskedTypeGet typeLen →
        ofOxmWireObjectIdSet T obj id = some obj) :=
  ⟨fun _ _ _ _ => ofTlv16WireObjectIdSet_of_wireObjectIdGet,
    fun _ _ _ => ofOxmWireObjectIdSet_of_getOxmTypeLen⟩

end Loci

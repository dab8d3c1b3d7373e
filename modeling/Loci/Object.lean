import Loci.Buffer

/-!
# Objects and the generated data they are read against

An `of_object_t` handle names one structure inside a shared wire buffer: its protocol
version, its object identifier, its length, its offset in the buffer, its parent and the
buffer itself. Every accessor of the type maps reads or writes one big-endian field of the
handle's buffer at an offset from the handle's start.

The object identifiers, the version enumeration, the translation tables and the wire
constants are generated into headers that `of_type_maps.c` includes but does not contain.
The identifiers and versions are modelled as the closed enumerations they are, keeping every
identifier the source names; the tables and constants enter as one `TypeMaps` value, whose
fields carry the facts the generator guarantees of them.

## Main definitions

* `Loci.Version`, `Loci.ObjectId` — `of_version_t` and `of_object_id_t`
* `Loci.OfObject` — the object handle, with `OfObject.fieldGet` and `OfObject.fieldSet`,
  the load and store of a big-endian field at an offset from the handle's start
* `Loci.TypeMaps` — the generated tables and constants

## Main results

* `fieldGet_of_fieldSet_self`, `fieldGet_of_fieldSet_of_disjoint`, `fieldSet_of_fieldGet`,
  `fieldSet_of_fieldSet_self`, `fieldSet_bind_comm` — the buffer's store laws, carried to
  object fields
* `OfObject.ChangesOnly.trans` — rewrites confined to one range compose
-/

namespace Loci

/-- The protocol versions of `of_version_t`. -/
inductive Version where
  | ofVersionUnknown
  | ofVersion1_0
  | ofVersion1_1
  | ofVersion1_2
  | ofVersion1_3
  deriving DecidableEq, Repr

/-- The ordinal of a version, the value the source compares. -/
def Version.toNat : Version → Nat
  | .ofVersionUnknown => 0
  | .ofVersion1_0 => 1
  | .ofVersion1_1 => 2
  | .ofVersion1_2 => 3
  | .ofVersion1_3 => 4

/-- The identifiers of `of_object_id_t`. Every identifier the source names has its own
constructor; `other n` is the generated identifier of ordinal `n` among the rest. -/
inductive ObjectId where
  | ofObjectInvalid
  | ofActionExperimenter
  | ofActionBsnMirror
  | ofActionBsnSetTunnelDst
  | ofActionNiciraDecTtl
  | ofActionIdExperimenter
  | ofActionIdBsnMirror
  | ofActionIdBsnSetTunnelDst
  | ofActionIdNiciraDecTtl
  | ofInstructionExperimenter
  | ofQueuePropExperimenter
  | ofTableFeaturePropExperimenter
  | ofMeterBandExperimenter
  | ofMeterStats
  | other (ordinal : Nat)
  deriving DecidableEq, Repr

/-- An `of_object_t` handle. Only the members the type maps read are kept. -/
structure OfObject where
  /-- The protocol version the object is encoded in. -/
  version : Version
  /-- The object identifier. -/
  objectId : ObjectId
  /-- The object's length in bytes, as the handle records it. -/
  length : Int
  /-- The object's start in the wire buffer (`wire_object.obj_offset`). -/
  objOffset : Nat
  /-- The enclosing object, when there is one. -/
  parent : Option OfObject
  /-- The wire buffer (`OF_OBJECT_TO_WBUF`); `none` is a null buffer pointer. -/
  wbuf : Option WireBuffer

namespace OfObject

/-- `OF_OBJECT_ABSOLUTE_OFFSET`: a field's offset in the wire buffer. -/
def absoluteOffset (obj : OfObject) (offset : Nat) : Nat := obj.objOffset + offset

/-- The handle with its buffer replaced. -/
def withWbuf (obj : OfObject) (wbuf : WireBuffer) : OfObject := { obj with wbuf := some wbuf }

/-- The load of a `width`-byte field at `offset` from the object's start: the source's
`of_wire_buffer_uN_get(OF_OBJECT_TO_WBUF(obj), OF_OBJECT_ABSOLUTE_OFFSET(obj, offset))` after
its `ASSERT(wbuf != NULL)`, and `buf_uN_get(OF_OBJECT_BUFFER_INDEX(obj, 0) + offset)`. -/
def fieldGet (obj : OfObject) (offset width : Nat) : Option Nat :=
  obj.wbuf.bind (·.getBe (obj.absoluteOffset offset) width)

/-- The store of a `width`-byte field at `offset` from the object's start. -/
def fieldSet (obj : OfObject) (offset width value : Nat) : Option OfObject :=
  obj.wbuf.bind fun wbuf => (wbuf.setBe (obj.absoluteOffset offset) width value).map obj.withWbuf

@[simp] theorem withWbuf_version (obj : OfObject) (wbuf : WireBuffer) :
    (obj.withWbuf wbuf).version = obj.version := rfl

@[simp] theorem withWbuf_objectId (obj : OfObject) (wbuf : WireBuffer) :
    (obj.withWbuf wbuf).objectId = obj.objectId := rfl

@[simp] theorem withWbuf_objOffset (obj : OfObject) (wbuf : WireBuffer) :
    (obj.withWbuf wbuf).objOffset = obj.objOffset := rfl

@[simp] theorem withWbuf_wbuf (obj : OfObject) (wbuf : WireBuffer) :
    (obj.withWbuf wbuf).wbuf = some wbuf := rfl

@[simp] theorem withWbuf_withWbuf (obj : OfObject) (wbuf wbuf' : WireBuffer) :
    (obj.withWbuf wbuf).withWbuf wbuf' = obj.withWbuf wbuf' := rfl

@[simp] theorem absoluteOffset_withWbuf (obj : OfObject) (wbuf : WireBuffer) (offset : Nat) :
    (obj.withWbuf wbuf).absoluteOffset offset = obj.absoluteOffset offset := rfl

theorem withWbuf_self {obj : OfObject} {wbuf : WireBuffer} (h : obj.wbuf = some wbuf) :
    obj.withWbuf wbuf = obj := by
  cases obj
  simp_all [withWbuf]

variable {obj obj' : OfObject} {wbuf : WireBuffer} {offset width value offset' width' value' : Nat}

theorem fieldGet_of_wbuf (h : obj.wbuf = some wbuf) :
    obj.fieldGet offset width = wbuf.getBe (obj.absoluteOffset offset) width := by
  simp [fieldGet, h]

theorem fieldSet_of_wbuf (h : obj.wbuf = some wbuf) :
    obj.fieldSet offset width value =
      (wbuf.setBe (obj.absoluteOffset offset) width value).map obj.withWbuf := by
  simp [fieldSet, h]

/-- A successful store replaces the buffer and nothing else of the handle. -/
theorem exists_of_fieldSet (h : obj.fieldSet offset width value = some obj') :
    ∃ wbuf wbuf', obj.wbuf = some wbuf ∧
      wbuf.setBe (obj.absoluteOffset offset) width value = some wbuf' ∧
      obj' = obj.withWbuf wbuf' := by
  simp only [fieldSet, Option.bind_eq_some, Option.map_eq_some'] at h
  obtain ⟨wbuf, hwbuf, wbuf', hset, rfl⟩ := h
  exact ⟨wbuf, wbuf', hwbuf, hset, rfl⟩

/-- A store succeeds exactly when the handle has a buffer holding the whole field. -/
theorem fieldSet_isSome_iff :
    (obj.fieldSet offset width value).isSome ↔
      ∃ wbuf, obj.wbuf = some wbuf ∧ obj.objOffset + offset + width ≤ wbuf.bytes.length := by
  cases hbuf : obj.wbuf with
  | none => simp [fieldSet, hbuf]
  | some wbuf =>
    simp [fieldSet_of_wbuf hbuf, WireBuffer.setBe_isSome_iff, absoluteOffset]

/-- A field store is read back, modulo its width. -/
theorem fieldGet_of_fieldSet_self (h : obj.fieldSet offset width value = some obj') :
    obj'.fieldGet offset width = some (value % 256 ^ width) := by
  obtain ⟨_, _, _, hset, rfl⟩ := exists_of_fieldSet h
  simp [fieldGet, WireBuffer.getBe_of_setBe_self hset]

/-- No load of a disjoint field sees a store. -/
theorem fieldGet_of_fieldSet_of_disjoint (h : obj.fieldSet offset width value = some obj')
    (disjoint : offset' + width' ≤ offset ∨ offset + width ≤ offset') :
    obj'.fieldGet offset' width' = obj.fieldGet offset' width' := by
  obtain ⟨_, _, hbuf, hset, rfl⟩ := exists_of_fieldSet h
  simp only [fieldGet, hbuf, withWbuf_wbuf, Option.some_bind, absoluteOffset_withWbuf]
  exact WireBuffer.getBe_of_setBe_of_disjoint hset (by simp [absoluteOffset]; omega)

/-- Storing the value a field holds leaves the handle as it was. -/
theorem fieldSet_of_fieldGet (h : obj.fieldGet offset width = some value) :
    obj.fieldSet offset width value = some obj := by
  obtain ⟨wbuf, hbuf, hget⟩ := Option.bind_eq_some.mp h
  rw [fieldSet_of_wbuf hbuf, WireBuffer.setBe_of_getBe hget, Option.map_some',
    withWbuf_self hbuf]

private theorem fieldSet_bind_fieldSet :
    (obj.fieldSet offset width value).bind (·.fieldSet offset' width' value') =
      obj.wbuf.bind fun wbuf =>
        ((wbuf.setBe (obj.absoluteOffset offset) width value).bind
          (·.setBe (obj.absoluteOffset offset') width' value')).map obj.withWbuf := by
  cases hbuf : obj.wbuf with
  | none => simp [fieldSet, hbuf]
  | some wbuf =>
    simp only [fieldSet, hbuf, Option.some_bind]
    cases wbuf.setBe (obj.absoluteOffset offset) width value <;> rfl

/-- A store succeeds whenever the buffer holds the field. -/
theorem exists_fieldSet_of_room (offset width value : Nat) (hbuf : obj.wbuf = some wbuf)
    (room : obj.objOffset + offset + width ≤ wbuf.bytes.length) :
    ∃ obj', obj.fieldSet offset width value = some obj' :=
  Option.isSome_iff_exists.mp (fieldSet_isSome_iff.mpr ⟨wbuf, hbuf, room⟩)

/-- A load succeeds whenever the buffer holds the field. -/
theorem exists_fieldGet_of_room (offset width : Nat) (hbuf : obj.wbuf = some wbuf)
    (room : obj.objOffset + offset + width ≤ wbuf.bytes.length) :
    ∃ value, obj.fieldGet offset width = some value := by
  rw [fieldGet_of_wbuf hbuf]
  exact Option.isSome_iff_exists.mp (WireBuffer.getBe_isSome_iff.mpr room)

/-- A store succeeds wherever a load of the same field does. -/
theorem exists_fieldSet_of_fieldGet (h : obj.fieldGet offset width = some value) (value' : Nat) :
    ∃ obj', obj.fieldSet offset width value' = some obj' := by
  obtain ⟨wbuf, hbuf, hget⟩ := Option.bind_eq_some.mp h
  have room := WireBuffer.getBe_isSome_iff.mp (by rw [hget]; rfl)
  exact exists_fieldSet_of_room offset width value' hbuf (by simpa [absoluteOffset] using room)

/-- A field load returns less than `256 ^ width`. -/
theorem fieldGet_lt (h : obj.fieldGet offset width = some value) : value < 256 ^ width := by
  obtain ⟨_, _, hget⟩ := Option.bind_eq_some.mp h
  exact WireBuffer.getBe_lt hget

/-- A second store to the same field overwrites the first. -/
theorem fieldSet_of_fieldSet_self (h : obj.fieldSet offset width value = some obj') :
    obj'.fieldSet offset width value' = obj.fieldSet offset width value' := by
  show (some obj').bind (·.fieldSet offset width value') = _
  rw [← h, fieldSet_bind_fieldSet]
  simp only [WireBuffer.setBe_bind_setBe_self]
  rfl

/-- A store keeps the object's version. -/
theorem version_of_fieldSet (h : obj.fieldSet offset width value = some obj') :
    obj'.version = obj.version := by
  obtain ⟨_, _, _, _, rfl⟩ := exists_of_fieldSet h
  rfl

/-- Stores to disjoint fields commute, failures included. -/
theorem fieldSet_bind_comm (disjoint : offset + width ≤ offset' ∨ offset' + width' ≤ offset) :
    (obj.fieldSet offset width value).bind (·.fieldSet offset' width' value') =
      (obj.fieldSet offset' width' value').bind (·.fieldSet offset width value) := by
  simp only [fieldSet_bind_fieldSet]
  congr 1
  funext wbuf
  rw [WireBuffer.setBe_bind_comm (by simp only [absoluteOffset]; omega)]

/-- `obj'` is `obj` with at most the `width` buffer bytes from `pos` rewritten: the same
handle, a buffer of the same extent, and every other byte as it was. -/
def ChangesOnly (obj' obj : OfObject) (pos width : Nat) : Prop :=
  ∃ wbuf wbuf', obj.wbuf = some wbuf ∧ obj' = obj.withWbuf wbuf' ∧
    wbuf'.bytes.length = wbuf.bytes.length ∧
    ∀ k, k < pos ∨ pos + width ≤ k → wbuf'.bytes[k]? = wbuf.bytes[k]?

/-- A field store rewrites only the field's own bytes. -/
theorem changesOnly_of_fieldSet (h : obj.fieldSet offset width value = some obj') :
    obj'.ChangesOnly obj (obj.absoluteOffset offset) width := by
  obtain ⟨wbuf, wbuf', hbuf, hset, rfl⟩ := exists_of_fieldSet h
  exact ⟨wbuf, wbuf', hbuf, rfl, WireBuffer.length_of_setBe hset,
    fun _ outside => WireBuffer.getElem?_of_setBe hset outside⟩

namespace ChangesOnly

variable {obj'' : OfObject} {pos width : Nat}

theorem refl (hbuf : obj.wbuf = some wbuf) : obj.ChangesOnly obj pos width :=
  ⟨wbuf, wbuf, hbuf, (withWbuf_self hbuf).symm, rfl, fun _ _ => rfl⟩

theorem trans (h' : obj''.ChangesOnly obj' pos width) (h : obj'.ChangesOnly obj pos width) :
    obj''.ChangesOnly obj pos width := by
  obtain ⟨wbuf, wbuf', hbuf, rfl, sameLength, outside⟩ := h
  obtain ⟨mid, wbuf'', hmid, rfl, sameLength', outside'⟩ := h'
  obtain rfl : mid = wbuf' := Option.some.inj hmid.symm
  exact ⟨wbuf, wbuf'', hbuf, rfl, sameLength'.trans sameLength,
    fun k away => (outside' k away).trans (outside k away)⟩

theorem version_eq (h : obj'.ChangesOnly obj pos width) : obj'.version = obj.version := by
  obtain ⟨_, _, _, rfl, _⟩ := h
  rfl

theorem objOffset_eq (h : obj'.ChangesOnly obj pos width) : obj'.objOffset = obj.objOffset := by
  obtain ⟨_, _, _, rfl, _⟩ := h
  rfl

/-- A rewrite confined to a range is confined to every range around it. -/
theorem mono {pos' width' : Nat} (h : obj'.ChangesOnly obj pos width) (start : pos' ≤ pos)
    (stop : pos + width ≤ pos' + width') : obj'.ChangesOnly obj pos' width' := by
  obtain ⟨wbuf, wbuf', hbuf, rfl, sameLength, outside⟩ := h
  exact ⟨wbuf, wbuf', hbuf, rfl, sameLength, fun k away => outside k (by omega)⟩

theorem exists_wbuf (h : obj'.ChangesOnly obj pos width) : ∃ wbuf', obj'.wbuf = some wbuf' := by
  obtain ⟨_, wbuf', _, rfl, _⟩ := h
  exact ⟨wbuf', rfl⟩

/-- A rewrite keeps the buffer's extent. -/
theorem exists_wbuf_length (h : obj'.ChangesOnly obj pos width) (hbuf : obj.wbuf = some wbuf) :
    ∃ wbuf', obj'.wbuf = some wbuf' ∧ wbuf'.bytes.length = wbuf.bytes.length := by
  obtain ⟨w, wbuf', hw, rfl, sameLength, -⟩ := h
  obtain rfl : w = wbuf := Option.some.inj (hw.symm.trans hbuf)
  exact ⟨wbuf', rfl, sameLength⟩

end ChangesOnly

/-- Two buffers of one extent that agree on a field's bytes give it one value, through any
handle. -/
theorem fieldGet_withWbuf_congr {wbuf' : WireBuffer} (obj : OfObject)
    (sameLength : wbuf'.bytes.length = wbuf.bytes.length)
    (agree : ∀ k, obj.objOffset + offset ≤ k → k < obj.objOffset + offset + width →
      wbuf'.bytes[k]? = wbuf.bytes[k]?) :
    (obj.withWbuf wbuf').fieldGet offset width = (obj.withWbuf wbuf).fieldGet offset width := by
  simp only [fieldGet, withWbuf_wbuf, Option.some_bind, absoluteOffset_withWbuf]
  exact WireBuffer.getBe_congr sameLength fun i lane =>
    agree _ (Nat.le_add_right _ _) (by simp only [absoluteOffset]; omega)

end OfObject

/-! ### The generated tables and constants -/

/-- The generated data `of_type_maps.c` reads: the version-indexed translation tables, their
item counts, the OXM resolution, the fixed lengths and the experimenter wire constants.
The last fields are what the generator guarantees of them: the experimenter type is a 16-bit
TLV type, the vendor identifiers are distinct 32-bit values (they label one `switch`), and an
OXM identifier's wire type is a 24-bit masked type. -/
structure TypeMaps where
  /-- `OF_EXPERIMENTER_TYPE`, the TLV16 wire type of experimenter extensions. -/
  ofExperimenterType : Nat
  /-- `OF_EXPERIMENTER_ID_BSN`. -/
  ofExperimenterIdBsn : Nat
  /-- `OF_EXPERIMENTER_ID_NICIRA`. -/
  ofExperimenterIdNicira : Nat
  /-- `of_object_to_type_map`: an identifier's wire type in a version, negative for none. -/
  ofObjectToTypeMap : Version → ObjectId → Int
  /-- `of_action_type_to_id`. -/
  ofActionTypeToId : Version → Nat → ObjectId
  /-- `of_action_id_type_to_id`. -/
  ofActionIdTypeToId : Version → Nat → ObjectId
  /-- `of_instruction_type_to_id`. -/
  ofInstructionTypeToId : Version → Nat → ObjectId
  /-- `of_queue_prop_type_to_id`. -/
  ofQueuePropTypeToId : Version → Nat → ObjectId
  /-- `of_table_feature_prop_type_to_id`. -/
  ofTableFeaturePropTypeToId : Version → Nat → ObjectId
  /-- `of_meter_band_type_to_id`. -/
  ofMeterBandTypeToId : Version → Nat → ObjectId
  /-- `of_hello_elem_type_to_id`. -/
  ofHelloElemTypeToId : Version → Nat → ObjectId
  /-- `OF_ACTION_ITEM_COUNT`, the extent of `of_action_type_to_id`. -/
  ofActionItemCount : Nat
  /-- `OF_ACTION_ID_ITEM_COUNT`. -/
  ofActionIdItemCount : Nat
  /-- `OF_INSTRUCTION_ITEM_COUNT`. -/
  ofInstructionItemCount : Nat
  /-- `OF_QUEUE_PROP_ITEM_COUNT`. -/
  ofQueuePropItemCount : Nat
  /-- `OF_TABLE_FEATURE_PROP_ITEM_COUNT`. -/
  ofTableFeaturePropItemCount : Nat
  /-- `OF_METER_BAND_ITEM_COUNT`. -/
  ofMeterBandItemCount : Nat
  /-- `OF_HELLO_ELEM_ITEM_COUNT`. -/
  ofHelloElemItemCount : Nat
  /-- `of_oxm_to_object_id`: the identifier of an OXM masked type in a version. -/
  ofOxmToObjectId : Nat → Version → ObjectId
  /-- `OF_OXM_VALID_ID`. -/
  ofOxmValidId : ObjectId → Bool
  /-- `of_object_fixed_len`, the length of an object's fixed part. -/
  ofObjectFixedLen : Version → ObjectId → Int
  experimenterType_lt : ofExperimenterType < 2 ^ 16
  experimenterIdBsn_lt : ofExperimenterIdBsn < 2 ^ 32
  experimenterIdNicira_lt : ofExperimenterIdNicira < 2 ^ 32
  experimenterIdBsn_ne_nicira : ofExperimenterIdBsn ≠ ofExperimenterIdNicira
  oxmWireType_lt : ∀ v id, ofOxmValidId id = true → ofObjectToTypeMap v id < 2 ^ 24

/-- A small instance of the tables with OpenFlow's experimenter constants: every experimenter
identifier the source names has the experimenter wire type `0xffff`, the identifier of ordinal
0 is an OXM field of masked type `0x800000` (OpenFlow's in-port), and nothing else has a wire
type. The theorems' concrete instances are taken over it. -/
def TypeMaps.sample : TypeMaps where
  ofExperimenterType := 0xffff
  ofExperimenterIdBsn := 0x5c16c7
  ofExperimenterIdNicira := 0x2320
  ofObjectToTypeMap _ id :=
    match id with
    | .ofObjectInvalid | .ofMeterStats => -1
    | .other 0 => 0x800000
    | .other _ => -1
    | _ => 0xffff
  ofActionTypeToId _ _ := .ofObjectInvalid
  ofActionIdTypeToId _ _ := .ofObjectInvalid
  ofInstructionTypeToId _ _ := .ofObjectInvalid
  ofQueuePropTypeToId _ _ := .ofObjectInvalid
  ofTableFeaturePropTypeToId _ _ := .ofObjectInvalid
  ofMeterBandTypeToId _ _ := .ofObjectInvalid
  ofHelloElemTypeToId _ _ := .ofObjectInvalid
  ofActionItemCount := 0
  ofActionIdItemCount := 0
  ofInstructionItemCount := 0
  ofQueuePropItemCount := 0
  ofTableFeaturePropItemCount := 0
  ofMeterBandItemCount := 0
  ofHelloElemItemCount := 0
  ofOxmToObjectId code _ := if code = 0x800000 then .other 0 else .ofObjectInvalid
  ofOxmValidId id := id = .other 0
  ofObjectFixedLen _ _ := 0
  experimenterType_lt := by decide
  experimenterIdBsn_lt := by decide
  experimenterIdNicira_lt := by decide
  experimenterIdBsn_ne_nicira := by decide
  oxmWireType_lt _ id valid := by
    obtain rfl : id = .other 0 := of_decide_eq_true valid
    exact (by decide : (0x800000 : Int) < 2 ^ 24)

/-- Modelled from the spec: `of_object_to_wire_type`, an identifier's wire type in a version,
looked up in the identifier-to-wire-type map. -/
def ofObjectToWireType (T : TypeMaps) (id : ObjectId) (version : Version) : Int :=
  T.ofObjectToTypeMap version id

/-- `OF_OBJECT_FIXED_LENGTH`. -/
def ofObjectFixedLength (T : TypeMaps) (obj : OfObject) : Int :=
  T.ofObjectFixedLen obj.version obj.objectId

end Loci

import Loci.Length
import Loci.Extension

/-!
# TLV16 identities

A TLV16 object starts with a 16-bit wire type. Setting an object's identity writes the wire
type the translation table gives it and, for `OF_EXPERIMENTER_TYPE`, the vendor identifier and
subtype of its extension. Each of the seven families reads the identity back through its own
getter: `OF_EXPERIMENTER_TYPE` goes to the family's experimenter decoder, and any other type
through the family's reverse table. The hello element getter alone has no experimenter branch.

## Main definitions

* `Loci.ofTlv16WireObjectIdSet` — the identity setter
* `Loci.tlv16WireObjectIdGet` — the getters' shape, with six of the seven getters as its members
* `Loci.Tlv16Family` — the seven families, with their getters, tables and experimenter decoders
* `Loci.TypeMaps.Consistent` — the tables agree on an identifier of a family

## Main results

* `exists_ofTlv16WireObjectIdSet` — what the setter writes and what the getter then reads,
  on an object with room for the type and, on `OF_EXPERIMENTER_TYPE`, the registry entry
* `ofTlv16WireObjectIdSet_roundTrip` — under consistent tables the getter returns the identity
  set, except for a generic experimenter identifier, which gets whatever the buffer's stale
  vendor bytes decode to
* `ofTlv16WireObjectIdSet_stale_vendor` — so the unrestricted round trip fails
* `action_actionId_experimenter_agree` — the action and action identifier paths agree
* `experimenter_getters_refine_registry_lookup` — on `OF_EXPERIMENTER_TYPE` every getter but
  the hello element's is the spec's registry lookup and never fails
* `tlv16_identity_length_independent` — identity and length are independent fields
* `identity_setters_stay_in_header` — the identity setters write only inside the object's
  first 12 bytes
-/

namespace Loci

/-- `TLV16_WIRE_TYPE_OFFSET`. -/
def tlv16WireTypeOffset : Nat := 0

/-- `of_tlv16_wire_type_get`: the 16-bit type at the object's start. -/
def ofTlv16WireTypeGet (obj : OfObject) : Option Nat := obj.fieldGet tlv16WireTypeOffset 2

variable (T : TypeMaps)

/-- `of_tlv16_wire_object_id_set`: the identifier's wire type from `of_object_to_type_map`,
asserted non-negative, is stored as the 16-bit type; on `OF_EXPERIMENTER_TYPE` the extension
encoder writes the vendor identifier and subtype as well. -/
def ofTlv16WireObjectIdSet (obj : OfObject) (id : ObjectId) : Option OfObject :=
  if T.ofObjectToTypeMap obj.version id < 0 then none
  else
    (obj.fieldSet tlv16WireTypeOffset 2 (T.ofObjectToTypeMap obj.version id % 2 ^ 16).toNat).bind
      fun typed =>
        if T.ofObjectToTypeMap obj.version id = T.ofExperimenterType then
          ofExtensionObjectIdSet T typed id
        else some typed

/-- The identity getters' shape: on `OF_EXPERIMENTER_TYPE` the family's experimenter decoder,
otherwise the family's reverse table, asserting that the type is within the table and maps to
an identifier. -/
def tlv16WireObjectIdGet (extension : OfObject → Option ObjectId) (itemCount : Nat)
    (typeToId : Version → Nat → ObjectId) (obj : OfObject) : Option ObjectId :=
  (ofTlv16WireTypeGet obj).bind fun wireType =>
    if wireType = T.ofExperimenterType then extension obj
    else if wireType < itemCount then
      if typeToId obj.version wireType = .ofObjectInvalid then none
      else some (typeToId obj.version wireType)
    else none

/-- `extension_instruction_object_id_get`: no instruction extension is registered. -/
def extensionInstructionObjectIdGet (_ : OfObject) : Option ObjectId :=
  some .ofInstructionExperimenter

/-- `extension_queue_prop_object_id_get`: no queue property extension is registered. -/
def extensionQueuePropObjectIdGet (_ : OfObject) : Option ObjectId :=
  some .ofQueuePropExperimenter

/-- `extension_table_feature_prop_object_id_get`: no table feature property extension is
registered. -/
def extensionTableFeaturePropObjectIdGet (_ : OfObject) : Option ObjectId :=
  some .ofTableFeaturePropExperimenter

/-- `of_action_wire_object_id_get`. -/
def ofActionWireObjectIdGet : OfObject → Option ObjectId :=
  tlv16WireObjectIdGet T (extensionActionObjectIdGet T) T.ofActionItemCount T.ofActionTypeToId

/-- `of_action_id_wire_object_id_get`. -/
def ofActionIdWireObjectIdGet : OfObject → Option ObjectId :=
  tlv16WireObjectIdGet T (extensionActionIdObjectIdGet T) T.ofActionIdItemCount
    T.ofActionIdTypeToId

/-- `of_instruction_wire_object_id_get`. -/
def ofInstructionWireObjectIdGet : OfObject → Option ObjectId :=
  tlv16WireObjectIdGet T extensionInstructionObjectIdGet T.ofInstructionItemCount
    T.ofInstructionTypeToId

/-- `of_queue_prop_wire_object_id_get`. -/
def ofQueuePropWireObjectIdGet : OfObject → Option ObjectId :=
  tlv16WireObjectIdGet T extensionQueuePropObjectIdGet T.ofQueuePropItemCount
    T.ofQueuePropTypeToId

/-- `of_table_feature_prop_wire_object_id_get`. -/
def ofTableFeaturePropWireObjectIdGet : OfObject → Option ObjectId :=
  tlv16WireObjectIdGet T extensionTableFeaturePropObjectIdGet T.ofTableFeaturePropItemCount
    T.ofTableFeaturePropTypeToId

/-- `of_meter_band_wire_object_id_get`, whose experimenter branch is written inline. -/
def ofMeterBandWireObjectIdGet : OfObject → Option ObjectId :=
  tlv16WireObjectIdGet T (fun _ => some .ofMeterBandExperimenter) T.ofMeterBandItemCount
    T.ofMeterBandTypeToId

/-- `of_hello_elem_wire_object_id_get`: the reverse table alone, with no experimenter
branch. -/
def ofHelloElemWireObjectIdGet (obj : OfObject) : Option ObjectId :=
  (ofTlv16WireTypeGet obj).bind fun wireType =>
    if wireType < T.ofHelloElemItemCount then
      if T.ofHelloElemTypeToId obj.version wireType = .ofObjectInvalid then none
      else some (T.ofHelloElemTypeToId obj.version wireType)
    else none

section HelloElem

variable {T} {obj : OfObject}

/-- Off `OF_EXPERIMENTER_TYPE` the hello element getter is the shared shape, whatever
experimenter decoder that shape is given. -/
theorem ofHelloElemWireObjectIdGet_of_ne (extension : OfObject → Option ObjectId)
    (htype : ofTlv16WireTypeGet obj ≠ some T.ofExperimenterType) :
    ofHelloElemWireObjectIdGet T obj =
      tlv16WireObjectIdGet T extension T.ofHelloElemItemCount T.ofHelloElemTypeToId obj := by
  unfold ofHelloElemWireObjectIdGet tlv16WireObjectIdGet
  cases hwire : ofTlv16WireTypeGet obj with
  | none => rfl
  | some wireType =>
    have other : wireType ≠ T.ofExperimenterType := fun same => htype (by rw [hwire, same])
    simp [other]

/-- Lacking the experimenter branch, the hello element getter fails its range assertion on
`OF_EXPERIMENTER_TYPE` unless the hello table reaches that type. -/
theorem ofHelloElemWireObjectIdGet_of_experimenter
    (htype : ofTlv16WireTypeGet obj = some T.ofExperimenterType)
    (short : T.ofHelloElemItemCount ≤ T.ofExperimenterType) :
    ofHelloElemWireObjectIdGet T obj = none := by
  simp [ofHelloElemWireObjectIdGet, htype, Nat.not_lt.mpr short]

end HelloElem

/-- The structure families with a 16-bit type and a 16-bit length. -/
inductive Tlv16Family where
  | action
  | actionId
  | instruction
  | queueProp
  | tableFeatureProp
  | meterBand
  | helloElem
  deriving DecidableEq, Repr

namespace Tlv16Family

/-- Each family's identity getter. -/
def wireObjectIdGet : Tlv16Family → OfObject → Option ObjectId
  | action => ofActionWireObjectIdGet T
  | actionId => ofActionIdWireObjectIdGet T
  | instruction => ofInstructionWireObjectIdGet T
  | queueProp => ofQueuePropWireObjectIdGet T
  | tableFeatureProp => ofTableFeaturePropWireObjectIdGet T
  | meterBand => ofMeterBandWireObjectIdGet T
  | helloElem => ofHelloElemWireObjectIdGet T

/-- Each family's reverse table. -/
def typeToId : Tlv16Family → Version → Nat → ObjectId
  | action => T.ofActionTypeToId
  | actionId => T.ofActionIdTypeToId
  | instruction => T.ofInstructionTypeToId
  | queueProp => T.ofQueuePropTypeToId
  | tableFeatureProp => T.ofTableFeaturePropTypeToId
  | meterBand => T.ofMeterBandTypeToId
  | helloElem => T.ofHelloElemTypeToId

/-- Each family's item count. -/
def itemCount : Tlv16Family → Nat
  | action => T.ofActionItemCount
  | actionId => T.ofActionIdItemCount
  | instruction => T.ofInstructionItemCount
  | queueProp => T.ofQueuePropItemCount
  | tableFeatureProp => T.ofTableFeaturePropItemCount
  | meterBand => T.ofMeterBandItemCount
  | helloElem => T.ofHelloElemItemCount

/-- What each family's getter does with an object of type `OF_EXPERIMENTER_TYPE`: its
experimenter decoder, and for hello elements the getter itself. -/
def experimenterObjectIdGet : Tlv16Family → OfObject → Option ObjectId
  | action => extensionActionObjectIdGet T
  | actionId => extensionActionIdObjectIdGet T
  | instruction => extensionInstructionObjectIdGet
  | queueProp => extensionQueuePropObjectIdGet
  | tableFeatureProp => extensionTableFeaturePropObjectIdGet
  | meterBand => fun _ => some .ofMeterBandExperimenter
  | helloElem => ofHelloElemWireObjectIdGet T

/-- The identifiers a family's getter returns for `OF_EXPERIMENTER_TYPE`. -/
def experimenterIds : Tlv16Family → List ObjectId
  | action => [.ofActionExperimenter, .ofActionBsnMirror, .ofActionBsnSetTunnelDst,
      .ofActionNiciraDecTtl]
  | actionId => [.ofActionIdExperimenter, .ofActionIdBsnMirror, .ofActionIdBsnSetTunnelDst,
      .ofActionIdNiciraDecTtl]
  | instruction => [.ofInstructionExperimenter]
  | queueProp => [.ofQueuePropExperimenter]
  | tableFeatureProp => [.ofTableFeaturePropExperimenter]
  | meterBand => [.ofMeterBandExperimenter]
  | helloElem => []

variable {T} {F : Tlv16Family} {obj : OfObject} {wireType : Nat}

/-- On `OF_EXPERIMENTER_TYPE` every getter defers to its experimenter branch. -/
theorem wireObjectIdGet_of_experimenter
    (htype : ofTlv16WireTypeGet obj = some T.ofExperimenterType) :
    F.wireObjectIdGet T obj = F.experimenterObjectIdGet T obj := by
  cases F <;> simp [wireObjectIdGet, experimenterObjectIdGet, ofActionWireObjectIdGet,
    ofActionIdWireObjectIdGet, ofInstructionWireObjectIdGet, ofQueuePropWireObjectIdGet,
    ofTableFeaturePropWireObjectIdGet, ofMeterBandWireObjectIdGet, tlv16WireObjectIdGet, htype]

/-- On any other type every getter reads its reverse table, asserting range and validity. -/
theorem wireObjectIdGet_of_ne (htype : ofTlv16WireTypeGet obj = some wireType)
    (other : wireType ≠ T.ofExperimenterType) :
    F.wireObjectIdGet T obj =
      if wireType < F.itemCount T then
        if F.typeToId T obj.version wireType = .ofObjectInvalid then none
        else some (F.typeToId T obj.version wireType)
      else none := by
  cases F <;> simp [wireObjectIdGet, typeToId, itemCount, ofActionWireObjectIdGet,
    ofActionIdWireObjectIdGet, ofInstructionWireObjectIdGet, ofQueuePropWireObjectIdGet,
    ofTableFeaturePropWireObjectIdGet, ofMeterBandWireObjectIdGet, ofHelloElemWireObjectIdGet,
    tlv16WireObjectIdGet, htype, other]

/-- A getter reads the version, the type and bytes 4 to 11, and nothing else. -/
theorem wireObjectIdGet_congr_header {obj' : OfObject} (sameVersion : obj'.version = obj.version)
    (agree : ∀ offset width, offset + width ≤ 2 ∨ 4 ≤ offset ∧ offset + width ≤ 12 →
      obj'.fieldGet offset width = obj.fieldGet offset width) :
    F.wireObjectIdGet T obj' = F.wireObjectIdGet T obj := by
  have htype : ofTlv16WireTypeGet obj' = ofTlv16WireTypeGet obj := agree 0 2 (.inl le_rfl)
  have hext : ∀ g m t d,
      extensionObjectIdGet T g m t d obj' = extensionObjectIdGet T g m t d obj :=
    fun _ _ _ _ => extensionObjectIdGet_congr_header fun offset width above below =>
      agree offset width (.inr ⟨above, below⟩)
  cases F <;> simp only [wireObjectIdGet, ofActionWireObjectIdGet, ofActionIdWireObjectIdGet,
    ofInstructionWireObjectIdGet, ofQueuePropWireObjectIdGet, ofTableFeaturePropWireObjectIdGet,
    ofMeterBandWireObjectIdGet, ofHelloElemWireObjectIdGet, tlv16WireObjectIdGet,
    extensionActionObjectIdGet, extensionActionIdObjectIdGet, htype, sameVersion, hext,
    extensionInstructionObjectIdGet, extensionQueuePropObjectIdGet,
    extensionTableFeaturePropObjectIdGet]

/-- A getter reads the version, the type and bytes from 4 on, and nothing in bytes 2 and 3. -/
theorem wireObjectIdGet_congr {obj' : OfObject} (sameVersion : obj'.version = obj.version)
    (agree : ∀ offset width, offset + width ≤ 2 ∨ 4 ≤ offset →
      obj'.fieldGet offset width = obj.fieldGet offset width) :
    F.wireObjectIdGet T obj' = F.wireObjectIdGet T obj :=
  wireObjectIdGet_congr_header sameVersion fun offset width apart =>
    agree offset width (apart.imp_right And.left)

/-- Every experimenter branch but the hello element getter reads nothing below byte 4. -/
theorem experimenterObjectIdGet_congr {obj' : OfObject} (notHello : F ≠ helloElem)
    (agree : ∀ offset width, 4 ≤ offset →
      obj'.fieldGet offset width = obj.fieldGet offset width) :
    F.experimenterObjectIdGet T obj' = F.experimenterObjectIdGet T obj := by
  cases F
  case helloElem => exact absurd rfl notHello
  all_goals first
    | rfl
    | exact extensionObjectIdGet_congr agree

/-- A registered identifier of a family is what the family's experimenter branch returns
wherever its registry entry is held. -/
theorem experimenterObjectIdGet_of_holds {id : ObjectId} {e : ExtensionEntry}
    (member : id ∈ F.experimenterIds) (hentry : extensionEntry T id = some e)
    (holds : e.Holds obj) : F.experimenterObjectIdGet T obj = some id := by
  cases F <;> simp only [experimenterIds, List.mem_cons, List.mem_singleton, List.not_mem_nil,
      or_false] at member <;>
    rcases member with rfl | rfl | rfl | rfl <;>
    simp only [extensionEntry, reduceCtorEq, Option.some.injEq] at hentry <;>
    subst hentry <;>
    exact extensionObjectIdGet_of_holds (by simp [familyEntries]) holds

/-- An identifier of a family without a registry entry, other than the generic experimenter
action and action identifier, is what the family's experimenter branch returns on every
buffer. -/
theorem experimenterObjectIdGet_of_unregistered {id : ObjectId} (member : id ∈ F.experimenterIds)
    (hentry : extensionEntry T id = none) (notAction : id ≠ .ofActionExperimenter)
    (notActionId : id ≠ .ofActionIdExperimenter) : F.experimenterObjectIdGet T obj = some id := by
  cases F <;> simp only [experimenterIds, List.mem_cons, List.mem_singleton, List.not_mem_nil,
      or_false] at member <;>
    rcases member with rfl | rfl | rfl | rfl <;>
    first
      | rfl
      | exact absurd rfl notAction
      | exact absurd rfl notActionId
      | exact nomatch hentry

/-- Encoding what a family's experimenter branch decoded changes nothing. -/
theorem ofExtensionObjectIdSet_of_experimenterObjectIdGet {id : ObjectId} {wbuf : WireBuffer}
    (notHello : F ≠ helloElem) (h : F.experimenterObjectIdGet T obj = some id)
    (hbuf : obj.wbuf = some wbuf) : ofExtensionObjectIdSet T obj id = some obj := by
  cases F
  case action =>
    by_cases generic : id = .ofActionExperimenter
    · exact generic ▸ ofExtensionObjectIdSet_of_unregistered rfl hbuf
    · exact ofExtensionObjectIdSet_of_extensionObjectIdGet
        (fun _ _ => extensionEntry_of_mem_familyEntries (by rfl) (by rfl) (by rfl)) h generic
  case actionId =>
    by_cases generic : id = .ofActionIdExperimenter
    · exact generic ▸ ofExtensionObjectIdSet_of_unregistered rfl hbuf
    · exact ofExtensionObjectIdSet_of_extensionObjectIdGet
        (fun _ _ => extensionEntry_of_mem_familyEntries (by rfl) (by rfl) (by rfl)) h generic
  case helloElem => exact absurd rfl notHello
  all_goals
    obtain rfl := Option.some.inj h
    exact ofExtensionObjectIdSet_of_unregistered rfl hbuf

/-- On a buffer that holds the experimenter header every experimenter branch but the hello
element getter is the spec's registry lookup over the family's experimenter identifiers. -/
theorem experimenterObjectIdGet_eq_registryDecode {wbuf : WireBuffer} (notHello : F ≠ helloElem)
    (hbuf : obj.wbuf = some wbuf) (room : obj.objOffset + 12 ≤ wbuf.bytes.length) :
    F.experimenterObjectIdGet T obj = registryDecode T F.experimenterIds obj := by
  cases F
  case action | actionId => exact extensionObjectIdGet_eq_registryDecode rfl rfl rfl rfl hbuf room
  case helloElem => exact absurd rfl notHello
  all_goals rfl

end Tlv16Family

/-- The tables agree on `id` in family `F` at version `v`: `id` has a 16-bit wire type; on
`OF_EXPERIMENTER_TYPE` it is one of the identifiers the family's getter returns there, and on
any other type the family's reverse table maps the type back to `id` within its item count. -/
def TypeMaps.Consistent (T : TypeMaps) (F : Tlv16Family) (v : Version) (id : ObjectId) : Prop :=
  ∃ wireType : Nat, T.ofObjectToTypeMap v id = wireType ∧ wireType < 2 ^ 16 ∧
    (wireType = T.ofExperimenterType → id ∈ F.experimenterIds) ∧
    (wireType ≠ T.ofExperimenterType →
      wireType < F.itemCount T ∧ F.typeToId T v wireType = id ∧ id ≠ .ofObjectInvalid)

section RoundTrip

variable {T} {obj : OfObject} {id : ObjectId} {wireType : Nat}

/-- For a 16-bit wire type the setter stores it, then runs the encoder on
`OF_EXPERIMENTER_TYPE`. -/
theorem ofTlv16WireObjectIdSet_of_wireType (hw : T.ofObjectToTypeMap obj.version id = wireType)
    (fits : wireType < 2 ^ 16) :
    ofTlv16WireObjectIdSet T obj id =
      (obj.fieldSet tlv16WireTypeOffset 2 wireType).bind fun obj =>
        if wireType = T.ofExperimenterType then ofExtensionObjectIdSet T obj id else some obj := by
  have stored : ((wireType : Int) % 2 ^ 16).toNat = wireType := by omega
  simp only [ofTlv16WireObjectIdSet, hw, stored, Nat.cast_inj]
  exact if_neg (by omega)

/-- Off `OF_EXPERIMENTER_TYPE` the setter is the store of the type alone. -/
theorem ofTlv16WireObjectIdSet_of_ne (hw : T.ofObjectToTypeMap obj.version id = wireType)
    (fits : wireType < 2 ^ 16) (other : wireType ≠ T.ofExperimenterType) :
    ofTlv16WireObjectIdSet T obj id = obj.fieldSet tlv16WireTypeOffset 2 wireType := by
  rw [ofTlv16WireObjectIdSet_of_wireType hw fits]
  simp [other]

/-- On `OF_EXPERIMENTER_TYPE` the setter stores the type, then runs the extension encoder. -/
theorem ofTlv16WireObjectIdSet_of_experimenter
    (hw : T.ofObjectToTypeMap obj.version id = T.ofExperimenterType) :
    ofTlv16WireObjectIdSet T obj id =
      (obj.fieldSet tlv16WireTypeOffset 2 T.ofExperimenterType).bind
        (ofExtensionObjectIdSet T · id) := by
  rw [ofTlv16WireObjectIdSet_of_wireType hw T.experimenterType_lt]
  simp

/-- A stored 16-bit type is read back. -/
theorem ofTlv16WireTypeGet_of_fieldSet {obj' : OfObject}
    (h : obj.fieldSet tlv16WireTypeOffset 2 wireType = some obj') (fits : wireType < 2 ^ 16) :
    ofTlv16WireTypeGet obj' = some wireType := by
  rw [ofTlv16WireTypeGet, OfObject.fieldGet_of_fieldSet_self h,
    Nat.mod_eq_of_lt (by simpa using fits)]

/-- The setter under consistent tables, on an object with room for the type and, on
`OF_EXPERIMENTER_TYPE`, for the identifier's registry entry: it succeeds, stores the type, and
changes only the type or, on `OF_EXPERIMENTER_TYPE`, at most the first 12 bytes. The family's
getter then returns the identifier, except for a generic experimenter identifier, which reads
back as whatever the family's experimenter branch made of the vendor bytes before. -/
theorem exists_ofTlv16WireObjectIdSet {F : Tlv16Family} {wbuf : WireBuffer}
    (consistent : T.Consistent F obj.version id)
    (hw : T.ofObjectToTypeMap obj.version id = wireType) (hbuf : obj.wbuf = some wbuf)
    (room : obj.objOffset + 2 ≤ wbuf.bytes.length)
    (entryRoom : wireType = T.ofExperimenterType →
      ∀ e ∈ extensionEntry T id, obj.objOffset + 8 + e.subtypeWidth ≤ wbuf.bytes.length) :
    ∃ obj', ofTlv16WireObjectIdSet T obj id = some obj' ∧
      ofTlv16WireTypeGet obj' = some wireType ∧
      obj'.ChangesOnly obj obj.objOffset (if wireType = T.ofExperimenterType then 12 else 2) ∧
      F.wireObjectIdGet T obj' =
        if wireType = T.ofExperimenterType ∧ extensionEntry T id = none
        then F.experimenterObjectIdGet T obj else some id := by
  obtain ⟨w, hw', fits, onExperimenter, offExperimenter⟩ := consistent
  obtain rfl : w = wireType := by exact_mod_cast hw'.symm.trans hw
  obtain ⟨typed, hset⟩ := OfObject.exists_fieldSet_of_room tlv16WireTypeOffset 2 w hbuf
    (by simp only [tlv16WireTypeOffset]; omega)
  have htype := ofTlv16WireTypeGet_of_fieldSet hset fits
  have typeOnly : typed.ChangesOnly obj obj.objOffset 2 :=
    (OfObject.changesOnly_of_fieldSet hset).mono (by simp [OfObject.absoluteOffset])
      (by simp [OfObject.absoluteOffset, tlv16WireTypeOffset])
  by_cases experimenter : w = T.ofExperimenterType
  · subst experimenter
    have member := onExperimenter rfl
    have notHello : F ≠ .helloElem := by rintro rfl; simp [Tlv16Family.experimenterIds] at member
    obtain ⟨typedBuf, htypedBuf, sameLength⟩ := typeOnly.exists_wbuf_length hbuf
    obtain ⟨obj', hext, holds⟩ := exists_ofExtensionObjectIdSet htypedBuf fun e hentry => by
      rw [typeOnly.objOffset_eq, sameLength]
      exact entryRoom rfl e hentry
    have writtenType : ofTlv16WireTypeGet obj' = some T.ofExperimenterType :=
      ((ofExtensionObjectIdSet_frame hext).2 0 2 (by decide)).trans htype
    have extOnly := ofExtensionObjectIdSet_changesOnly hext
    rw [typeOnly.objOffset_eq] at extOnly
    refine ⟨obj', by rw [ofTlv16WireObjectIdSet_of_experimenter hw, hset]; exact hext,
      writtenType, ?_, ?_⟩
    · rw [if_pos rfl]
      exact (extOnly.mono (by omega) (by omega)).trans (typeOnly.mono le_rfl (by omega))
    rw [Tlv16Family.wireObjectIdGet_of_experimenter writtenType]
    cases hentry : extensionEntry T id with
    | none =>
      obtain rfl : obj' = typed := Option.some.inj
        (hext.symm.trans (ofExtensionObjectIdSet_of_unregistered hentry htypedBuf))
      rw [if_pos ⟨rfl, rfl⟩]
      exact Tlv16Family.experimenterObjectIdGet_congr notHello fun _ _ above =>
        OfObject.fieldGet_of_fieldSet_of_disjoint hset (by simp only [tlv16WireTypeOffset]; omega)
    | some e =>
      rw [if_neg fun generic => nomatch generic.2]
      exact Tlv16Family.experimenterObjectIdGet_of_holds member hentry (holds e hentry)
  · obtain ⟨inRange, maps, valid⟩ := offExperimenter experimenter
    refine ⟨typed, (ofTlv16WireObjectIdSet_of_ne hw fits experimenter).trans hset, htype,
      by rw [if_neg experimenter]; exact typeOnly, ?_⟩
    rw [if_neg fun generic => experimenter generic.1,
      Tlv16Family.wireObjectIdGet_of_ne htype experimenter, typeOnly.version_eq]
    simp [inRange, maps, valid]

/-- Re-storing the identity a family's getter read, when the translation table gives it the
type read, rewrites no byte: on `OF_EXPERIMENTER_TYPE` the encoder finds its vendor bytes in
place. The hello element getter, which has no experimenter branch, is left out there. -/
theorem ofTlv16WireObjectIdSet_of_wireObjectIdGet {F : Tlv16Family}
    (h : F.wireObjectIdGet T obj = some id) (htype : ofTlv16WireTypeGet obj = some wireType)
    (hw : T.ofObjectToTypeMap obj.version id = wireType)
    (notHello : wireType = T.ofExperimenterType → F ≠ .helloElem) :
    ofTlv16WireObjectIdSet T obj id = some obj := by
  have fits : wireType < 2 ^ 16 := by simpa using OfObject.fieldGet_lt htype
  rw [ofTlv16WireObjectIdSet_of_wireType hw fits, OfObject.fieldSet_of_fieldGet htype,
    Option.some_bind]
  split_ifs with experimenter
  · subst experimenter
    obtain ⟨wbuf, hbuf, -⟩ := Option.bind_eq_some.mp htype
    rw [Tlv16Family.wireObjectIdGet_of_experimenter htype] at h
    exact Tlv16Family.ofExtensionObjectIdSet_of_experimenterObjectIdGet (notHello rfl) h hbuf
  · rfl

end RoundTrip

/-- The action and action identifier experimenter paths agree: the action identifier decoder
returns `actionIdOfAction` of what the action decoder returns, so do the two getters on every
buffer of type `OF_EXPERIMENTER_TYPE`, and the encoder writes the same bytes for an action and
its twin. -/
theorem action_actionId_experimenter_agree (T : TypeMaps) :
    (∀ obj, extensionActionIdObjectIdGet T obj =
      (extensionActionObjectIdGet T obj).map actionIdOfAction) ∧
    (∀ obj, ofTlv16WireTypeGet obj = some T.ofExperimenterType →
      ofActionIdWireObjectIdGet T obj = (ofActionWireObjectIdGet T obj).map actionIdOfAction) ∧
    (∀ obj x,
      ofExtensionObjectIdSet T obj x = ofExtensionObjectIdSet T obj (actionIdOfAction x)) :=
  ⟨extensionActionIdObjectIdGet_eq_map T,
    fun obj htype => by
      rw [show ofActionIdWireObjectIdGet T obj =
          Tlv16Family.actionId.wireObjectIdGet T obj from rfl,
        show ofActionWireObjectIdGet T obj = Tlv16Family.action.wireObjectIdGet T obj from rfl,
        Tlv16Family.wireObjectIdGet_of_experimenter htype,
        Tlv16Family.wireObjectIdGet_of_experimenter htype]
      exact extensionActionIdObjectIdGet_eq_map T obj,
    fun obj x => (ofExtensionObjectIdSet_actionIdOfAction T obj x).symm⟩

/-- Every family's getter but the hello element's decodes an object of type
`OF_EXPERIMENTER_TYPE` with room for the experimenter header as the spec's registry lookup
does, and never fails there: it returns the family's registered extension whose vendor
identifier and subtype the buffer holds, and the family's generic experimenter identifier when
the buffer holds none, whatever vendor it names. -/
theorem experimenter_getters_refine_registry_lookup (T : TypeMaps) (F : Tlv16Family)
    (obj : OfObject) (wbuf : WireBuffer) (notHello : F ≠ .helloElem)
    (hbuf : obj.wbuf = some wbuf) (htype : ofTlv16WireTypeGet obj = some T.ofExperimenterType)
    (room : obj.objOffset + 12 ≤ wbuf.bytes.length) :
    ∃ x, F.wireObjectIdGet T obj = some x ∧ registryDecode T F.experimenterIds obj = some x := by
  rw [Tlv16Family.wireObjectIdGet_of_experimenter htype,
    Tlv16Family.experimenterObjectIdGet_eq_registryDecode notHello hbuf room]
  have listed : F.experimenterIds ≠ [] := by
    cases F <;> simp [Tlv16Family.experimenterIds] at notHello ⊢
  obtain ⟨generic, others, hids⟩ := List.exists_cons_of_ne_nil listed
  rw [hids]
  exact ⟨_, rfl, rfl⟩

/-- A Nicira action of a subtype no extension registers decodes as the generic experimenter
action. -/
theorem experimenter_getters_refine_registry_lookup_nicira :
    let obj : OfObject := ⟨.ofVersion1_3, .ofActionExperimenter, 12, 0, none,
      some ⟨[0xff, 0xff, 0, 12, 0, 0, 0x23, 0x20, 0, 17, 0, 0]⟩⟩
    ofTlv16WireTypeGet obj = some TypeMaps.sample.ofExperimenterType ∧
      registryDecode TypeMaps.sample Tlv16Family.action.experimenterIds obj =
        some .ofActionExperimenter ∧
      ∃ x, Tlv16Family.action.wireObjectIdGet TypeMaps.sample obj = some x ∧
        registryDecode TypeMaps.sample Tlv16Family.action.experimenterIds obj = some x :=
  ⟨by decide, by decide, experimenter_getters_refine_registry_lookup _ _ _ _ (by decide) rfl
    (by decide) (by decide)⟩

/-! ### Identity and length are independent -/

section Independence

variable {T} {obj obj' : OfObject} {id : ObjectId} {offset width value : Nat}

/-- The identity setter keeps the version and changes nothing in bytes 2 and 3. -/
theorem ofTlv16WireObjectIdSet_frame (h : ofTlv16WireObjectIdSet T obj id = some obj') :
    obj'.version = obj.version ∧ ∀ offset width, 2 ≤ offset → offset + width ≤ 4 →
      obj'.fieldGet offset width = obj.fieldGet offset width := by
  unfold ofTlv16WireObjectIdSet at h
  split_ifs at h with negative experimenter
  all_goals
    obtain ⟨typed, hset, rest⟩ := Option.bind_eq_some.mp h
    obtain ⟨_, _, _, _, rfl⟩ := OfObject.exists_of_fieldSet hset
    have typedFrame : ∀ offset width, 2 ≤ offset →
        (obj.withWbuf _).fieldGet offset width = obj.fieldGet offset width := fun _ _ above =>
      OfObject.fieldGet_of_fieldSet_of_disjoint hset (by simp [tlv16WireTypeOffset]; omega)
  · obtain ⟨sameVersion, below⟩ := ofExtensionObjectIdSet_frame rest
    exact ⟨sameVersion, fun offset width above fits =>
      (below offset width fits).trans (typedFrame offset width above)⟩
  · obtain rfl := Option.some.inj rest
    exact ⟨rfl, fun offset width above _ => typedFrame offset width above⟩

/-- The identity setter changes at most the object's first 12 bytes. -/
theorem ofTlv16WireObjectIdSet_changesOnly (h : ofTlv16WireObjectIdSet T obj id = some obj') :
    obj'.ChangesOnly obj obj.objOffset 12 := by
  unfold ofTlv16WireObjectIdSet at h
  split_ifs at h
  all_goals
    obtain ⟨typed, hset, rest⟩ := Option.bind_eq_some.mp h
    have typeOnly : typed.ChangesOnly obj obj.objOffset 12 :=
      (OfObject.changesOnly_of_fieldSet hset).mono (by simp [OfObject.absoluteOffset])
        (by simp [OfObject.absoluteOffset, tlv16WireTypeOffset])
  · have sameOffset := typeOnly.objOffset_eq
    exact ((ofExtensionObjectIdSet_changesOnly rest).mono (by omega) (by omega)).trans typeOnly
  · exact Option.some.inj rest ▸ typeOnly

/-- The identity setter commutes with every store inside bytes 2 and 3, failures included. -/
theorem ofTlv16WireObjectIdSet_fieldSet_comm (above : 2 ≤ offset) (fits : offset + width ≤ 4) :
    (ofTlv16WireObjectIdSet T obj id).bind (·.fieldSet offset width value) =
      (obj.fieldSet offset width value).bind (ofTlv16WireObjectIdSet T · id) := by
  have stored : (obj.fieldSet offset width value).bind (ofTlv16WireObjectIdSet T · id) =
      (obj.fieldSet offset width value).bind fun stored =>
        if T.ofObjectToTypeMap obj.version id < 0 then none
        else
          (stored.fieldSet tlv16WireTypeOffset 2
              (T.ofObjectToTypeMap obj.version id % 2 ^ 16).toNat).bind fun typed =>
            if T.ofObjectToTypeMap obj.version id = T.ofExperimenterType then
              ofExtensionObjectIdSet T typed id
            else some typed :=
    Option.bind_congr fun _ hset => by
      obtain ⟨_, _, _, _, rfl⟩ := OfObject.exists_of_fieldSet hset
      rfl
  rw [stored, ofTlv16WireObjectIdSet]
  have typeApart : tlv16WireTypeOffset + 2 ≤ offset ∨ offset + width ≤ tlv16WireTypeOffset :=
    .inl (by simp only [tlv16WireTypeOffset]; omega)
  split_ifs
  · cases obj.fieldSet offset width value <;> rfl
  · rw [Option.bind_assoc, Option.bind_congr fun _ _ => ofExtensionObjectIdSet_fieldSet_comm fits,
      ← Option.bind_assoc, OfObject.fieldSet_bind_comm typeApart, Option.bind_assoc]
  · simp only [Option.bind_assoc, Option.some_bind, Option.bind_some]
    exact OfObject.fieldSet_bind_comm typeApart

end Independence

/-- In the TLV16 header, identity and length are independent: setting the identity leaves the
length read unchanged, setting the length leaves every family's identity read unchanged,
experimenter decoding included, and the two setters commute, failures included. -/
theorem tlv16_identity_length_independent (T : TypeMaps) :
    (∀ obj obj' id, ofTlv16WireObjectIdSet T obj id = some obj' →
      ofTlv16WireLengthGet obj' = ofTlv16WireLengthGet obj) ∧
    (∀ (F : Tlv16Family) obj obj' n, ofTlv16WireLengthSet obj n = some obj' →
      F.wireObjectIdGet T obj' = F.wireObjectIdGet T obj) ∧
    (∀ obj id n, (ofTlv16WireObjectIdSet T obj id).bind (ofTlv16WireLengthSet · n) =
      (ofTlv16WireLengthSet obj n).bind (ofTlv16WireObjectIdSet T · id)) := by
  refine ⟨fun obj obj' id h => ?_, fun F obj obj' n h => ?_, fun obj id n => ?_⟩
  · obtain ⟨sameVersion, between⟩ := ofTlv16WireObjectIdSet_frame h
    simp only [ofTlv16WireLengthGet, u16LengthGet,
      between tlv16WireLengthOffset 2 (by decide) (by decide)]
  · exact Tlv16Family.wireObjectIdGet_congr (OfObject.version_of_fieldSet h)
      fun offset width apart =>
        OfObject.fieldGet_of_fieldSet_of_disjoint h (by simp only [tlv16WireLengthOffset]; omega)
  · exact ofTlv16WireObjectIdSet_fieldSet_comm (by decide) (by decide)

/-- The identity setters write only inside the object's experimenter header: the TLV16
identity setter changes at most the object's first 12 bytes, and the extension encoder and the
push at most bytes 4 to 11, each keeping the handle and the buffer's extent. -/
theorem identity_setters_stay_in_header (T : TypeMaps) :
    (∀ obj obj' id, ofTlv16WireObjectIdSet T obj id = some obj' →
      obj'.ChangesOnly obj obj.objOffset 12) ∧
    (∀ obj obj' id, ofExtensionObjectIdSet T obj id = some obj' →
      obj'.ChangesOnly obj (obj.objOffset + 4) 8) ∧
    (∀ obj obj' wbuf, obj.wbuf = some wbuf → ofExtensionObjectWirePush T obj = some obj' →
      obj'.ChangesOnly obj (obj.objOffset + 4) 8) :=
  ⟨fun _ _ _ => ofTlv16WireObjectIdSet_changesOnly,
    fun _ _ _ => ofExtensionObjectIdSet_changesOnly,
    fun _ _ _ => ofExtensionObjectWirePush_changesOnly T⟩

end Loci

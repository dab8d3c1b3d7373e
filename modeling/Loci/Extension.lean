import Loci.Object

/-!
# The experimenter extension dispatcher

Actions and action identifiers share one TLV16 wire type, `OF_EXPERIMENTER_TYPE`, among all
vendor extensions. An extension is told apart by the 32-bit vendor identifier at byte 4 and a
vendor subtype at byte 8, 32 bits wide for BSN and 16 bits wide for Nicira. The registry of
known extensions is `extensionEntry`; the source spells it out three times, in the two
decoders, in the encoder and in the push of defaults, and each is shown here to agree with it.

## Main definitions

* `Loci.extensionEntry` — the registered extensions and what each writes
* `Loci.extensionObjectIdGet` — the decoders' shape; `extensionActionObjectIdGet` and
  `extensionActionIdObjectIdGet` are its members
* `Loci.ofExtensionObjectIdSet`, `Loci.ofExtensionObjectWirePush` — the encoder and the push
* `Loci.registryDecode` — the spec's decode algorithm, a lookup in the registry

## Main results

* `ofExtensionObjectIdSet_eq` — the encoder writes the registry entry, and nothing for an
  identifier without one
* `extensionObjectIdGet_of_holds`, `holds_of_extensionObjectIdGet` — a decoder returns an
  extension exactly when the buffer holds its entry
* `extension_encode_decode_inverse` — encoder and decoders are mutually inverse
* `extensionObjectIdGet_eq_registryDecode` — on a buffer that holds the experimenter header a
  decoder never fails and is the registry lookup
* `ofExtensionObjectWirePush_eq_idSet` — the push writes what the encoder writes
-/

namespace Loci

/-- `OF_ACTION_EXPERIMENTER_ID_OFFSET`. -/
def ofActionExperimenterIdOffset : Nat := 4

/-- `OF_ACTION_EXPERIMENTER_SUBTYPE_OFFSET`. -/
def ofActionExperimenterSubtypeOffset : Nat := 8

/-- A registered extension's wire identity: its vendor identifier, the width in bytes of its
subtype field, and its subtype. -/
structure ExtensionEntry where
  experimenter : Nat
  subtypeWidth : Nat
  subtype : Nat
  deriving DecidableEq, Repr

/-- A vendor identifier stored at byte 4 and then a subtype of at most four bytes stored at
byte 8 change only bytes 4 to 11 of the object. -/
theorem changesOnly_of_vendor_subtype {obj mid obj' : OfObject} {vendor width subtype : Nat}
    (hvendor : obj.fieldSet ofActionExperimenterIdOffset 4 vendor = some mid)
    (hsubtype : mid.fieldSet ofActionExperimenterSubtypeOffset width subtype = some obj')
    (narrow : width ≤ 4) : obj'.ChangesOnly obj (obj.objOffset + 4) 8 := by
  have vendorOnly := OfObject.changesOnly_of_fieldSet hvendor
  have sameOffset := vendorOnly.objOffset_eq
  refine ((OfObject.changesOnly_of_fieldSet hsubtype).mono ?_ ?_).trans (vendorOnly.mono ?_ ?_) <;>
    simp only [OfObject.absoluteOffset, ofActionExperimenterIdOffset,
      ofActionExperimenterSubtypeOffset] <;> omega

namespace ExtensionEntry

/-- Store the entry: the vendor identifier at byte 4, the subtype at byte 8. -/
def write (e : ExtensionEntry) (obj : OfObject) : Option OfObject :=
  (obj.fieldSet ofActionExperimenterIdOffset 4 e.experimenter).bind
    (·.fieldSet ofActionExperimenterSubtypeOffset e.subtypeWidth e.subtype)

/-- The object's buffer holds the entry's vendor identifier and subtype. -/
def Holds (e : ExtensionEntry) (obj : OfObject) : Prop :=
  obj.fieldGet ofActionExperimenterIdOffset 4 = some e.experimenter ∧
    obj.fieldGet ofActionExperimenterSubtypeOffset e.subtypeWidth = some e.subtype

instance (e : ExtensionEntry) (obj : OfObject) : Decidable (e.Holds obj) :=
  inferInstanceAs (Decidable (_ ∧ _))

variable {e : ExtensionEntry} {obj obj' : OfObject}

/-- A written entry is held, when both of its values fit their fields. -/
theorem holds_of_write (h : e.write obj = some obj') (vendorFits : e.experimenter < 2 ^ 32)
    (subtypeFits : e.subtype < 256 ^ e.subtypeWidth) : e.Holds obj' := by
  obtain ⟨mid, hvendor, hsubtype⟩ := Option.bind_eq_some.mp h
  refine ⟨?_, ?_⟩
  · rw [OfObject.fieldGet_of_fieldSet_of_disjoint hsubtype (by simp [ofActionExperimenterIdOffset,
      ofActionExperimenterSubtypeOffset]), OfObject.fieldGet_of_fieldSet_self hvendor,
      Nat.mod_eq_of_lt (by simpa using vendorFits)]
  · rw [OfObject.fieldGet_of_fieldSet_self hsubtype, Nat.mod_eq_of_lt subtypeFits]

/-- Writing an entry the buffer already holds changes nothing. -/
theorem write_of_holds (h : e.Holds obj) : e.write obj = some obj := by
  rw [write, OfObject.fieldSet_of_fieldGet h.1, Option.some_bind, OfObject.fieldSet_of_fieldGet h.2]

/-- An entry is written whenever the buffer holds both of its fields. -/
theorem write_isSome {wbuf : WireBuffer} (hbuf : obj.wbuf = some wbuf)
    (room : obj.objOffset + 8 + e.subtypeWidth ≤ wbuf.bytes.length) : (e.write obj).isSome := by
  obtain ⟨mid, hvendor⟩ := OfObject.exists_fieldSet_of_room 4 4 e.experimenter hbuf (by omega)
  obtain ⟨wbuf₀, _, hbuf₀, hset, rfl⟩ := OfObject.exists_of_fieldSet hvendor
  obtain rfl : wbuf₀ = wbuf := Option.some.inj (hbuf₀.symm.trans hbuf)
  rw [write, ofActionExperimenterIdOffset, hvendor, Option.some_bind]
  exact OfObject.fieldSet_isSome_iff.mpr ⟨_, rfl, by
    simpa [ofActionExperimenterSubtypeOffset, WireBuffer.length_of_setBe hset] using room⟩

/-- Writing an entry whose subtype fits four bytes changes only bytes 4 to 11. -/
theorem changesOnly_of_write (h : e.write obj = some obj') (narrow : e.subtypeWidth ≤ 4) :
    obj'.ChangesOnly obj (obj.objOffset + 4) 8 := by
  obtain ⟨_, hvendor, hsubtype⟩ := Option.bind_eq_some.mp h
  exact changesOnly_of_vendor_subtype hvendor hsubtype narrow

end ExtensionEntry

variable (T : TypeMaps)

/-- The registry of vendor extensions, as the spec lists it: BSN subtypes 1 (mirror) and 2
(set tunnel destination) in a 32-bit subtype, and Nicira subtype 18 (decrement TTL) in a
16-bit one, each as an action and as an action identifier. -/
def extensionEntry : ObjectId → Option ExtensionEntry
  | .ofActionBsnMirror | .ofActionIdBsnMirror => some ⟨T.ofExperimenterIdBsn, 4, 1⟩
  | .ofActionBsnSetTunnelDst | .ofActionIdBsnSetTunnelDst => some ⟨T.ofExperimenterIdBsn, 4, 2⟩
  | .ofActionNiciraDecTtl | .ofActionIdNiciraDecTtl => some ⟨T.ofExperimenterIdNicira, 2, 18⟩
  | _ => none

/-- Every registered vendor identifier and subtype fits its field. -/
theorem extensionEntry_fits {id : ObjectId} {e : ExtensionEntry}
    (h : extensionEntry T id = some e) :
    e.experimenter < 2 ^ 32 ∧ e.subtype < 256 ^ e.subtypeWidth ∧ e.subtypeWidth ≤ 4 := by
  have := T.experimenterIdBsn_lt
  have := T.experimenterIdNicira_lt
  cases id <;> simp only [extensionEntry, Option.some.injEq, reduceCtorEq] at h <;> subst h <;>
    simp_all

/-- The experimenter decoders' shape, over one family's four identifiers: the generic one,
unless the vendor identifier is BSN's or Nicira's and that vendor's subtype names a
registered extension. -/
def extensionObjectIdGet (generic bsnMirror bsnSetTunnelDst niciraDecTtl : ObjectId)
    (obj : OfObject) : Option ObjectId :=
  (obj.fieldGet ofActionExperimenterIdOffset 4).bind fun expId =>
    if expId = T.ofExperimenterIdBsn then
      (obj.fieldGet ofActionExperimenterSubtypeOffset 4).map fun subtype =>
        if subtype = 1 then bsnMirror else if subtype = 2 then bsnSetTunnelDst else generic
    else if expId = T.ofExperimenterIdNicira then
      (obj.fieldGet ofActionExperimenterSubtypeOffset 2).map fun subtype =>
        if subtype = 18 then niciraDecTtl else generic
    else some generic

/-- `extension_action_object_id_get`. -/
def extensionActionObjectIdGet : OfObject → Option ObjectId :=
  extensionObjectIdGet T .ofActionExperimenter .ofActionBsnMirror .ofActionBsnSetTunnelDst
    .ofActionNiciraDecTtl

/-- `extension_action_id_object_id_get`. -/
def extensionActionIdObjectIdGet : OfObject → Option ObjectId :=
  extensionObjectIdGet T .ofActionIdExperimenter .ofActionIdBsnMirror
    .ofActionIdBsnSetTunnelDst .ofActionIdNiciraDecTtl

/-- `of_extension_object_id_set`: the registered extensions get their vendor identifier and
subtype, every other identifier leaves the buffer alone. The buffer index it starts from
dereferences the buffer, so a null buffer is fatal for every identifier. -/
def ofExtensionObjectIdSet (obj : OfObject) (id : ObjectId) : Option OfObject :=
  obj.wbuf.bind fun _ =>
    match id with
    | .ofActionBsnMirror | .ofActionIdBsnMirror =>
      (obj.fieldSet ofActionExperimenterIdOffset 4 T.ofExperimenterIdBsn).bind
        (·.fieldSet ofActionExperimenterSubtypeOffset 4 1)
    | .ofActionBsnSetTunnelDst | .ofActionIdBsnSetTunnelDst =>
      (obj.fieldSet ofActionExperimenterIdOffset 4 T.ofExperimenterIdBsn).bind
        (·.fieldSet ofActionExperimenterSubtypeOffset 4 2)
    | .ofActionNiciraDecTtl | .ofActionIdNiciraDecTtl =>
      (obj.fieldSet ofActionExperimenterIdOffset 4 T.ofExperimenterIdNicira).bind
        (·.fieldSet ofActionExperimenterSubtypeOffset 2 18)
    | _ => some obj

/-- The encoder writes the registry entry of its identifier, and nothing for an identifier
without one; either way it needs a buffer. -/
theorem ofExtensionObjectIdSet_eq (obj : OfObject) (id : ObjectId) :
    ofExtensionObjectIdSet T obj id =
      match extensionEntry T id with
      | some e => e.write obj
      | none => obj.wbuf.map fun _ => obj := by
  cases hbuf : obj.wbuf <;> cases id <;>
    simp [ofExtensionObjectIdSet, extensionEntry, ExtensionEntry.write, OfObject.fieldSet, hbuf]

section Frame

variable {T} {obj obj' : OfObject} {id : ObjectId} {offset width value : Nat}

/-- Without a registry entry the encoder leaves an object with a buffer as it is. -/
theorem ofExtensionObjectIdSet_of_unregistered {wbuf : WireBuffer}
    (hentry : extensionEntry T id = none) (hbuf : obj.wbuf = some wbuf) :
    ofExtensionObjectIdSet T obj id = some obj := by
  rw [ofExtensionObjectIdSet_eq, hentry, hbuf]
  rfl

/-- On an object with room for the identifier's registry entry, if it has one, the encoder
succeeds, and the buffer then holds the entry. -/
theorem exists_ofExtensionObjectIdSet {wbuf : WireBuffer} (hbuf : obj.wbuf = some wbuf)
    (room : ∀ e ∈ extensionEntry T id, obj.objOffset + 8 + e.subtypeWidth ≤ wbuf.bytes.length) :
    ∃ obj', ofExtensionObjectIdSet T obj id = some obj' ∧
      ∀ e, extensionEntry T id = some e → e.Holds obj' := by
  cases hentry : extensionEntry T id with
  | none =>
    exact ⟨obj, ofExtensionObjectIdSet_of_unregistered hentry hbuf, fun _ none => nomatch none⟩
  | some e =>
    obtain ⟨vendorFits, subtypeFits, -⟩ := extensionEntry_fits T hentry
    obtain ⟨obj', hwrite⟩ : ∃ obj', e.write obj = some obj' :=
      Option.isSome_iff_exists.mp (ExtensionEntry.write_isSome hbuf (room e hentry))
    refine ⟨obj', by rw [ofExtensionObjectIdSet_eq, hentry]; exact hwrite, fun e' same => ?_⟩
    obtain rfl := Option.some.inj same
    exact ExtensionEntry.holds_of_write hwrite vendorFits subtypeFits

/-- The encoder keeps the handle and changes nothing below byte 4. -/
theorem ofExtensionObjectIdSet_frame (h : ofExtensionObjectIdSet T obj id = some obj') :
    obj'.version = obj.version ∧
      ∀ offset width, offset + width ≤ 4 →
        obj'.fieldGet offset width = obj.fieldGet offset width := by
  rw [ofExtensionObjectIdSet_eq] at h
  split at h
  · obtain ⟨mid, hvendor, hsubtype⟩ := Option.bind_eq_some.mp h
    refine ⟨(OfObject.version_of_fieldSet hsubtype).trans (OfObject.version_of_fieldSet hvendor),
      fun offset width below => ?_⟩
    rw [OfObject.fieldGet_of_fieldSet_of_disjoint hsubtype (by
        simp [ofActionExperimenterSubtypeOffset]; omega),
      OfObject.fieldGet_of_fieldSet_of_disjoint hvendor (by
        simp [ofActionExperimenterIdOffset]; omega)]
  · obtain ⟨_, _, rfl⟩ := Option.map_eq_some'.mp h
    exact ⟨rfl, fun _ _ _ => rfl⟩

/-- The encoder changes at most bytes 4 to 11 of the object. -/
theorem ofExtensionObjectIdSet_changesOnly (h : ofExtensionObjectIdSet T obj id = some obj') :
    obj'.ChangesOnly obj (obj.objOffset + 4) 8 := by
  rw [ofExtensionObjectIdSet_eq] at h
  split at h
  next e hentry => exact ExtensionEntry.changesOnly_of_write h (extensionEntry_fits T hentry).2.2
  next =>
    obtain ⟨wbuf, hbuf, rfl⟩ := Option.map_eq_some'.mp h
    exact OfObject.ChangesOnly.refl hbuf

/-- The encoder commutes with every store below byte 4, failures included. -/
theorem ofExtensionObjectIdSet_fieldSet_comm (below : offset + width ≤ 4) :
    (ofExtensionObjectIdSet T obj id).bind (·.fieldSet offset width value) =
      (obj.fieldSet offset width value).bind (ofExtensionObjectIdSet T · id) := by
  simp only [ofExtensionObjectIdSet_eq]
  split
  · rename_i e _
    have vendorApart : offset + width ≤ ofActionExperimenterIdOffset ∨
        ofActionExperimenterIdOffset + 4 ≤ offset := .inl below
    have subtypeApart : offset + width ≤ ofActionExperimenterSubtypeOffset ∨
        ofActionExperimenterSubtypeOffset + e.subtypeWidth ≤ offset :=
      .inl (by simp only [ofActionExperimenterSubtypeOffset]; omega)
    calc ((obj.fieldSet ofActionExperimenterIdOffset 4 e.experimenter).bind
            (·.fieldSet ofActionExperimenterSubtypeOffset e.subtypeWidth e.subtype)).bind
            (·.fieldSet offset width value)
        = (obj.fieldSet ofActionExperimenterIdOffset 4 e.experimenter).bind fun mid =>
            (mid.fieldSet offset width value).bind
              (·.fieldSet ofActionExperimenterSubtypeOffset e.subtypeWidth e.subtype) := by
          rw [Option.bind_assoc]
          congr 1
          funext mid
          exact (OfObject.fieldSet_bind_comm subtypeApart).symm
      _ = ((obj.fieldSet offset width value).bind
            (·.fieldSet ofActionExperimenterIdOffset 4 e.experimenter)).bind
            (·.fieldSet ofActionExperimenterSubtypeOffset e.subtypeWidth e.subtype) := by
          rw [← Option.bind_assoc, OfObject.fieldSet_bind_comm vendorApart]
      _ = _ := Option.bind_assoc _ _ _
  · cases hset : obj.fieldSet offset width value with
    | none =>
      cases hbuf : obj.wbuf <;> simp [hset]
    | some obj' =>
      obtain ⟨_, _, hbuf, _, rfl⟩ := OfObject.exists_of_fieldSet hset
      simp [hbuf, hset]

end Frame

/-! ### The decoders against the registry -/

/-- The extensions a decoder recognises, each with the identifier it returns for it. -/
def familyEntries (bsnMirror bsnSetTunnelDst niciraDecTtl : ObjectId) :
    List (ObjectId × ExtensionEntry) :=
  [(bsnMirror, ⟨T.ofExperimenterIdBsn, 4, 1⟩),
    (bsnSetTunnelDst, ⟨T.ofExperimenterIdBsn, 4, 2⟩),
    (niciraDecTtl, ⟨T.ofExperimenterIdNicira, 2, 18⟩)]

/-- The spec's decode algorithm over a family's experimenter identifiers, the generic one
first: the generic identifier, unless the buffer holds the registry entry of another, which is
then the result. -/
def registryDecode (ids : List ObjectId) (obj : OfObject) : Option ObjectId :=
  ids.head?.map fun generic =>
    (ids.find? fun id => (extensionEntry T id).any fun e => decide (e.Holds obj)).getD generic

section Decoders

variable {T} {generic bsnMirror bsnSetTunnelDst niciraDecTtl x : ObjectId} {e : ExtensionEntry}
  {obj : OfObject}

/-- A decoder returns the extension whose entry the buffer holds. -/
theorem extensionObjectIdGet_of_holds
    (member : (x, e) ∈ familyEntries T bsnMirror bsnSetTunnelDst niciraDecTtl)
    (holds : e.Holds obj) :
    extensionObjectIdGet T generic bsnMirror bsnSetTunnelDst niciraDecTtl obj = some x := by
  obtain ⟨vendor, subtype⟩ := holds
  simp only [familyEntries, List.mem_cons, Prod.mk.injEq, List.mem_singleton,
    List.not_mem_nil, or_false] at member
  rcases member with ⟨rfl, rfl⟩ | ⟨rfl, rfl⟩ | ⟨rfl, rfl⟩ <;>
    simp_all [extensionObjectIdGet, T.experimenterIdBsn_ne_nicira.symm]

/-- A decoder returns an identifier other than the generic one only for an extension whose
entry the buffer holds: it reads exactly the fields the encoder writes. -/
theorem holds_of_extensionObjectIdGet
    (h : extensionObjectIdGet T generic bsnMirror bsnSetTunnelDst niciraDecTtl obj = some x)
    (registered : x ≠ generic) :
    ∃ e, (x, e) ∈ familyEntries T bsnMirror bsnSetTunnelDst niciraDecTtl ∧ e.Holds obj := by
  obtain ⟨expId, vendor, decoded⟩ := Option.bind_eq_some.mp h
  split_ifs at decoded with bsn nicira
  · obtain ⟨subtype, hsubtype, rfl⟩ := Option.map_eq_some'.mp decoded
    split_ifs at registered ⊢ with one two
    · exact ⟨⟨T.ofExperimenterIdBsn, 4, 1⟩, by simp [familyEntries], by rw [vendor, bsn],
        by rw [hsubtype, one]⟩
    · exact ⟨⟨T.ofExperimenterIdBsn, 4, 2⟩, by simp [familyEntries], by rw [vendor, bsn],
        by rw [hsubtype, two]⟩
    · exact absurd rfl registered
  · obtain ⟨subtype, hsubtype, rfl⟩ := Option.map_eq_some'.mp decoded
    split_ifs at registered ⊢ with eighteen
    · exact ⟨⟨T.ofExperimenterIdNicira, 2, 18⟩, by simp [familyEntries],
        by rw [vendor, nicira], by rw [hsubtype, eighteen]⟩
    · exact absurd rfl registered
  · exact absurd (Option.some.inj decoded).symm registered

/-- Relabelling a family's identifiers relabels what its decoder returns. -/
theorem extensionObjectIdGet_map (f : ObjectId → ObjectId) :
    extensionObjectIdGet T (f generic) (f bsnMirror) (f bsnSetTunnelDst) (f niciraDecTtl) obj =
      (extensionObjectIdGet T generic bsnMirror bsnSetTunnelDst niciraDecTtl obj).map f := by
  unfold extensionObjectIdGet
  cases obj.fieldGet ofActionExperimenterIdOffset 4 with
  | none => rfl
  | some expId =>
    simp only [Option.some_bind]
    split_ifs <;> simp [Option.map_map, Function.comp_def, apply_ite f]

/-- A decoder reads only bytes 4 to 11. -/
theorem extensionObjectIdGet_congr_header {obj' : OfObject}
    (agree : ∀ offset width, 4 ≤ offset → offset + width ≤ 12 →
      obj'.fieldGet offset width = obj.fieldGet offset width) :
    extensionObjectIdGet T generic bsnMirror bsnSetTunnelDst niciraDecTtl obj' =
      extensionObjectIdGet T generic bsnMirror bsnSetTunnelDst niciraDecTtl obj := by
  unfold extensionObjectIdGet
  rw [agree ofActionExperimenterIdOffset 4 (by decide) (by decide),
    agree ofActionExperimenterSubtypeOffset 4 (by decide) (by decide),
    agree ofActionExperimenterSubtypeOffset 2 (by decide) (by decide)]

/-- A decoder reads nothing below byte 4. -/
theorem extensionObjectIdGet_congr {obj' : OfObject}
    (agree : ∀ offset width, 4 ≤ offset →
      obj'.fieldGet offset width = obj.fieldGet offset width) :
    extensionObjectIdGet T generic bsnMirror bsnSetTunnelDst niciraDecTtl obj' =
      extensionObjectIdGet T generic bsnMirror bsnSetTunnelDst niciraDecTtl obj :=
  extensionObjectIdGet_congr_header fun offset width above _ => agree offset width above

/-- A decoder's entries are registry entries when its three extensions are registered with
them. -/
theorem extensionEntry_of_mem_familyEntries
    (mirror : extensionEntry T bsnMirror = some ⟨T.ofExperimenterIdBsn, 4, 1⟩)
    (tunnelDst : extensionEntry T bsnSetTunnelDst = some ⟨T.ofExperimenterIdBsn, 4, 2⟩)
    (decTtl : extensionEntry T niciraDecTtl = some ⟨T.ofExperimenterIdNicira, 2, 18⟩)
    (member : (x, e) ∈ familyEntries T bsnMirror bsnSetTunnelDst niciraDecTtl) :
    extensionEntry T x = some e := by
  simp only [familyEntries, List.mem_cons, Prod.mk.injEq, List.mem_singleton,
    List.not_mem_nil, or_false] at member
  rcases member with ⟨rfl, rfl⟩ | ⟨rfl, rfl⟩ | ⟨rfl, rfl⟩ <;> assumption

private theorem wbuf_isSome_of_holds (holds : e.Holds obj) : obj.wbuf.isSome := by
  obtain ⟨wbuf, hbuf, _⟩ := Option.bind_eq_some.mp holds.1
  simp [hbuf]

/-- Encoding a family's extension and decoding it gives the extension back. -/
theorem extensionObjectIdGet_of_ofExtensionObjectIdSet
    (member : (x, e) ∈ familyEntries T bsnMirror bsnSetTunnelDst niciraDecTtl)
    (registry : extensionEntry T x = some e) {wbuf : WireBuffer} (hbuf : obj.wbuf = some wbuf)
    (room : obj.objOffset + 8 + e.subtypeWidth ≤ wbuf.bytes.length) :
    (ofExtensionObjectIdSet T obj x).bind
      (extensionObjectIdGet T generic bsnMirror bsnSetTunnelDst niciraDecTtl) = some x := by
  obtain ⟨vendorFits, subtypeFits, -⟩ := extensionEntry_fits T registry
  obtain ⟨obj', hwrite⟩ : ∃ obj', e.write obj = some obj' :=
    Option.isSome_iff_exists.mp (ExtensionEntry.write_isSome hbuf room)
  rw [ofExtensionObjectIdSet_eq, registry]
  simp only [hwrite, Option.some_bind]
  exact extensionObjectIdGet_of_holds member
    (ExtensionEntry.holds_of_write hwrite vendorFits subtypeFits)

/-- Encoding an extension its family's decoder found changes nothing. -/
theorem ofExtensionObjectIdSet_of_extensionObjectIdGet
    (registry : ∀ x e, (x, e) ∈ familyEntries T bsnMirror bsnSetTunnelDst niciraDecTtl →
      extensionEntry T x = some e)
    (h : extensionObjectIdGet T generic bsnMirror bsnSetTunnelDst niciraDecTtl obj = some x)
    (registered : x ≠ generic) : ofExtensionObjectIdSet T obj x = some obj := by
  obtain ⟨e, member, holds⟩ := holds_of_extensionObjectIdGet h registered
  obtain ⟨wbuf, hbuf⟩ := Option.isSome_iff_exists.mp (wbuf_isSome_of_holds holds)
  rw [ofExtensionObjectIdSet_eq, registry x e member]
  exact ExtensionEntry.write_of_holds holds

/-- On a buffer that holds the experimenter header a decoder never fails, and it is the
spec's registry lookup over its family's identifiers when the generic one has no registry
entry and the three extensions have the entries the decoder tests. -/
theorem extensionObjectIdGet_eq_registryDecode (unregistered : extensionEntry T generic = none)
    (mirror : extensionEntry T bsnMirror = some ⟨T.ofExperimenterIdBsn, 4, 1⟩)
    (tunnelDst : extensionEntry T bsnSetTunnelDst = some ⟨T.ofExperimenterIdBsn, 4, 2⟩)
    (decTtl : extensionEntry T niciraDecTtl = some ⟨T.ofExperimenterIdNicira, 2, 18⟩)
    {wbuf : WireBuffer} (hbuf : obj.wbuf = some wbuf)
    (room : obj.objOffset + 12 ≤ wbuf.bytes.length) :
    extensionObjectIdGet T generic bsnMirror bsnSetTunnelDst niciraDecTtl obj =
      registryDecode T [generic, bsnMirror, bsnSetTunnelDst, niciraDecTtl] obj := by
  obtain ⟨vendor, hvendor⟩ := OfObject.exists_fieldGet_of_room ofActionExperimenterIdOffset 4
    hbuf (by unfold ofActionExperimenterIdOffset; omega)
  obtain ⟨wide, hwide⟩ := OfObject.exists_fieldGet_of_room ofActionExperimenterSubtypeOffset 4
    hbuf (by unfold ofActionExperimenterSubtypeOffset; omega)
  obtain ⟨narrow, hnarrow⟩ := OfObject.exists_fieldGet_of_room ofActionExperimenterSubtypeOffset 2
    hbuf (by unfold ofActionExperimenterSubtypeOffset; omega)
  have vendors := T.experimenterIdBsn_ne_nicira
  simp only [extensionObjectIdGet, registryDecode, List.find?, unregistered, mirror, tunnelDst,
    decTtl, Option.any, ExtensionEntry.Holds, hvendor, hwide, hnarrow, Option.some_bind,
    Option.map_some', List.head?_cons, Option.some.injEq]
  by_cases bsn : vendor = T.ofExperimenterIdBsn
  · by_cases one : wide = 1 <;> by_cases two : wide = 2 <;> simp_all
  · by_cases nicira : vendor = T.ofExperimenterIdNicira <;> by_cases eighteen : narrow = 18 <;>
      simp_all

end Decoders

/-- The encoder and the decoders are mutually inverse on the registered extensions: encoding
an action or action identifier extension into a buffer with room for its vendor identifier and
subtype (ten bytes from the object's start for Nicira's, twelve for BSN's) and decoding gives
it back, and encoding the extension a decoder found rewrites no byte. -/
theorem extension_encode_decode_inverse (T : TypeMaps) :
    (∀ x ∈ [ObjectId.ofActionBsnMirror, .ofActionBsnSetTunnelDst, .ofActionNiciraDecTtl],
      ∀ (obj : OfObject) (wbuf : WireBuffer), obj.wbuf = some wbuf →
        (∀ e ∈ extensionEntry T x, obj.objOffset + 8 + e.subtypeWidth ≤ wbuf.bytes.length) →
          (ofExtensionObjectIdSet T obj x).bind (extensionActionObjectIdGet T) = some x) ∧
    (∀ x ∈ [ObjectId.ofActionIdBsnMirror, .ofActionIdBsnSetTunnelDst, .ofActionIdNiciraDecTtl],
      ∀ (obj : OfObject) (wbuf : WireBuffer), obj.wbuf = some wbuf →
        (∀ e ∈ extensionEntry T x, obj.objOffset + 8 + e.subtypeWidth ≤ wbuf.bytes.length) →
          (ofExtensionObjectIdSet T obj x).bind (extensionActionIdObjectIdGet T) = some x) ∧
    (∀ (obj : OfObject) (x : ObjectId), extensionActionObjectIdGet T obj = some x →
      x ≠ .ofActionExperimenter → ofExtensionObjectIdSet T obj x = some obj) ∧
    (∀ (obj : OfObject) (x : ObjectId), extensionActionIdObjectIdGet T obj = some x →
      x ≠ .ofActionIdExperimenter → ofExtensionObjectIdSet T obj x = some obj) := by
  refine ⟨fun x member obj wbuf hbuf room => ?_, fun x member obj wbuf hbuf room => ?_,
    fun _ _ h registered => ofExtensionObjectIdSet_of_extensionObjectIdGet
      (fun _ _ => extensionEntry_of_mem_familyEntries (by rfl) (by rfl) (by rfl)) h registered,
    fun _ _ h registered => ofExtensionObjectIdSet_of_extensionObjectIdGet
      (fun _ _ => extensionEntry_of_mem_familyEntries (by rfl) (by rfl) (by rfl)) h
        registered⟩ <;>
  · simp only [List.mem_cons, List.mem_singleton, List.not_mem_nil, or_false] at member
    rcases member with rfl | rfl | rfl <;>
      exact extensionObjectIdGet_of_ofExtensionObjectIdSet (by simp [familyEntries]) rfl hbuf
        (room _ rfl)

/-- Each action experimenter identifier to its action identifier twin, and every other
identifier to itself. -/
def actionIdOfAction : ObjectId → ObjectId
  | .ofActionExperimenter => .ofActionIdExperimenter
  | .ofActionBsnMirror => .ofActionIdBsnMirror
  | .ofActionBsnSetTunnelDst => .ofActionIdBsnSetTunnelDst
  | .ofActionNiciraDecTtl => .ofActionIdNiciraDecTtl
  | id => id

/-- The action identifier decoder is the action decoder followed by `actionIdOfAction`. -/
theorem extensionActionIdObjectIdGet_eq_map (obj : OfObject) :
    extensionActionIdObjectIdGet T obj =
      (extensionActionObjectIdGet T obj).map actionIdOfAction := by
  unfold extensionActionObjectIdGet
  rw [← extensionObjectIdGet_map]
  rfl

/-- The encoder writes the same bytes for an action extension and its action identifier
twin. -/
theorem ofExtensionObjectIdSet_actionIdOfAction (obj : OfObject) (id : ObjectId) :
    ofExtensionObjectIdSet T obj (actionIdOfAction id) = ofExtensionObjectIdSet T obj id := by
  cases id <;> rfl

/-! ### The push of defaults -/

/-- Modelled from the spec: the generated setters of an extension's `experimenter` field, a
checked 32-bit store at byte 4 of the object. -/
def experimenterSet (obj : OfObject) (experimenter : Nat) : Option OfObject :=
  obj.fieldSet 4 4 experimenter

/-- Modelled from the spec: the generated setters of an extension's `subtype` field, a checked
store of `width` bytes at byte 8 of the object. -/
def subtypeSet (width : Nat) (obj : OfObject) (subtype : Nat) : Option OfObject :=
  obj.fieldSet 8 width subtype

/-- `of_action_bsn_mirror_experimenter_set`. -/
def ofActionBsnMirrorExperimenterSet : OfObject → Nat → Option OfObject := experimenterSet

/-- `of_action_bsn_mirror_subtype_set`. -/
def ofActionBsnMirrorSubtypeSet : OfObject → Nat → Option OfObject := subtypeSet 4

/-- `of_action_id_bsn_mirror_experimenter_set`. -/
def ofActionIdBsnMirrorExperimenterSet : OfObject → Nat → Option OfObject := experimenterSet

/-- `of_action_id_bsn_mirror_subtype_set`. -/
def ofActionIdBsnMirrorSubtypeSet : OfObject → Nat → Option OfObject := subtypeSet 4

/-- `of_action_bsn_set_tunnel_dst_experimenter_set`. -/
def ofActionBsnSetTunnelDstExperimenterSet : OfObject → Nat → Option OfObject := experimenterSet

/-- `of_action_bsn_set_tunnel_dst_subtype_set`. -/
def ofActionBsnSetTunnelDstSubtypeSet : OfObject → Nat → Option OfObject := subtypeSet 4

/-- `of_action_id_bsn_set_tunnel_dst_experimenter_set`. -/
def ofActionIdBsnSetTunnelDstExperimenterSet : OfObject → Nat → Option OfObject :=
  experimenterSet

/-- `of_action_id_bsn_set_tunnel_dst_subtype_set`. -/
def ofActionIdBsnSetTunnelDstSubtypeSet : OfObject → Nat → Option OfObject := subtypeSet 4

/-- `of_action_nicira_dec_ttl_experimenter_set`. -/
def ofActionNiciraDecTtlExperimenterSet : OfObject → Nat → Option OfObject := experimenterSet

/-- `of_action_nicira_dec_ttl_subtype_set`. -/
def ofActionNiciraDecTtlSubtypeSet : OfObject → Nat → Option OfObject := subtypeSet 2

/-- `of_action_id_nicira_dec_ttl_experimenter_set`. -/
def ofActionIdNiciraDecTtlExperimenterSet : OfObject → Nat → Option OfObject := experimenterSet

/-- `of_action_id_nicira_dec_ttl_subtype_set`. -/
def ofActionIdNiciraDecTtlSubtypeSet : OfObject → Nat → Option OfObject := subtypeSet 2

/-- `of_extension_object_wire_push`: a new extension object gets the vendor identifier and
subtype of its own identifier through its generated setters; any other object is left alone.
It returns `OF_ERROR_NONE` whenever it returns. -/
def ofExtensionObjectWirePush (obj : OfObject) : Option OfObject :=
  match obj.objectId with
  | .ofActionBsnMirror =>
    (ofActionBsnMirrorExperimenterSet obj T.ofExperimenterIdBsn).bind
      (ofActionBsnMirrorSubtypeSet · 1)
  | .ofActionIdBsnMirror =>
    (ofActionIdBsnMirrorExperimenterSet obj T.ofExperimenterIdBsn).bind
      (ofActionIdBsnMirrorSubtypeSet · 1)
  | .ofActionBsnSetTunnelDst =>
    (ofActionBsnSetTunnelDstExperimenterSet obj T.ofExperimenterIdBsn).bind
      (ofActionBsnSetTunnelDstSubtypeSet · 2)
  | .ofActionIdBsnSetTunnelDst =>
    (ofActionIdBsnSetTunnelDstExperimenterSet obj T.ofExperimenterIdBsn).bind
      (ofActionIdBsnSetTunnelDstSubtypeSet · 2)
  | .ofActionNiciraDecTtl =>
    (ofActionNiciraDecTtlExperimenterSet obj T.ofExperimenterIdNicira).bind
      (ofActionNiciraDecTtlSubtypeSet · 18)
  | .ofActionIdNiciraDecTtl =>
    (ofActionIdNiciraDecTtlExperimenterSet obj T.ofExperimenterIdNicira).bind
      (ofActionIdNiciraDecTtlSubtypeSet · 18)
  | _ => some obj

/-- On an object with a buffer the push changes at most bytes 4 to 11. -/
theorem ofExtensionObjectWirePush_changesOnly {obj obj' : OfObject} {wbuf : WireBuffer}
    (hbuf : obj.wbuf = some wbuf) (h : ofExtensionObjectWirePush T obj = some obj') :
    obj'.ChangesOnly obj (obj.objOffset + 4) 8 := by
  unfold ofExtensionObjectWirePush at h
  split at h
  all_goals first
    | exact Option.some.inj h ▸ OfObject.ChangesOnly.refl hbuf
    | obtain ⟨_, hvendor, hsubtype⟩ := Option.bind_eq_some.mp h
      exact changesOnly_of_vendor_subtype hvendor hsubtype (by decide)

/-- On every object with a buffer, the push writes byte for byte what the encoder writes for
the object's own identifier: for the six registered extensions, the registry entry, its vendor
identifier at byte 4 and its subtype, in the entry's width, at byte 8; for every other
identifier, nothing. -/
theorem ofExtensionObjectWirePush_eq_idSet (T : TypeMaps) (obj : OfObject) (wbuf : WireBuffer)
    (hbuf : obj.wbuf = some wbuf) :
    ofExtensionObjectWirePush T obj = ofExtensionObjectIdSet T obj obj.objectId ∧
      (∀ e, extensionEntry T obj.objectId = some e →
        ofExtensionObjectWirePush T obj = e.write obj) ∧
      (extensionEntry T obj.objectId = none → ofExtensionObjectWirePush T obj = some obj) := by
  have agree : ofExtensionObjectWirePush T obj = ofExtensionObjectIdSet T obj obj.objectId := by
    obtain ⟨version, objectId, length, objOffset, parent, _⟩ := obj
    obtain rfl := hbuf
    cases objectId <;> rfl
  refine ⟨agree, fun e hentry => ?_, fun hentry => ?_⟩
  · rw [agree, ofExtensionObjectIdSet_eq, hentry]
  · rw [agree, ofExtensionObjectIdSet_of_unregistered hentry hbuf]

/-- The push and the encoder agree on a BSN mirror action in a twelve-byte buffer, both
writing its registry entry. -/
theorem ofExtensionObjectWirePush_eq_idSet_mirror :
    let obj : OfObject := ⟨.ofVersion1_3, .ofActionBsnMirror, 12, 0, none,
      some ⟨List.replicate 12 0⟩⟩
    obj.wbuf = some ⟨List.replicate 12 0⟩ ∧
      ofExtensionObjectWirePush TypeMaps.sample obj =
        ofExtensionObjectIdSet TypeMaps.sample obj obj.objectId ∧
      (∀ e, extensionEntry TypeMaps.sample obj.objectId = some e →
        ofExtensionObjectWirePush TypeMaps.sample obj = e.write obj) ∧
      (extensionEntry TypeMaps.sample obj.objectId = none →
        ofExtensionObjectWirePush TypeMaps.sample obj = some obj) :=
  ⟨rfl, ofExtensionObjectWirePush_eq_idSet _ _ _ rfl⟩

end Loci

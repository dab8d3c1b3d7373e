import Loci.Length

/-!
# OXM headers

An OXM match field opens with one big-endian 32-bit word: a 16-bit class, a 7-bit field, a
has-mask bit and an 8-bit payload length. The class, field and mask bit together form the
masked type, the key of the OXM tables. Each setter reads the word, replaces its own bits and
writes the word back, so the two fields share a store but not a bit.

The packing is first turned into arithmetic on the word (the length is the low byte, the
masked type the 24 bits above it); the field laws are then linear facts about that arithmetic,
and the object-level result is assembled from the field laws and the store lemmas of
`Loci.OfObject`.

## Main definitions

* `Loci.ofOxmLengthGet`, `Loci.ofOxmLengthSet`, `Loci.ofOxmMaskedTypeGet`,
  `Loci.ofOxmMaskedTypeSet` — the bit packing of the header word
* `Loci.ofOxmWireLengthGet` / `Loci.ofOxmWireLengthSet` — the payload length accessors
* `Loci.ofOxmWireObjectIdGet` / `Loci.ofOxmWireObjectIdSet` — the identity accessors
* `Loci.TypeMaps.OxmValidIn` — an identifier the OXM tables resolve in a version

## Main results

* `ofOxmLengthSet_eq`, `ofOxmMaskedTypeSet_eq` — the packings as arithmetic on the word
* `ofOxmWireLengthSet_eq`, `ofOxmWireObjectIdSet_eq` — each setter is one store of the
  header word with its own bits replaced
* `oxm_header_fields_independent` — the two setters commute, each is read back, and neither
  disturbs the other field or any byte outside the header
* `oxm_setters_last_write_wins` — the length is a register, and the last identity stored wins
-/

namespace Loci

/-! ### The header word -/

/-- `OXM_HDR_OFFSET`: the header lies at the start of the object. -/
def oxmHdrOffset : Nat := 0

/-- Modelled from the spec: `OF_OXM_LENGTH_GET`, the low byte of the header. -/
def ofOxmLengthGet (hdr : Nat) : Nat := hdr &&& 0xff

/-- Modelled from the spec: `OF_OXM_LENGTH_SET`, the header with its low byte replaced. -/
def ofOxmLengthSet (hdr val : Nat) : Nat := (hdr &&& 0xffffff00) ||| (val &&& 0xff)

/-- Modelled from the spec: `OF_OXM_MASKED_TYPE_GET`, class, field and mask bit. -/
def ofOxmMaskedTypeGet (hdr : Nat) : Nat := (hdr >>> 8) &&& 0xffffff

/-- Modelled from the spec: `OF_OXM_MASKED_TYPE_SET`, the header with its upper 24 bits
replaced. -/
def ofOxmMaskedTypeSet (hdr val : Nat) : Nat := (hdr &&& 0xff) ||| ((val &&& 0xffffff) <<< 8)

theorem ofOxmLengthGet_eq (hdr : Nat) : ofOxmLengthGet hdr = hdr % 256 :=
  Nat.and_pow_two_sub_one_eq_mod hdr 8

theorem ofOxmMaskedTypeGet_eq (hdr : Nat) : ofOxmMaskedTypeGet hdr = hdr / 256 % 2 ^ 24 := by
  rw [ofOxmMaskedTypeGet, show (0xffffff : Nat) = 2 ^ 24 - 1 from rfl,
    Nat.and_pow_two_sub_one_eq_mod, Nat.shiftRight_eq_div_pow]

/-- The masked type lands above the length byte, so the disjunction is a sum. -/
theorem ofOxmMaskedTypeSet_eq (hdr val : Nat) :
    ofOxmMaskedTypeSet hdr val = val % 2 ^ 24 * 256 + hdr % 256 := by
  rw [ofOxmMaskedTypeSet, show (0xffffff : Nat) = 2 ^ 24 - 1 from rfl,
    show (0xff : Nat) = 2 ^ 8 - 1 from rfl, Nat.and_pow_two_sub_one_eq_mod,
    Nat.and_pow_two_sub_one_eq_mod, Nat.shiftLeft_eq, Nat.or_comm, Nat.mul_comm,
    ← Nat.mul_add_lt_is_or (Nat.mod_lt _ (by decide))]

/-- On a 32-bit word the mask `0xffffff00` clears exactly the low byte. -/
private theorem and_high_mask_eq (hdr : Nat) (fits : hdr < 2 ^ 32) :
    hdr &&& 0xffffff00 = 2 ^ 8 * (hdr >>> 8) := by
  apply Nat.eq_of_testBit_eq
  intro i
  rw [show (0xffffff00 : Nat) = 2 ^ 8 * (2 ^ 24 - 1) from rfl, Nat.testBit_and,
    Nat.testBit_mul_pow_two, Nat.testBit_mul_pow_two, Nat.testBit_two_pow_sub_one,
    Nat.testBit_shiftRight]
  by_cases low : 8 ≤ i
  · have shifted : 8 + (i - 8) = i := by omega
    by_cases high : i < 32
    · simp [low, shifted, show i - 8 < 24 by omega]
    · have clear := Nat.testBit_lt_two_pow
        (lt_of_lt_of_le fits (Nat.pow_le_pow_right (by decide) (show 32 ≤ i by omega)))
      simp [low, shifted, clear]
  · simp [low]

theorem ofOxmLengthSet_eq (hdr val : Nat) (fits : hdr < 2 ^ 32) :
    ofOxmLengthSet hdr val = hdr / 256 * 256 + val % 256 := by
  rw [ofOxmLengthSet, and_high_mask_eq hdr fits, show (0xff : Nat) = 2 ^ 8 - 1 from rfl,
    Nat.and_pow_two_sub_one_eq_mod, ← Nat.mul_add_lt_is_or (Nat.mod_lt _ (by decide)),
    Nat.shiftRight_eq_div_pow, Nat.mul_comm]

/-! ### Field laws of the header word -/

section Word

variable {hdr : Nat}

theorem ofOxmLengthSet_lt (fits : hdr < 2 ^ 32) (val : Nat) :
    ofOxmLengthSet hdr val < 2 ^ 32 := by
  rw [ofOxmLengthSet_eq hdr val fits]
  omega

theorem ofOxmMaskedTypeSet_lt (hdr val : Nat) : ofOxmMaskedTypeSet hdr val < 2 ^ 32 := by
  rw [ofOxmMaskedTypeSet_eq]
  omega

theorem ofOxmLengthGet_ofOxmLengthSet (fits : hdr < 2 ^ 32) (val : Nat) :
    ofOxmLengthGet (ofOxmLengthSet hdr val) = val % 256 := by
  rw [ofOxmLengthGet_eq, ofOxmLengthSet_eq hdr val fits]
  omega

theorem ofOxmMaskedTypeGet_ofOxmLengthSet (fits : hdr < 2 ^ 32) (val : Nat) :
    ofOxmMaskedTypeGet (ofOxmLengthSet hdr val) = ofOxmMaskedTypeGet hdr := by
  rw [ofOxmMaskedTypeGet_eq, ofOxmMaskedTypeGet_eq, ofOxmLengthSet_eq hdr val fits]
  omega

theorem ofOxmLengthGet_ofOxmMaskedTypeSet (hdr val : Nat) :
    ofOxmLengthGet (ofOxmMaskedTypeSet hdr val) = ofOxmLengthGet hdr := by
  rw [ofOxmLengthGet_eq, ofOxmLengthGet_eq, ofOxmMaskedTypeSet_eq]
  omega

theorem ofOxmMaskedTypeGet_ofOxmMaskedTypeSet (hdr val : Nat) :
    ofOxmMaskedTypeGet (ofOxmMaskedTypeSet hdr val) = val % 2 ^ 24 := by
  rw [ofOxmMaskedTypeGet_eq, ofOxmMaskedTypeSet_eq]
  omega

theorem ofOxmLengthSet_ofOxmLengthGet (fits : hdr < 2 ^ 32) :
    ofOxmLengthSet hdr (ofOxmLengthGet hdr) = hdr := by
  rw [ofOxmLengthSet_eq hdr _ fits, ofOxmLengthGet_eq]
  omega

theorem ofOxmMaskedTypeSet_ofOxmMaskedTypeGet (fits : hdr < 2 ^ 32) :
    ofOxmMaskedTypeSet hdr (ofOxmMaskedTypeGet hdr) = hdr := by
  rw [ofOxmMaskedTypeSet_eq, ofOxmMaskedTypeGet_eq]
  omega

theorem ofOxmLengthSet_ofOxmLengthSet (fits : hdr < 2 ^ 32) (val val' : Nat) :
    ofOxmLengthSet (ofOxmLengthSet hdr val) val' = ofOxmLengthSet hdr val' := by
  rw [ofOxmLengthSet_eq _ val' (ofOxmLengthSet_lt fits val), ofOxmLengthSet_eq hdr val fits,
    ofOxmLengthSet_eq hdr val' fits]
  omega

theorem ofOxmMaskedTypeSet_ofOxmMaskedTypeSet (hdr val val' : Nat) :
    ofOxmMaskedTypeSet (ofOxmMaskedTypeSet hdr val) val' = ofOxmMaskedTypeSet hdr val' := by
  rw [ofOxmMaskedTypeSet_eq, ofOxmMaskedTypeSet_eq, ofOxmMaskedTypeSet_eq]
  omega

/-- The two read-modify-writes of the word commute. -/
theorem ofOxmLengthSet_ofOxmMaskedTypeSet (fits : hdr < 2 ^ 32) (len type : Nat) :
    ofOxmLengthSet (ofOxmMaskedTypeSet hdr type) len =
      ofOxmMaskedTypeSet (ofOxmLengthSet hdr len) type := by
  rw [ofOxmLengthSet_eq _ len (ofOxmMaskedTypeSet_lt hdr type), ofOxmMaskedTypeSet_eq,
    ofOxmMaskedTypeSet_eq, ofOxmLengthSet_eq hdr len fits]
  omega

end Word

/-! ### The accessors -/

/-- `_GET_OXM_TYPE_LEN`: the header word, loaded as a big-endian `uint32`. -/
def getOxmTypeLen (obj : OfObject) : Option Nat := obj.fieldGet oxmHdrOffset 4

/-- `of_oxm_wire_length_get`. -/
def ofOxmWireLengthGet (obj : OfObject) : Option Int :=
  (getOxmTypeLen obj).map fun typeLen => (ofOxmLengthGet typeLen : Int)

/-- `of_oxm_wire_length_set`: asserts `0 ≤ bytes < 256`, then stores the header with its
length replaced. -/
def ofOxmWireLengthSet (obj : OfObject) (bytes : Int) : Option OfObject :=
  if 0 ≤ bytes ∧ bytes < 256 then
    (getOxmTypeLen obj).bind fun typeLen =>
      obj.fieldSet oxmHdrOffset 4 (ofOxmLengthSet typeLen bytes.toNat)
  else none

/-- `of_oxm_wire_object_id_get`: the masked type, resolved in the object's version. -/
def ofOxmWireObjectIdGet (T : TypeMaps) (obj : OfObject) : Option ObjectId :=
  (getOxmTypeLen obj).map fun typeLen =>
    T.ofOxmToObjectId (ofOxmMaskedTypeGet typeLen) obj.version

/-- `of_oxm_wire_object_id_set`: asserts that `id` is an OXM identifier and that it has a
wire type in the object's version, then stores the header with its masked type replaced. -/
def ofOxmWireObjectIdSet (T : TypeMaps) (obj : OfObject) (id : ObjectId) : Option OfObject :=
  if T.ofOxmValidId id then
    (getOxmTypeLen obj).bind fun typeLen =>
      if 0 ≤ ofObjectToWireType T id obj.version then
        obj.fieldSet oxmHdrOffset 4
          (ofOxmMaskedTypeSet typeLen (ofObjectToWireType T id obj.version).toNat)
      else none
  else none

/-- An OXM identifier with a wire type in `version` that the OXM table maps back to it. -/
def TypeMaps.OxmValidIn (T : TypeMaps) (version : Version) (id : ObjectId) : Prop :=
  T.ofOxmValidId id = true ∧ 0 ≤ ofObjectToWireType T id version ∧
    T.ofOxmToObjectId (ofObjectToWireType T id version).toNat version = id

instance (T : TypeMaps) (version : Version) (id : ObjectId) :
    Decidable (T.OxmValidIn version id) :=
  inferInstanceAs (Decidable (_ ∧ _ ∧ _))

section Accessors

variable {T : TypeMaps} {obj obj' : OfObject} {typeLen word : Nat}

theorem getOxmTypeLen_lt (h : getOxmTypeLen obj = some typeLen) : typeLen < 2 ^ 32 :=
  OfObject.fieldGet_lt h

theorem getOxmTypeLen_of_fieldSet (h : obj.fieldSet oxmHdrOffset 4 word = some obj')
    (fits : word < 2 ^ 32) : getOxmTypeLen obj' = some word := by
  rw [getOxmTypeLen, OfObject.fieldGet_of_fieldSet_self h,
    Nat.mod_eq_of_lt (show word < 256 ^ 4 from fits)]

theorem ofOxmWireLengthSet_eq {bytes : Int} (h : getOxmTypeLen obj = some typeLen)
    (low : 0 ≤ bytes) (high : bytes < 256) :
    ofOxmWireLengthSet obj bytes =
      obj.fieldSet oxmHdrOffset 4 (ofOxmLengthSet typeLen bytes.toNat) := by
  rw [ofOxmWireLengthSet, if_pos ⟨low, high⟩, h, Option.some_bind]

theorem ofOxmWireObjectIdSet_eq {id : ObjectId} (h : getOxmTypeLen obj = some typeLen)
    (valid : T.ofOxmValidId id = true) (typed : 0 ≤ ofObjectToWireType T id obj.version) :
    ofOxmWireObjectIdSet T obj id =
      obj.fieldSet oxmHdrOffset 4
        (ofOxmMaskedTypeSet typeLen (ofObjectToWireType T id obj.version).toNat) := by
  rw [ofOxmWireObjectIdSet, if_pos valid, h, Option.some_bind, if_pos typed]

/-- Storing an identifier whose wire type is the masked type already in the header rewrites
no byte. -/
theorem ofOxmWireObjectIdSet_of_getOxmTypeLen {id : ObjectId} (h : getOxmTypeLen obj = some typeLen)
    (valid : T.ofOxmValidId id = true)
    (hw : ofObjectToWireType T id obj.version = ofOxmMaskedTypeGet typeLen) :
    ofOxmWireObjectIdSet T obj id = some obj := by
  rw [ofOxmWireObjectIdSet_eq h valid (by rw [hw]; omega), hw, Int.toNat_ofNat,
    ofOxmMaskedTypeSet_ofOxmMaskedTypeGet (getOxmTypeLen_lt h)]
  exact OfObject.fieldSet_of_fieldGet h

/-- Outside its assertion the length setter fails. -/
theorem ofOxmWireLengthSet_of_not {bytes : Int} (bad : ¬ (0 ≤ bytes ∧ bytes < 256)) :
    ofOxmWireLengthSet obj bytes = none :=
  if_neg bad

/-- Outside its assertions the identity setter fails. -/
theorem ofOxmWireObjectIdSet_of_not {id : ObjectId}
    (bad : ¬ (T.ofOxmValidId id = true ∧ 0 ≤ ofObjectToWireType T id obj.version)) :
    ofOxmWireObjectIdSet T obj id = none := by
  unfold ofOxmWireObjectIdSet
  split_ifs with valid typed
  · exact absurd ⟨valid, typed⟩ bad
  · exact Option.bind_none _
  · rfl

/-- What a successful length store did. -/
theorem ofOxmWireLengthSet_eq_some {bytes : Int} (h : ofOxmWireLengthSet obj bytes = some obj') :
    0 ≤ bytes ∧ bytes < 256 ∧ ∃ typeLen, getOxmTypeLen obj = some typeLen ∧
      obj.fieldSet oxmHdrOffset 4 (ofOxmLengthSet typeLen bytes.toNat) = some obj' := by
  by_cases valid : 0 ≤ bytes ∧ bytes < 256
  · rw [ofOxmWireLengthSet, if_pos valid, Option.bind_eq_some] at h
    exact ⟨valid.1, valid.2, h⟩
  · rw [ofOxmWireLengthSet_of_not valid] at h
    cases h

/-- What a successful identity store did. -/
theorem ofOxmWireObjectIdSet_eq_some {id : ObjectId}
    (h : ofOxmWireObjectIdSet T obj id = some obj') :
    T.ofOxmValidId id = true ∧ 0 ≤ ofObjectToWireType T id obj.version ∧
      ∃ typeLen, getOxmTypeLen obj = some typeLen ∧
        obj.fieldSet oxmHdrOffset 4
          (ofOxmMaskedTypeSet typeLen (ofObjectToWireType T id obj.version).toNat) = some obj' := by
  by_cases valid : T.ofOxmValidId id = true ∧ 0 ≤ ofObjectToWireType T id obj.version
  · obtain ⟨typeLen, htype, _⟩ := Option.bind_eq_some.mp (show _ = some obj' from
      (if_pos valid.1).symm.trans h)
    rw [ofOxmWireObjectIdSet_eq htype valid.1 valid.2] at h
    exact ⟨valid.1, valid.2, typeLen, htype, h⟩
  · rw [ofOxmWireObjectIdSet_of_not valid] at h
    cases h

/-- An OXM identifier's wire type fits the 24 bits of the masked type. -/
theorem wireType_toNat_lt_of_ofOxmValidId {version : Version} {id : ObjectId}
    (valid : T.ofOxmValidId id = true) : (ofObjectToWireType T id version).toNat < 2 ^ 24 := by
  have bound := T.oxmWireType_lt version id valid
  simp only [ofObjectToWireType]
  omega

end Accessors

/-! ### Independence of the two fields -/

/-- Writing the length and the identity of an OXM header, in either order, gives one object
on which both read back; each setter alone keeps the other field and changes no byte outside
the 4-byte header. -/
theorem oxm_header_fields_independent (T : TypeMaps) (obj : OfObject) (wbuf : WireBuffer)
    (n : Int) (id : ObjectId) (hbuf : obj.wbuf = some wbuf)
    (room : obj.objOffset + 4 ≤ wbuf.bytes.length) (low : 0 ≤ n) (high : n < 256)
    (valid : T.OxmValidIn obj.version id) :
    ∃ obj', (ofOxmWireLengthSet obj n).bind (ofOxmWireObjectIdSet T · id) = some obj' ∧
      (ofOxmWireObjectIdSet T obj id).bind (ofOxmWireLengthSet · n) = some obj' ∧
      ofOxmWireLengthGet obj' = some n ∧ ofOxmWireObjectIdGet T obj' = some id ∧
      (∀ lengthSet, ofOxmWireLengthSet obj n = some lengthSet →
        (getOxmTypeLen lengthSet).map ofOxmMaskedTypeGet =
          (getOxmTypeLen obj).map ofOxmMaskedTypeGet ∧
        lengthSet.ChangesOnly obj obj.objOffset 4) ∧
      (∀ typeSet, ofOxmWireObjectIdSet T obj id = some typeSet →
        ofOxmWireLengthGet typeSet = ofOxmWireLengthGet obj ∧
        typeSet.ChangesOnly obj obj.objOffset 4) := by
  have stores : ∀ word, ∃ obj', obj.fieldSet oxmHdrOffset 4 word = some obj' := fun word =>
    OfObject.exists_fieldSet_of_room oxmHdrOffset 4 word hbuf room
  obtain ⟨hdr, hhdr⟩ : ∃ hdr, getOxmTypeLen obj = some hdr := by
    rw [getOxmTypeLen, OfObject.fieldGet_of_wbuf hbuf, ← Option.isSome_iff_exists,
      WireBuffer.getBe_isSome_iff]
    exact room
  have fits := getOxmTypeLen_lt hhdr
  set len := n.toNat
  set type := (ofObjectToWireType T id obj.version).toNat
  obtain ⟨lengthSet, hlen⟩ := stores (ofOxmLengthSet hdr len)
  obtain ⟨typeSet, htype⟩ := stores (ofOxmMaskedTypeSet hdr type)
  obtain ⟨obj', hboth⟩ := stores (ofOxmMaskedTypeSet (ofOxmLengthSet hdr len) type)
  have lengthSet_hdr := getOxmTypeLen_of_fieldSet hlen (ofOxmLengthSet_lt fits len)
  have typeSet_hdr := getOxmTypeLen_of_fieldSet htype (ofOxmMaskedTypeSet_lt hdr type)
  have both_hdr := getOxmTypeLen_of_fieldSet hboth (ofOxmMaskedTypeSet_lt _ type)
  refine ⟨obj', ?lengthFirst, ?typeFirst, ?lengthRead, ?idRead, ?lengthAlone, ?typeAlone⟩
  case lengthFirst =>
    rw [ofOxmWireLengthSet_eq hhdr low high, hlen, Option.some_bind,
      ofOxmWireObjectIdSet_eq lengthSet_hdr valid.1
        (OfObject.version_of_fieldSet hlen ▸ valid.2.1),
      OfObject.fieldSet_of_fieldSet_self hlen, OfObject.version_of_fieldSet hlen, hboth]
  case typeFirst =>
    rw [ofOxmWireObjectIdSet_eq hhdr valid.1 valid.2.1, htype, Option.some_bind,
      ofOxmWireLengthSet_eq typeSet_hdr low high, OfObject.fieldSet_of_fieldSet_self htype,
      ofOxmLengthSet_ofOxmMaskedTypeSet fits, hboth]
  case lengthRead =>
    rw [ofOxmWireLengthGet, both_hdr, Option.map_some', ofOxmLengthGet_ofOxmMaskedTypeSet,
      ofOxmLengthGet_ofOxmLengthSet fits, Nat.mod_eq_of_lt (by omega), Int.toNat_of_nonneg low]
  case idRead =>
    rw [ofOxmWireObjectIdGet, both_hdr, Option.map_some', ofOxmMaskedTypeGet_ofOxmMaskedTypeSet,
      Nat.mod_eq_of_lt (wireType_toNat_lt_of_ofOxmValidId valid.1),
      OfObject.version_of_fieldSet hboth, valid.2.2]
  case lengthAlone =>
    intro _ h
    rw [ofOxmWireLengthSet_eq hhdr low high, hlen, Option.some.injEq] at h
    subst h
    rw [lengthSet_hdr, hhdr, Option.map_some', Option.map_some',
      ofOxmMaskedTypeGet_ofOxmLengthSet fits]
    exact ⟨rfl, OfObject.changesOnly_of_fieldSet hlen⟩
  case typeAlone =>
    intro _ h
    rw [ofOxmWireObjectIdSet_eq hhdr valid.1 valid.2.1, htype, Option.some.injEq] at h
    subst h
    rw [ofOxmWireLengthGet, ofOxmWireLengthGet, typeSet_hdr, hhdr, Option.map_some',
      Option.map_some', ofOxmLengthGet_ofOxmMaskedTypeSet]
    exact ⟨rfl, OfObject.changesOnly_of_fieldSet htype⟩

/-- The length 17 and the in-port identity written into a zeroed 1.3 OXM header. -/
theorem oxm_header_fields_independent_inPort :
    let obj : OfObject := ⟨.ofVersion1_3, .other 0, 4, 0, none, some ⟨[0, 0, 0, 0]⟩⟩
    obj.wbuf = some ⟨[0, 0, 0, 0]⟩ ∧ obj.objOffset + 4 ≤ 4 ∧
      (0 : Int) ≤ 17 ∧ (17 : Int) < 256 ∧
      TypeMaps.sample.OxmValidIn obj.version (.other 0) ∧
      ∃ obj', (ofOxmWireLengthSet obj 17).bind
          (ofOxmWireObjectIdSet TypeMaps.sample · (.other 0)) = some obj' ∧
        (ofOxmWireObjectIdSet TypeMaps.sample obj (.other 0)).bind
          (ofOxmWireLengthSet · 17) = some obj' ∧
        ofOxmWireLengthGet obj' = some 17 ∧
        ofOxmWireObjectIdGet TypeMaps.sample obj' = some (.other 0) ∧
        (∀ lengthSet, ofOxmWireLengthSet obj 17 = some lengthSet →
          (getOxmTypeLen lengthSet).map ofOxmMaskedTypeGet =
            (getOxmTypeLen obj).map ofOxmMaskedTypeGet ∧
          lengthSet.ChangesOnly obj obj.objOffset 4) ∧
        (∀ typeSet, ofOxmWireObjectIdSet TypeMaps.sample obj (.other 0) = some typeSet →
          ofOxmWireLengthGet typeSet = ofOxmWireLengthGet obj ∧
          typeSet.ChangesOnly obj obj.objOffset 4) :=
  have valid : TypeMaps.sample.OxmValidIn .ofVersion1_3 (.other 0) := by decide
  ⟨rfl, le_rfl, by decide, by decide, valid,
    oxm_header_fields_independent _ _ _ 17 _ rfl le_rfl (by decide) (by decide) valid⟩

/-! ### Last writes win -/

section LastWrite

variable {T : TypeMaps} {obj obj' : OfObject}

/-- The OXM length is a 16-bit register; the setter's 8-bit assertion keeps every stored
length whole. -/
theorem ofOxmWireLength_registerLaw : RegisterLaw ofOxmWireLengthGet ofOxmWireLengthSet := by
  refine ⟨fun obj n h => ?_, fun obj obj' n h => ?_, fun obj obj' n m h => ?_⟩
  · obtain ⟨hdr, hhdr, rfl⟩ := Option.map_eq_some'.mp h
    have fits := getOxmTypeLen_lt hhdr
    have byte : ofOxmLengthGet hdr < 256 := by rw [ofOxmLengthGet_eq]; omega
    have stored : ((ofOxmLengthGet hdr : Nat) : Int).toNat = ofOxmLengthGet hdr := by omega
    rw [ofOxmWireLengthSet_eq hhdr (by omega) (by omega), stored,
      ofOxmLengthSet_ofOxmLengthGet fits]
    exact OfObject.fieldSet_of_fieldGet hhdr
  · obtain ⟨low, high, hdr, hhdr, hstore⟩ := ofOxmWireLengthSet_eq_some h
    have fits := getOxmTypeLen_lt hhdr
    rw [ofOxmWireLengthGet, getOxmTypeLen_of_fieldSet hstore (ofOxmLengthSet_lt fits _),
      Option.map_some', ofOxmLengthGet_ofOxmLengthSet fits, Option.some.injEq]
    omega
  · obtain ⟨-, -, hdr, hhdr, hstore⟩ := ofOxmWireLengthSet_eq_some h
    have fits := getOxmTypeLen_lt hhdr
    by_cases valid : 0 ≤ m ∧ m < 256
    · rw [ofOxmWireLengthSet_eq (getOxmTypeLen_of_fieldSet hstore (ofOxmLengthSet_lt fits _))
        valid.1 valid.2, ofOxmWireLengthSet_eq hhdr valid.1 valid.2,
        OfObject.fieldSet_of_fieldSet_self hstore, ofOxmLengthSet_ofOxmLengthSet fits]
    · rw [ofOxmWireLengthSet_of_not valid, ofOxmWireLengthSet_of_not valid]

/-- Of two OXM identity stores the second wins, failures included. -/
theorem ofOxmWireObjectIdSet_of_ofOxmWireObjectIdSet {id id' : ObjectId}
    (h : ofOxmWireObjectIdSet T obj id = some obj') :
    ofOxmWireObjectIdSet T obj' id' = ofOxmWireObjectIdSet T obj id' := by
  obtain ⟨-, -, hdr, hhdr, hstore⟩ := ofOxmWireObjectIdSet_eq_some h
  have sameVersion := OfObject.version_of_fieldSet hstore
  by_cases valid : T.ofOxmValidId id' = true ∧ 0 ≤ ofObjectToWireType T id' obj.version
  · rw [ofOxmWireObjectIdSet_eq (getOxmTypeLen_of_fieldSet hstore (ofOxmMaskedTypeSet_lt _ _))
      valid.1 (sameVersion ▸ valid.2), ofOxmWireObjectIdSet_eq hhdr valid.1 valid.2,
      sameVersion, OfObject.fieldSet_of_fieldSet_self hstore,
      ofOxmMaskedTypeSet_ofOxmMaskedTypeSet]
  · rw [ofOxmWireObjectIdSet_of_not (sameVersion ▸ valid), ofOxmWireObjectIdSet_of_not valid]

end LastWrite

/-- The OXM length is a register, and of two identity stores the second wins. The setter
asserts its 8-bit range, so a stored length is read back whole. -/
theorem oxm_setters_last_write_wins (T : TypeMaps) :
    RegisterLaw ofOxmWireLengthGet ofOxmWireLengthSet ∧
    ∀ obj obj' id id', ofOxmWireObjectIdSet T obj id = some obj' →
      ofOxmWireObjectIdSet T obj' id' = ofOxmWireObjectIdSet T obj id' :=
  ⟨ofOxmWireLength_registerLaw, fun _ _ _ _ => ofOxmWireObjectIdSet_of_ofOxmWireObjectIdSet⟩

end Loci

import Loci.Oxm

/-!
# OXM headers as two registers

The spec describes an OXM header as two fields that are read and written independently: the
masked type and the payload length. `Loci.OxmHeader` is that description, a record of the two
fields within their widths, and `Loci.OxmOp.spec` gives the setters as record updates guarded
by their assertions. The header word in an object's buffer denotes such a record
(`Loci.oxmHeader`). Each setter of the code moves the denoted record as its abstract update
does, and changes no byte outside the header. By induction every sequence of setter calls
does the same, so after any run the getters read the record the abstract run computes.

## Main definitions

* `Loci.OxmHeader` — the abstract header
* `Loci.oxmHeader` — the header an object's buffer denotes
* `Loci.OxmOp` — a call of one of the setters; `OxmOp.apply` runs the source's setter and
  `OxmOp.spec` the abstract update
* `Loci.oxmRun` / `Loci.oxmSpecRun` — a sequence of calls, on objects and on headers

## Main results

* `OxmOp.apply_refines` — one call refines its abstract update
* `oxmRun_refines` — so does every run
* `oxm_runs_refine_registers` — after any run the getters read the abstract registers, and no
  byte outside the header has changed
-/

namespace Loci

/-- The abstract OXM header: a 24-bit masked type and an 8-bit payload length. -/
@[ext] structure OxmHeader where
  /-- Class, field and has-mask bit. -/
  maskedType : Nat
  /-- The payload length. -/
  length : Nat
  maskedType_lt : maskedType < 2 ^ 24
  length_lt : length < 256
  deriving DecidableEq

/-- The header a 32-bit word denotes. -/
def OxmHeader.ofWord (hdr : Nat) : OxmHeader where
  maskedType := ofOxmMaskedTypeGet hdr
  length := ofOxmLengthGet hdr
  maskedType_lt := by rw [ofOxmMaskedTypeGet_eq]; omega
  length_lt := by rw [ofOxmLengthGet_eq]; omega

/-- The abstract header an object's buffer denotes, where the buffer holds one. -/
def oxmHeader (obj : OfObject) : Option OxmHeader := (getOxmTypeLen obj).map OxmHeader.ofWord

/-- A call of one of the OXM header setters. -/
inductive OxmOp where
  /-- `of_oxm_wire_length_set(obj, bytes)`. -/
  | setLength (bytes : Int)
  /-- `of_oxm_wire_object_id_set(obj, id)`. -/
  | setObjectId (id : ObjectId)
  deriving DecidableEq, Repr

/-- The call, made by the source's setter. -/
def OxmOp.apply (T : TypeMaps) (obj : OfObject) : OxmOp → Option OfObject
  | .setLength bytes => ofOxmWireLengthSet obj bytes
  | .setObjectId id => ofOxmWireObjectIdSet T obj id

/-- The call on the abstract header: under the setter's assertions the length, or the masked
type the identifier has in the version, replaces its field and the other field is kept. -/
def OxmOp.spec (T : TypeMaps) (version : Version) : OxmOp → OxmHeader → Option OxmHeader
  | .setLength bytes, hdr =>
    if valid : 0 ≤ bytes ∧ bytes < 256 then
      some { hdr with length := bytes.toNat, length_lt := by omega }
    else none
  | .setObjectId id, hdr =>
    if valid : T.ofOxmValidId id = true ∧ 0 ≤ ofObjectToWireType T id version then
      some { hdr with
        maskedType := (ofObjectToWireType T id version).toNat
        maskedType_lt := wireType_toNat_lt_of_ofOxmValidId valid.1 }
    else none

/-- A sequence of calls on an object; the first call that fails fails the run. -/
def oxmRun (T : TypeMaps) (obj : OfObject) (ops : List OxmOp) : Option OfObject :=
  ops.foldlM (fun obj op => op.apply T obj) obj

/-- The same calls on the abstract header, in the object's version. -/
def oxmSpecRun (T : TypeMaps) (version : Version) (hdr : OxmHeader) (ops : List OxmOp) :
    Option OxmHeader :=
  ops.foldlM (fun hdr op => op.spec T version hdr) hdr

/-! ### The denoted header -/

section Denotation

variable {T : TypeMaps} {obj obj' : OfObject} {hdr word : Nat}

theorem OxmHeader.ofWord_ofOxmLengthSet (fits : hdr < 2 ^ 32) {n : Nat} (short : n < 256) :
    OxmHeader.ofWord (ofOxmLengthSet hdr n) =
      { OxmHeader.ofWord hdr with length := n, length_lt := short } := by
  ext
  · exact ofOxmMaskedTypeGet_ofOxmLengthSet fits n
  · exact (ofOxmLengthGet_ofOxmLengthSet fits n).trans (Nat.mod_eq_of_lt short)

theorem OxmHeader.ofWord_ofOxmMaskedTypeSet {t : Nat} (narrow : t < 2 ^ 24) :
    OxmHeader.ofWord (ofOxmMaskedTypeSet hdr t) =
      { OxmHeader.ofWord hdr with maskedType := t, maskedType_lt := narrow } := by
  ext
  · exact (ofOxmMaskedTypeGet_ofOxmMaskedTypeSet hdr t).trans (Nat.mod_eq_of_lt narrow)
  · exact ofOxmLengthGet_ofOxmMaskedTypeSet hdr t

/-- The header a store of `word` leaves behind. -/
theorem oxmHeader_of_fieldSet (h : obj.fieldSet oxmHdrOffset 4 word = some obj')
    (fits : word < 2 ^ 32) : oxmHeader obj' = some (OxmHeader.ofWord word) := by
  rw [oxmHeader, getOxmTypeLen_of_fieldSet h fits, Option.map_some']

theorem oxmHeader_isSome_iff {wbuf : WireBuffer} (hbuf : obj.wbuf = some wbuf) :
    (oxmHeader obj).isSome ↔ obj.objOffset + 4 ≤ wbuf.bytes.length := by
  rw [oxmHeader, Option.isSome_map', getOxmTypeLen, OfObject.fieldGet_of_wbuf hbuf,
    WireBuffer.getBe_isSome_iff]
  rfl

/-- A rewrite that keeps the buffer's extent keeps the header. -/
theorem OfObject.ChangesOnly.oxmHeader_isSome {pos width : Nat}
    (h : obj'.ChangesOnly obj pos width) (hhdr : (oxmHeader obj).isSome) :
    (oxmHeader obj').isSome := by
  obtain ⟨wbuf, wbuf', hbuf, rfl, sameLength, -⟩ := h
  rw [oxmHeader_isSome_iff hbuf] at hhdr
  rw [oxmHeader_isSome_iff (OfObject.withWbuf_wbuf obj wbuf'), sameLength]
  exact hhdr

theorem ofOxmWireLengthGet_eq_oxmHeader :
    ofOxmWireLengthGet obj = (oxmHeader obj).map fun hdr => (hdr.length : Int) := by
  rw [ofOxmWireLengthGet, oxmHeader, Option.map_map]
  rfl

theorem ofOxmWireObjectIdGet_eq_oxmHeader :
    ofOxmWireObjectIdGet T obj =
      (oxmHeader obj).map fun hdr => T.ofOxmToObjectId hdr.maskedType obj.version := by
  rw [ofOxmWireObjectIdGet, oxmHeader, Option.map_map]
  rfl

end Denotation

/-! ### One call -/

section Step

variable {T : TypeMaps} {obj obj' : OfObject}

/-- A call that succeeds is one store of the header word. -/
theorem OxmOp.exists_fieldSet_of_apply {op : OxmOp} (h : op.apply T obj = some obj') :
    ∃ word, obj.fieldSet oxmHdrOffset 4 word = some obj' := by
  cases op with
  | setLength bytes =>
    obtain ⟨-, -, _, -, hstore⟩ := ofOxmWireLengthSet_eq_some h
    exact ⟨_, hstore⟩
  | setObjectId id =>
    obtain ⟨-, -, _, -, hstore⟩ := ofOxmWireObjectIdSet_eq_some h
    exact ⟨_, hstore⟩

theorem OxmOp.changesOnly_of_apply {op : OxmOp} (h : op.apply T obj = some obj') :
    obj'.ChangesOnly obj obj.objOffset 4 := by
  obtain ⟨_, hstore⟩ := OxmOp.exists_fieldSet_of_apply h
  exact OfObject.changesOnly_of_fieldSet hstore

theorem ofOxmWireLengthSet_refines (bytes : Int) :
    (ofOxmWireLengthSet obj bytes).bind oxmHeader =
      (oxmHeader obj).bind ((OxmOp.setLength bytes).spec T obj.version) := by
  by_cases valid : 0 ≤ bytes ∧ bytes < 256
  · cases hhdr : getOxmTypeLen obj with
    | none => simp [ofOxmWireLengthSet, oxmHeader, hhdr]
    | some hdr =>
      have fits := getOxmTypeLen_lt hhdr
      obtain ⟨obj', hstore⟩ :=
        OfObject.exists_fieldSet_of_fieldGet hhdr (ofOxmLengthSet hdr bytes.toNat)
      rw [ofOxmWireLengthSet_eq hhdr valid.1 valid.2, hstore, Option.some_bind,
        oxmHeader_of_fieldSet hstore (ofOxmLengthSet_lt fits _), oxmHeader, hhdr,
        Option.map_some', Option.some_bind, OxmOp.spec, dif_pos valid,
        OxmHeader.ofWord_ofOxmLengthSet fits (by omega)]
  · rw [ofOxmWireLengthSet_of_not valid]
    cases oxmHeader obj <;> simp [OxmOp.spec, valid]

theorem ofOxmWireObjectIdSet_refines (id : ObjectId) :
    (ofOxmWireObjectIdSet T obj id).bind oxmHeader =
      (oxmHeader obj).bind ((OxmOp.setObjectId id).spec T obj.version) := by
  by_cases valid : T.ofOxmValidId id = true ∧ 0 ≤ ofObjectToWireType T id obj.version
  · cases hhdr : getOxmTypeLen obj with
    | none => simp [ofOxmWireObjectIdSet, oxmHeader, hhdr]
    | some hdr =>
      obtain ⟨obj', hstore⟩ := OfObject.exists_fieldSet_of_fieldGet hhdr
        (ofOxmMaskedTypeSet hdr (ofObjectToWireType T id obj.version).toNat)
      rw [ofOxmWireObjectIdSet_eq hhdr valid.1 valid.2, hstore, Option.some_bind,
        oxmHeader_of_fieldSet hstore (ofOxmMaskedTypeSet_lt _ _), oxmHeader, hhdr,
        Option.map_some', Option.some_bind, OxmOp.spec, dif_pos valid,
        OxmHeader.ofWord_ofOxmMaskedTypeSet (wireType_toNat_lt_of_ofOxmValidId valid.1)]
  · rw [ofOxmWireObjectIdSet_of_not valid]
    cases oxmHeader obj <;> simp [OxmOp.spec, valid]

/-- One call moves the denoted header as its abstract update does, failures included. -/
theorem OxmOp.apply_refines (op : OxmOp) :
    (op.apply T obj).bind oxmHeader = (oxmHeader obj).bind (op.spec T obj.version) := by
  cases op with
  | setLength bytes => exact ofOxmWireLengthSet_refines bytes
  | setObjectId id => exact ofOxmWireObjectIdSet_refines id

end Step

/-! ### Runs -/

section Run

variable {T : TypeMaps}

@[simp] theorem oxmRun_nil (obj : OfObject) : oxmRun T obj [] = some obj := rfl

@[simp] theorem oxmRun_cons (obj : OfObject) (op : OxmOp) (ops : List OxmOp) :
    oxmRun T obj (op :: ops) = (op.apply T obj).bind fun obj' => oxmRun T obj' ops := rfl

@[simp] theorem oxmSpecRun_nil (version : Version) (hdr : OxmHeader) :
    oxmSpecRun T version hdr [] = some hdr := rfl

@[simp] theorem oxmSpecRun_cons (version : Version) (hdr : OxmHeader) (op : OxmOp)
    (ops : List OxmOp) :
    oxmSpecRun T version hdr (op :: ops) =
      (op.spec T version hdr).bind fun hdr' => oxmSpecRun T version hdr' ops := rfl

/-- Every run moves the denoted header as the abstract run does, failures included. -/
theorem oxmRun_refines (ops : List OxmOp) (obj : OfObject) :
    (oxmRun T obj ops).bind oxmHeader = (oxmHeader obj).bind (oxmSpecRun T obj.version · ops) := by
  induction ops generalizing obj with
  | nil => simp
  | cons op ops ih =>
    have sameVersion : ∀ obj', op.apply T obj = some obj' →
        (oxmRun T obj' ops).bind oxmHeader =
          (oxmHeader obj').bind (oxmSpecRun T obj.version · ops) := fun obj' h => by
      rw [ih, (OxmOp.changesOnly_of_apply h).version_eq]
    calc (oxmRun T obj (op :: ops)).bind oxmHeader
        = (op.apply T obj).bind fun obj' => (oxmRun T obj' ops).bind oxmHeader := by
          rw [oxmRun_cons, Option.bind_assoc]
      _ = ((op.apply T obj).bind oxmHeader).bind (oxmSpecRun T obj.version · ops) := by
          rw [Option.bind_assoc]
          exact Option.bind_congr sameVersion
      _ = (oxmHeader obj).bind (oxmSpecRun T obj.version · (op :: ops)) := by
          rw [OxmOp.apply_refines, Option.bind_assoc]
          rfl

/-- A successful run rewrites only the four header bytes. -/
theorem changesOnly_of_oxmRun {wbuf : WireBuffer} (ops : List OxmOp) {obj obj' : OfObject}
    (hbuf : obj.wbuf = some wbuf) (h : oxmRun T obj ops = some obj') :
    obj'.ChangesOnly obj obj.objOffset 4 := by
  induction ops generalizing obj wbuf with
  | nil => exact Option.some.inj h ▸ OfObject.ChangesOnly.refl hbuf
  | cons op ops ih =>
    obtain ⟨mid, hstep, hrun⟩ := Option.bind_eq_some.mp h
    have step := OxmOp.changesOnly_of_apply hstep
    obtain ⟨_, hmid⟩ := step.exists_wbuf
    exact (step.objOffset_eq ▸ ih hmid hrun).trans step

end Run

/-- Every run of the OXM setters on an object holding a header refines the abstract run:
afterwards the getters read the registers the abstract run computes, and no byte outside the
header has changed. -/
theorem oxm_runs_refine_registers (T : TypeMaps) (obj : OfObject) (hdr : OxmHeader)
    (ops : List OxmOp) (hhdr : oxmHeader obj = some hdr) :
    (oxmRun T obj ops).bind oxmHeader = oxmSpecRun T obj.version hdr ops ∧
    ∀ obj', oxmRun T obj ops = some obj' →
      ∃ hdr', oxmSpecRun T obj.version hdr ops = some hdr' ∧
        ofOxmWireLengthGet obj' = some (hdr'.length : Int) ∧
        ofOxmWireObjectIdGet T obj' = some (T.ofOxmToObjectId hdr'.maskedType obj.version) ∧
        obj'.ChangesOnly obj obj.objOffset 4 := by
  have refines : (oxmRun T obj ops).bind oxmHeader = oxmSpecRun T obj.version hdr ops := by
    rw [oxmRun_refines, hhdr, Option.some_bind]
  refine ⟨refines, fun obj' h => ?_⟩
  obtain ⟨word, hword, -⟩ := Option.map_eq_some'.mp hhdr
  obtain ⟨wbuf, hbuf, -⟩ := Option.bind_eq_some.mp hword
  have frame := changesOnly_of_oxmRun ops hbuf h
  obtain ⟨hdr', hnew⟩ :=
    Option.isSome_iff_exists.mp (frame.oxmHeader_isSome (by rw [hhdr]; rfl))
  rw [h, Option.some_bind, hnew] at refines
  refine ⟨hdr', refines.symm, ?_, ?_, frame⟩
  · rw [ofOxmWireLengthGet_eq_oxmHeader, hnew, Option.map_some']
  · rw [ofOxmWireObjectIdGet_eq_oxmHeader, hnew, Option.map_some', frame.version_eq]

/-- A length, the in-port identity and a second length written into a zeroed 1.3 OXM
header. -/
theorem oxm_runs_refine_registers_inPort :
    let obj : OfObject := ⟨.ofVersion1_3, .other 0, 4, 0, none, some ⟨[0, 0, 0, 0]⟩⟩
    let ops := [OxmOp.setLength 17, .setObjectId (.other 0), .setLength 5]
    oxmHeader obj = some (OxmHeader.ofWord 0) ∧
      (oxmRun TypeMaps.sample obj ops).bind oxmHeader =
        oxmSpecRun TypeMaps.sample obj.version (OxmHeader.ofWord 0) ops ∧
      ∀ obj', oxmRun TypeMaps.sample obj ops = some obj' →
        ∃ hdr', oxmSpecRun TypeMaps.sample obj.version (OxmHeader.ofWord 0) ops = some hdr' ∧
          ofOxmWireLengthGet obj' = some (hdr'.length : Int) ∧
          ofOxmWireObjectIdGet TypeMaps.sample obj' =
            some (TypeMaps.sample.ofOxmToObjectId hdr'.maskedType obj.version) ∧
          obj'.ChangesOnly obj obj.objOffset 4 :=
  ⟨rfl, oxm_runs_refine_registers _ _ _ _ rfl⟩

/-- The abstract run of those calls: the identity's masked type and the last length. -/
example :
    (oxmSpecRun TypeMaps.sample .ofVersion1_3 (OxmHeader.ofWord 0)
        [.setLength 17, .setObjectId (.other 0), .setLength 5]).map
      (fun hdr => (hdr.maskedType, hdr.length)) = some (0x800000, 5) := by
  decide

end Loci

import Mathlib.Data.List.Basic
import Mathlib.Tactic.Ring

/-!
# The wire buffer

Every accessor of the type maps reads or writes a fixed-width big-endian integer at a byte
offset of a shared wire buffer. The buffer lies outside `of_type_maps.c`, so this module
models it from its interface: a byte store whose 16- and 32-bit loads and stores are
big-endian and fail outside the buffer's extent.

## Main definitions

* `Loci.beBytes` / `Loci.beValue` — the big-endian layout of a fixed-width integer
* `Loci.readBytes` / `Loci.writeBytes` — consecutive byte loads and stores
* `Loci.WireBuffer.getBe` / `Loci.WireBuffer.setBe` — a `width`-byte load and store,
  with `u16Get`, `u16Set`, `u32Get` and `u32Set` as its members

## Main results

* `getBe_of_setBe_self`, `getBe_of_setBe_of_disjoint` — a store is read back, and no load of
  other bytes sees it
* `setBe_of_getBe` — storing the value already present leaves the buffer as it was
* `setBe_bind_setBe_self` — of two stores to the same bytes the second wins
* `setBe_bind_comm` — stores to disjoint bytes commute
-/

namespace Loci

/-! ### Big-endian layout -/

/-- The big-endian bytes of `value` modulo `256 ^ width`, most significant first. -/
def beBytes : Nat → Nat → List UInt8
  | 0, _ => []
  | width + 1, value => beBytes width (value / 256) ++ [UInt8.ofNat (value % 256)]

/-- The unsigned value of big-endian bytes. -/
def beValue (bytes : List UInt8) : Nat :=
  bytes.foldl (fun acc byte => acc * 256 + byte.toNat) 0

@[simp] theorem beBytes_length (width value : Nat) : (beBytes width value).length = width := by
  induction width generalizing value with
  | zero => rfl
  | succ width ih => simp [beBytes, ih]

@[simp] theorem beValue_nil : beValue [] = 0 := rfl

@[simp] theorem beValue_append_singleton (bytes : List UInt8) (byte : UInt8) :
    beValue (bytes ++ [byte]) = beValue bytes * 256 + byte.toNat := by
  simp [beValue, List.foldl_append]

private theorem uint8_toNat_ofNat_mod (value : Nat) :
    (UInt8.ofNat (value % 256)).toNat = value % 256 :=
  UInt8.toNat_ofNat_of_lt (Nat.mod_lt _ (by decide))

/-- Decoding an encoding keeps exactly the low `width` bytes. -/
theorem beValue_beBytes (width value : Nat) :
    beValue (beBytes width value) = value % 256 ^ width := by
  induction width generalizing value with
  | zero => simp [beBytes, Nat.mod_one]
  | succ width ih =>
    rw [beBytes, beValue_append_singleton, ih, uint8_toNat_ofNat_mod, pow_succ',
      Nat.mod_mul]
    ring

/-- Encoding a decoding gives the bytes back. -/
theorem beBytes_beValue (bytes : List UInt8) : beBytes bytes.length (beValue bytes) = bytes := by
  induction bytes using List.reverseRecOn with
  | nil => rfl
  | append_singleton bytes byte ih =>
    have low : byte.toNat < 256 := byte.toNat_lt_size
    have high : (beValue bytes * 256 + byte.toNat) / 256 = beValue bytes := by omega
    have last : UInt8.ofNat ((beValue bytes * 256 + byte.toNat) % 256) = byte :=
      UInt8.toNat.inj (by rw [uint8_toNat_ofNat_mod]; omega)
    rw [List.length_append, List.length_singleton, beBytes, beValue_append_singleton, high,
      ih, last]

/-- Big-endian bytes hold less than `256` to the power of their count. -/
theorem beValue_lt (bytes : List UInt8) : beValue bytes < 256 ^ bytes.length := by
  induction bytes using List.reverseRecOn with
  | nil => decide
  | append_singleton bytes byte ih =>
    have low : byte.toNat < 256 := byte.toNat_lt_size
    rw [beValue_append_singleton, List.length_append, List.length_singleton, pow_succ]
    omega

/-! ### Consecutive byte loads and stores -/

/-- The `count` bytes from `pos` on, when all of them lie inside the list. -/
def readBytes (bytes : List UInt8) (pos : Nat) : Nat → Option (List UInt8)
  | 0 => if pos ≤ bytes.length then some [] else none
  | count + 1 => (bytes[pos]?).bind fun byte =>
    (readBytes bytes (pos + 1) count).map (byte :: ·)

/-- Overwrite consecutive bytes from `pos` on, one store per byte. -/
def writeBytes (bytes : List UInt8) (pos : Nat) : List UInt8 → List UInt8
  | [] => bytes
  | byte :: rest => writeBytes (bytes.set pos byte) (pos + 1) rest

variable {bytes other written read : List UInt8} {pos count k : Nat}

@[simp] theorem length_writeBytes : (writeBytes bytes pos written).length = bytes.length := by
  induction written generalizing bytes pos with
  | nil => rfl
  | cons byte rest ih => simp [writeBytes, ih]

/-- A store of consecutive bytes, byte by byte: inside the buffer and the written range the
new byte, elsewhere the old one. -/
theorem getElem?_writeBytes :
    (writeBytes bytes pos written)[k]? =
      if pos ≤ k ∧ k < pos + written.length ∧ k < bytes.length then written[k - pos]?
      else bytes[k]? := by
  induction written generalizing bytes pos with
  | nil => simp only [writeBytes, List.length_nil, Nat.add_zero]; rw [if_neg (by omega)]
  | cons byte rest ih =>
    rw [writeBytes, ih, List.length_set, List.getElem?_set]
    rcases Nat.lt_trichotomy k pos with before | rfl | after
    · simp [before.ne', show ¬ pos ≤ k by omega, show ¬ pos + 1 ≤ k by omega]
    · by_cases inside : k < bytes.length
      · simp [inside]
      · simp [inside, List.getElem?_eq_none (Nat.le_of_not_lt inside)]
    · have lane : k - pos = k - (pos + 1) + 1 := by omega
      simp only [after.ne, if_false, List.length_cons, lane, List.getElem?_cons_succ]
      congr 1
      apply propext
      omega

/-- A store leaves every byte outside its range as it was. -/
theorem getElem?_writeBytes_of_outside (outside : k < pos ∨ pos + written.length ≤ k) :
    (writeBytes bytes pos written)[k]? = bytes[k]? := by
  rw [getElem?_writeBytes, if_neg (by omega)]

theorem readBytes_congr (sameLength : other.length = bytes.length)
    (agree : ∀ i < count, other[pos + i]? = bytes[pos + i]?) :
    readBytes other pos count = readBytes bytes pos count := by
  induction count generalizing pos with
  | zero => simp [readBytes, sameLength]
  | succ count ih =>
    have first := agree 0 (Nat.succ_pos _)
    have rest : ∀ i < count, other[pos + 1 + i]? = bytes[pos + 1 + i]? := fun i lane => by
      simpa only [Nat.add_assoc, Nat.add_comm 1] using agree (i + 1) (by omega)
    rw [Nat.add_zero] at first
    simp only [readBytes, first, ih rest]

theorem length_of_readBytes (h : readBytes bytes pos count = some read) : read.length = count := by
  induction count generalizing pos read with
  | zero =>
    simp only [readBytes, Option.ite_none_right_eq_some, Option.some.injEq] at h
    simp [← h.2]
  | succ count ih =>
    simp only [readBytes, Option.bind_eq_some, Option.map_eq_some'] at h
    obtain ⟨_, _, rest, hrest, rfl⟩ := h
    simp [ih hrest]

/-- A load succeeds exactly when all of its bytes lie in the buffer. -/
theorem readBytes_isSome_iff :
    (readBytes bytes pos count).isSome ↔ pos + count ≤ bytes.length := by
  induction count generalizing pos with
  | zero => by_cases inside : pos ≤ bytes.length <;> simp [readBytes, inside]
  | succ count ih =>
    by_cases inside : pos < bytes.length
    · simp only [readBytes, List.getElem?_eq_getElem inside, Option.some_bind,
        Option.isSome_map'] at ih ⊢
      rw [ih]
      omega
    · simp [readBytes, List.getElem?_eq_none (Nat.le_of_not_lt inside)]
      omega

theorem readBytes_writeBytes_self (room : pos + written.length ≤ bytes.length) :
    readBytes (writeBytes bytes pos written) pos written.length = some written := by
  induction written generalizing bytes pos with
  | nil => simpa [writeBytes, readBytes] using room
  | cons byte rest ih =>
    have inside : pos < bytes.length := by simp at room; omega
    have first : (writeBytes (bytes.set pos byte) (pos + 1) rest)[pos]? = some byte := by
      rw [getElem?_writeBytes_of_outside (by omega), List.getElem?_set_self inside]
    have later : readBytes (writeBytes (bytes.set pos byte) (pos + 1) rest) (pos + 1)
        rest.length = some rest :=
      ih (by rw [List.length_set]; simp only [List.length_cons] at room; omega)
    simp only [writeBytes, List.length_cons, readBytes, first, Option.some_bind, later,
      Option.map_some']

/-- Storing the bytes a load just returned changes nothing. -/
theorem writeBytes_of_readBytes (h : readBytes bytes pos count = some read) :
    writeBytes bytes pos read = bytes := by
  induction count generalizing pos read with
  | zero =>
    simp only [readBytes, Option.ite_none_right_eq_some, Option.some.injEq] at h
    simp [← h.2, writeBytes]
  | succ count ih =>
    simp only [readBytes, Option.bind_eq_some, Option.map_eq_some'] at h
    obtain ⟨byte, hbyte, rest, hrest, rfl⟩ := h
    have unchanged : bytes.set pos byte = bytes := by
      apply List.ext_getElem?
      intro j
      rw [List.getElem?_set]
      split_ifs with same inside
      · exact same ▸ hbyte.symm
      · exact (List.getElem?_eq_none (by omega)).symm
      · rfl
    rw [writeBytes, unchanged, ih hrest]

/-- Stores to disjoint ranges commute. -/
theorem writeBytes_comm {pos' : Nat} {written' : List UInt8}
    (disjoint : pos + written.length ≤ pos' ∨ pos' + written'.length ≤ pos) :
    writeBytes (writeBytes bytes pos written) pos' written' =
      writeBytes (writeBytes bytes pos' written') pos written := by
  apply List.ext_getElem?
  intro j
  simp only [getElem?_writeBytes, length_writeBytes]
  split_ifs <;> first | rfl | omega

/-! ### The wire buffer and its accessors -/

/-- Modelled from the spec: the wire buffer, the byte store an object's fields live in. Its
accessors are bounds-checked against the buffer's extent; the type maps also index its
bytes directly, and a byte outside the extent has no defined content, so both kinds of
access fail there. -/
structure WireBuffer where
  /-- The buffer's bytes, from offset 0 to its extent. -/
  bytes : List UInt8
  deriving DecidableEq, Repr

namespace WireBuffer

/-- Modelled from the spec: the big-endian load of a `width`-byte unsigned integer at an
absolute offset, fatal when it reaches past the buffer. -/
def getBe (wbuf : WireBuffer) (offset width : Nat) : Option Nat :=
  (readBytes wbuf.bytes offset width).map beValue

/-- Modelled from the spec: the big-endian store of a `width`-byte unsigned integer, which
keeps `value` modulo `256 ^ width` as the C conversion to the store's argument type does. -/
def setBe (wbuf : WireBuffer) (offset width value : Nat) : Option WireBuffer :=
  if offset + width ≤ wbuf.bytes.length then
    some ⟨writeBytes wbuf.bytes offset (beBytes width value)⟩
  else none

/-- Modelled from the spec: `of_wire_buffer_u16_get`, and `buf_u16_get` on a buffer index. -/
def u16Get (wbuf : WireBuffer) (offset : Nat) : Option Nat := wbuf.getBe offset 2

/-- Modelled from the spec: `of_wire_buffer_u16_set`, and `buf_u16_set` on a buffer index. -/
def u16Set (wbuf : WireBuffer) (offset value : Nat) : Option WireBuffer :=
  wbuf.setBe offset 2 value

/-- Modelled from the spec: `of_wire_buffer_u32_get`, and `buf_u32_get` on a buffer index. -/
def u32Get (wbuf : WireBuffer) (offset : Nat) : Option Nat := wbuf.getBe offset 4

/-- Modelled from the spec: `of_wire_buffer_u32_set`, and `buf_u32_set` on a buffer index. -/
def u32Set (wbuf : WireBuffer) (offset value : Nat) : Option WireBuffer :=
  wbuf.setBe offset 4 value

@[simp] theorem u16Get_eq (wbuf : WireBuffer) (offset : Nat) :
    wbuf.u16Get offset = wbuf.getBe offset 2 := rfl

@[simp] theorem u16Set_eq (wbuf : WireBuffer) (offset value : Nat) :
    wbuf.u16Set offset value = wbuf.setBe offset 2 value := rfl

@[simp] theorem u32Get_eq (wbuf : WireBuffer) (offset : Nat) :
    wbuf.u32Get offset = wbuf.getBe offset 4 := rfl

@[simp] theorem u32Set_eq (wbuf : WireBuffer) (offset value : Nat) :
    wbuf.u32Set offset value = wbuf.setBe offset 4 value := rfl

variable {wbuf wbuf' : WireBuffer} {offset width value offset' width' value' k : Nat}

theorem setBe_of_le (room : offset + width ≤ wbuf.bytes.length) :
    wbuf.setBe offset width value = some ⟨writeBytes wbuf.bytes offset (beBytes width value)⟩ :=
  if_pos room

/-- A store succeeds exactly when all of its bytes lie in the buffer. -/
theorem setBe_isSome_iff :
    (wbuf.setBe offset width value).isSome ↔ offset + width ≤ wbuf.bytes.length := by
  unfold setBe
  split_ifs with room <;> simpa using room

/-- A load succeeds exactly when all of its bytes lie in the buffer. -/
theorem getBe_isSome_iff :
    (wbuf.getBe offset width).isSome ↔ offset + width ≤ wbuf.bytes.length := by
  simp [getBe, readBytes_isSome_iff]

theorem room_of_setBe (h : wbuf.setBe offset width value = some wbuf') :
    offset + width ≤ wbuf.bytes.length :=
  setBe_isSome_iff.mp (by rw [h]; rfl)

private theorem eq_of_setBe (h : wbuf.setBe offset width value = some wbuf') :
    wbuf' = ⟨writeBytes wbuf.bytes offset (beBytes width value)⟩ := by
  rw [setBe_of_le (room_of_setBe h)] at h
  exact (Option.some.inj h).symm

theorem length_of_setBe (h : wbuf.setBe offset width value = some wbuf') :
    wbuf'.bytes.length = wbuf.bytes.length := by
  simp [eq_of_setBe h]

/-- A store changes no byte outside its own. -/
theorem getElem?_of_setBe (h : wbuf.setBe offset width value = some wbuf')
    (outside : k < offset ∨ offset + width ≤ k) : wbuf'.bytes[k]? = wbuf.bytes[k]? := by
  rw [eq_of_setBe h]
  exact getElem?_writeBytes_of_outside (by simpa using outside)

/-- A store is read back, modulo its width. -/
theorem getBe_of_setBe_self (h : wbuf.setBe offset width value = some wbuf') :
    wbuf'.getBe offset width = some (value % 256 ^ width) := by
  have room := room_of_setBe h
  have stored : readBytes (writeBytes wbuf.bytes offset (beBytes width value)) offset
      (beBytes width value).length = some (beBytes width value) :=
    readBytes_writeBytes_self (by simpa using room)
  rw [eq_of_setBe h, getBe]
  simpa [beValue_beBytes] using congrArg (Option.map beValue) stored

/-- No load of other bytes sees a store. -/
theorem getBe_of_setBe_of_disjoint (h : wbuf.setBe offset width value = some wbuf')
    (disjoint : offset' + width' ≤ offset ∨ offset + width ≤ offset') :
    wbuf'.getBe offset' width' = wbuf.getBe offset' width' := by
  unfold getBe
  rw [readBytes_congr (length_of_setBe h) fun i lane => getElem?_of_setBe h (by omega)]

/-- A load sees only its own bytes and the buffer's extent. -/
theorem getBe_congr (sameLength : wbuf'.bytes.length = wbuf.bytes.length)
    (agree : ∀ i < width, wbuf'.bytes[offset + i]? = wbuf.bytes[offset + i]?) :
    wbuf'.getBe offset width = wbuf.getBe offset width := by
  unfold getBe
  rw [readBytes_congr sameLength agree]

/-- Storing the value a load just returned leaves the buffer as it was. -/
theorem setBe_of_getBe (h : wbuf.getBe offset width = some value) :
    wbuf.setBe offset width value = some wbuf := by
  obtain ⟨read, hread, rfl⟩ := Option.map_eq_some'.mp h
  have room : offset + width ≤ wbuf.bytes.length := readBytes_isSome_iff.mp (by rw [hread]; rfl)
  rw [setBe_of_le room, ← length_of_readBytes hread, beBytes_beValue,
    writeBytes_of_readBytes hread]

/-- A load returns less than `256 ^ width`. -/
theorem getBe_lt (h : wbuf.getBe offset width = some value) : value < 256 ^ width := by
  obtain ⟨read, hread, rfl⟩ := Option.map_eq_some'.mp h
  simpa [length_of_readBytes hread] using beValue_lt read

/-- A second store to the same bytes overwrites the first. -/
theorem setBe_bind_setBe_self :
    (wbuf.setBe offset width value).bind (·.setBe offset width value') =
      wbuf.setBe offset width value' := by
  unfold setBe
  by_cases room : offset + width ≤ wbuf.bytes.length
  · simp only [room, if_true, Option.some_bind, length_writeBytes, Option.some.injEq,
      WireBuffer.mk.injEq]
    apply List.ext_getElem?
    intro k
    simp only [getElem?_writeBytes, length_writeBytes, beBytes_length]
    split_ifs <;> rfl
  · simp [room]

/-- A store over a stored buffer is the store over the original one. -/
theorem setBe_of_setBe_self (h : wbuf.setBe offset width value = some wbuf') :
    wbuf'.setBe offset width value' = wbuf.setBe offset width value' := by
  show (some wbuf').bind (·.setBe offset width value') = _
  rw [← h, setBe_bind_setBe_self]

/-- Stores to disjoint bytes commute, failures included. -/
theorem setBe_bind_comm (disjoint : offset + width ≤ offset' ∨ offset' + width' ≤ offset) :
    (wbuf.setBe offset width value).bind (·.setBe offset' width' value') =
      (wbuf.setBe offset' width' value').bind (·.setBe offset width value) := by
  have swap : writeBytes (writeBytes wbuf.bytes offset (beBytes width value)) offset'
      (beBytes width' value') =
      writeBytes (writeBytes wbuf.bytes offset' (beBytes width' value')) offset
        (beBytes width value) :=
    writeBytes_comm (by simpa using disjoint)
  unfold setBe
  by_cases room : offset + width ≤ wbuf.bytes.length <;>
    by_cases room' : offset' + width' ≤ wbuf.bytes.length <;> simp [room, room', swap]

end WireBuffer

end Loci

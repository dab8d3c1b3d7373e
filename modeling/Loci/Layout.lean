import Loci.Registers

/-!
# Objects sharing one buffer

A message is built in one wire buffer, and each of its objects is a handle on that buffer: a
class, a version and an offset, with no bytes of its own. Let the objects' windows be apart,
lie in the buffer and hold their classes' fields. Then every interleaving of supported setter
calls through the handles succeeds. Afterwards each object's header is what its own calls
alone, in order, make of its first header, and no byte outside the windows has changed:
objects built side by side never see one another's writes.

## Main definitions

* `Loci.WireLayout` — handles on one buffer, each with its class and window
* `WireLayout.run` — an interleaving of calls through the handles
* `Loci.callsOf` — the calls made through one handle

## Main results

* `WireLayout.step_spec` — a call writes its object's register and leaves every other
  object's header as it was
* `interleavings_refine_header_registers` — every interleaving refines the objects' registers
-/

namespace Loci

/-- Objects built in one wire buffer: a handle for each, with its class and the extent of its
window from the handle's start; no two windows overlap. A handle's own buffer is ignored:
every call sees the shared one. -/
structure WireLayout (ι : Type) where
  handle : ι → OfObject
  cls : ι → WireClass
  extent : ι → Nat
  apart : ∀ i j, i ≠ j →
    (handle i).objOffset + extent i ≤ (handle j).objOffset ∨
      (handle j).objOffset + extent j ≤ (handle i).objOffset

namespace WireLayout

variable {ι : Type} (L : WireLayout ι) (T : TypeMaps)

/-- The header of object `i` on the buffer `wbuf`. -/
def header (wbuf : WireBuffer) (i : ι) : WireHeader :=
  (L.cls i).view T ((L.handle i).withWbuf wbuf)

/-- Every window lies in the buffer and holds its class's fields. -/
def WellPlaced (wbuf : WireBuffer) : Prop :=
  ∀ i, (L.handle i).objOffset + L.extent i ≤ wbuf.bytes.length ∧
    (L.cls i).Placed T (L.extent i) ((L.handle i).withWbuf wbuf)

/-- A call through a handle that the handle's class supports. -/
def Supports (call : ι × WireOp) : Prop :=
  (L.cls call.1).Supported T (L.handle call.1).version (L.extent call.1) call.2

/-- A call through a handle: the class's setter on the handle over the shared buffer, and the
buffer it leaves. -/
def step (wbuf : WireBuffer) (call : ι × WireOp) : Option WireBuffer :=
  ((L.cls call.1).apply T ((L.handle call.1).withWbuf wbuf) call.2).bind (·.wbuf)

/-- An interleaving of calls through the handles; the first call that fails fails the run. -/
def run (wbuf : WireBuffer) (calls : List (ι × WireOp)) : Option WireBuffer :=
  calls.foldlM (L.step T) wbuf

@[simp] theorem run_nil (wbuf : WireBuffer) : L.run T wbuf [] = some wbuf := rfl

@[simp] theorem run_cons (wbuf : WireBuffer) (call : ι × WireOp) (calls : List (ι × WireOp)) :
    L.run T wbuf (call :: calls) = (L.step T wbuf call).bind (L.run T · calls) := rfl

variable {L T} {wbuf : WireBuffer}

/-- One supported call through handle `i` succeeds, writes `i`'s register, keeps every window
holding its fields, leaves every other object's header as it was, and changes no byte outside
`i`'s window. -/
theorem step_spec {i : ι} {op : WireOp} (placed : L.WellPlaced T wbuf)
    (supported : L.Supports T (i, op)) :
    ∃ wbuf', L.step T wbuf (i, op) = some wbuf' ∧ L.WellPlaced T wbuf' ∧
      L.header T wbuf' i = op.spec (L.header T wbuf i) ∧
      (∀ j, j ≠ i → L.header T wbuf' j = L.header T wbuf j) ∧
      wbuf'.bytes.length = wbuf.bytes.length ∧
      ∀ k, k < (L.handle i).objOffset ∨ (L.handle i).objOffset + L.extent i ≤ k →
        wbuf'.bytes[k]? = wbuf.bytes[k]? := by
  obtain ⟨room, placedHere⟩ := placed i
  have supported' : (L.cls i).Supported T ((L.handle i).withWbuf wbuf).version (L.extent i) op :=
    supported
  obtain ⟨obj', happly, own, frame, placed'⟩ :=
    WireClass.apply_spec supported' (OfObject.withWbuf_wbuf _ _) room placedHere
  obtain ⟨w, wbuf', hw, rfl, sameLength, outside⟩ := frame
  obtain rfl : wbuf = w := Option.some.inj hw
  simp only [OfObject.withWbuf_objOffset] at outside
  have others : ∀ j, j ≠ i →
      L.header T wbuf' j = L.header T wbuf j ∧
        (L.cls j).Placed T (L.extent j) ((L.handle j).withWbuf wbuf') := fun j ne =>
    WireClass.view_congr (placed j).2 (placed j).1 sameLength fun k start stop =>
      outside k (by have := L.apart i j ne.symm; omega)
  refine ⟨wbuf', by simp [step, happly], fun j => ?_, own, fun j ne => (others j ne).1,
    sameLength, outside⟩
  by_cases same : j = i
  · subst same
    exact ⟨sameLength ▸ room, placed'⟩
  · exact ⟨sameLength ▸ (placed j).1, (others j same).2⟩

end WireLayout

/-- The calls made through handle `i`, in order. -/
def callsOf {ι : Type} [DecidableEq ι] (i : ι) (calls : List (ι × WireOp)) : List WireOp :=
  calls.filterMap fun call => if call.1 = i then some call.2 else none

@[simp] theorem callsOf_nil {ι : Type} [DecidableEq ι] (i : ι) : callsOf i [] = [] := rfl

theorem callsOf_cons {ι : Type} [DecidableEq ι] (i j : ι) (op : WireOp)
    (calls : List (ι × WireOp)) :
    callsOf j ((i, op) :: calls) = if i = j then op :: callsOf j calls else callsOf j calls := by
  unfold callsOf
  split_ifs with same <;> simp [same]

/-- Every interleaving of supported setter calls through the handles of objects laid out apart
in one buffer succeeds. Afterwards each object's header is what its own calls alone, in order,
make of its first header: the last identity and the last length, cut to 16 bits, stored
through it, and what it held for a register no call wrote. The buffer keeps its extent, and no
byte outside the windows changes. -/
theorem interleavings_refine_header_registers {ι : Type} [DecidableEq ι] (T : TypeMaps)
    (L : WireLayout ι) (wbuf : WireBuffer) (calls : List (ι × WireOp))
    (placed : L.WellPlaced T wbuf) (supported : ∀ call ∈ calls, L.Supports T call) :
    ∃ wbuf', L.run T wbuf calls = some wbuf' ∧
      (∀ i, L.header T wbuf' i = wireSpecRun (L.header T wbuf i) (callsOf i calls)) ∧
      wbuf'.bytes.length = wbuf.bytes.length ∧
      ∀ k, (∀ i, k < (L.handle i).objOffset ∨ (L.handle i).objOffset + L.extent i ≤ k) →
        wbuf'.bytes[k]? = wbuf.bytes[k]? := by
  induction calls generalizing wbuf with
  | nil => exact ⟨wbuf, rfl, fun _ => rfl, rfl, fun _ _ => rfl⟩
  | cons call calls ih =>
    obtain ⟨i, op⟩ := call
    obtain ⟨mid, hstep, placedMid, own, others, sameLength, outside⟩ :=
      WireLayout.step_spec placed (supported _ (List.mem_cons_self _ _))
    obtain ⟨wbuf', hrun, headers, sameLength', outside'⟩ :=
      ih mid placedMid fun call mem => supported call (List.mem_cons_of_mem _ mem)
    refine ⟨wbuf', by rw [WireLayout.run_cons, hstep, Option.some_bind, hrun], fun j => ?_,
      sameLength'.trans sameLength, fun k away => (outside' k away).trans (outside k (away i))⟩
    rw [headers j, callsOf_cons]
    by_cases same : i = j
    · subst same
      rw [if_pos rfl, wireSpecRun_cons, own]
    · rw [if_neg same, others j (Ne.symm same)]

/-- An OpenFlow 1.3 message header, an in-port match field and a BSN mirror action laid out in
a zeroed 32-byte buffer, given their identities and lengths in interleaved order. -/
theorem interleavings_refine_header_registers_message :
    let L : WireLayout (Fin 3) :=
      ⟨fun i => ⟨.ofVersion1_3, .ofActionBsnMirror, 8, 8 * i.val, none, none⟩,
        fun i => if i.val = 0 then .message else if i.val = 1 then .oxm else .tlv16 .action,
        fun i => if i.val = 2 then 16 else 8, by decide⟩
    let wbuf : WireBuffer := ⟨List.replicate 32 0⟩
    let calls : List (Fin 3 × WireOp) := [(2, .setObjectId .ofActionBsnMirror),
      (1, .setObjectId (.other 0)), (1, .setLength 4), (2, .setLength 16), (0, .setLength 32)]
    L.WellPlaced TypeMaps.sample wbuf ∧ (∀ call ∈ calls, L.Supports TypeMaps.sample call) ∧
      ∃ wbuf', L.run TypeMaps.sample wbuf calls = some wbuf' ∧
        (∀ i, L.header TypeMaps.sample wbuf' i =
          wireSpecRun (L.header TypeMaps.sample wbuf i) (callsOf i calls)) ∧
        wbuf'.bytes.length = wbuf.bytes.length ∧
        ∀ k, (∀ i, k < (L.handle i).objOffset ∨ (L.handle i).objOffset + L.extent i ≤ k) →
          wbuf'.bytes[k]? = wbuf.bytes[k]? := by
  intro L wbuf calls
  have placed : L.WellPlaced TypeMaps.sample wbuf := by
    unfold WireLayout.WellPlaced
    decide
  have supported : ∀ call ∈ calls, L.Supports TypeMaps.sample call := by
    intro call mem
    simp only [calls, List.mem_cons, List.mem_singleton, List.not_mem_nil, or_false] at mem
    rcases mem with rfl | rfl | rfl | rfl | rfl
    · exact ⟨⟨⟨0xffff, rfl, by decide, fun _ => by decide, fun other => absurd rfl other⟩,
        by decide, by decide⟩, fun _ => by decide⟩
    · exact (by decide : TypeMaps.sample.OxmValidIn .ofVersion1_3 (.other 0))
    · exact (by decide : (0 : Int) ≤ 4 ∧ (4 : Int) < 256)
    · trivial
    · trivial
  exact ⟨placed, supported,
    interleavings_refine_header_registers TypeMaps.sample L wbuf calls placed supported⟩

/-- The generic experimenter action is no register: stored after the BSN mirror, it reads
back as the mirror, whose vendor bytes it leaves in place. -/
example :
    let L : WireLayout Unit :=
      ⟨fun _ => ⟨.ofVersion1_3, .ofActionExperimenter, 12, 0, none, none⟩,
        fun _ => .tlv16 .action, fun _ => 12, fun _ _ same => absurd rfl same⟩
    (L.run TypeMaps.sample ⟨List.replicate 12 0⟩
        [((), .setObjectId .ofActionBsnMirror), ((), .setObjectId .ofActionExperimenter)]).map
      (fun wbuf => (L.header TypeMaps.sample wbuf ()).objectId) =
        some (some .ofActionBsnMirror) := by
  decide

end Loci

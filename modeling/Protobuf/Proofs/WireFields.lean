/-
**Merging fields one by one.**

Bytes that are merged without a fault are the fields that they are read as, and merging them is making
the changes of these fields in order.

* `WireField.Whole`: a field that a message type reads off its bytes, whatever follows them;
* `WireField.edit`: the change that a field makes;
* `Message.makes_join`: any whole fields, in any order, make their changes one after the other;
* `Message.join_wireFields`: the fields of completely merged bytes are whole, and are these bytes;
* `Message.merge_eq_edits`: so the merge makes the changes of these fields.
-/

import Protobuf.WireField
import Protobuf.Proofs.Concatenation

namespace Protobuf

/-- The bytes that a self-delimiting reader reports are those that it takes. -/
theorem Reader.SelfDelimiting.of_withBytes {α : Type} {reader : Reader α}
    (delimited : reader.SelfDelimiting) {bytes unread : Bytes} {item : Bytes × α}
    (taken : reader.withBytes bytes = .ok item unread) :
    bytes = item.1 ++ unread ∧ reader.Reads item.1 item.2 := by
  obtain ⟨same, read⟩ := withBytes_eq_ok.mp taken
  obtain ⟨head, rfl, reads⟩ := delimited read
  have front : item.1 = head := by simpa using same
  rw [front]
  exact ⟨rfl, reads⟩

theorem Scanner.SelfDelimiting.collect {α : Type} {scanner : Scanner α}
    (delimited : scanner.SelfDelimiting) : scanner.collect.SelfDelimiting := by
  intro bytes items unread taken
  have found := collect_eq_ok.mp taken
  obtain ⟨head, same, reads⟩ := @delimited bytes (by rw [found])
  rw [found] at same reads
  exact ⟨head, same, fun more => collect_eq_ok.mpr (reads more)⟩

namespace WireField

variable {M : Type} [Message M]

/-- Whether a message type reads this field off its bytes, whatever follows them. -/
structure Whole (M : Type) [Message M] (field : WireField) : Prop where
  /-- Its head is its tag. -/
  head : Tag.read.Reads field.head field.tag
  /-- Its payload is read to its end. -/
  payload : (Message.payload field.tag : Scanner (Edit M)).Reads field.payload
    (Message.payload field.tag field.payload).items

/-- The change that a field makes. -/
def edit (M : Type) [Message M] (field : WireField) : Edit M :=
  Edit.all (Message.payload field.tag field.payload : Scan (Edit M)).items

theorem Whole.reads {field : WireField} (whole : field.Whole M) :
    (Message.field M).Reads field.bytes
      (Message.payload field.tag field.payload : Scan (Edit M)).items :=
  .after whole.head whole.payload

theorem Whole.makes {field : WireField} (whole : field.Whole M) :
    Message.Makes field.bytes (field.edit M) :=
  Message.makes_of_field whole.reads

end WireField

namespace Message

variable {M : Type} [Message M]

/-- **Whole fields make their changes in order.** -/
theorem makes_join {fields : List WireField} (whole : ∀ field ∈ fields, field.Whole M) :
    Makes (WireField.join fields) (Edit.all (fields.map (WireField.edit M))) := by
  induction fields with
  | nil => exact .nil
  | cons field fields ih =>
    obtain ⟨first, rest⟩ := List.forall_mem_cons.mp whole
    exact first.makes.append (ih rest)

theorem wireField_eq_ok [Delimited M] {bytes rest : Bytes} {field : WireField}
    (taken : wireField M bytes = .ok field rest) :
    bytes = field.bytes ++ rest ∧ field.Whole M := by
  obtain ⟨⟨head, tag⟩, behind, first, second⟩ := Reader.bind_eq_ok.mp taken
  obtain ⟨⟨body, edits⟩, left, found, last⟩ := Reader.bind_eq_ok.mp second
  obtain ⟨rfl, rfl⟩ := Reader.pure_eq_ok.mp last
  obtain ⟨rfl, readsHead⟩ := Tag.read_selfDelimiting.of_withBytes first
  have delimited := Delimited.payload_selfDelimiting (M := M) tag
  obtain ⟨rfl, readsBody⟩ := delimited.collect.of_withBytes found
  have scans : (payload tag : Scanner (Edit M)).Reads body edits :=
    fun more => Scanner.collect_eq_ok.mp (readsBody more)
  have items : (payload tag body : Scan (Edit M)).items = edits := by
    have alone := scans []
    rw [List.append_nil] at alone
    rw [alone]
  refine ⟨(List.append_assoc _ _ _).symm, readsHead, ?_⟩
  show (payload tag : Scanner (Edit M)).Reads body (payload tag body).items
  rw [items]
  exact scans

/-- A field that is read without a fault is read with its bytes. -/
theorem wireField_isOk {bytes : Bytes} (ended : (field M bytes).fault = none) :
    ∃ read, wireField M bytes = .ok read (field M bytes).unread := by
  unfold field Scanner.after at ended ⊢
  cases head : Tag.read bytes with
  | error fault rest =>
    rw [head] at ended
    cases ended
  | ok tag body =>
    simp only [head] at ended ⊢
    have collected : (payload tag : Scanner (Edit M)).collect body
        = .ok (payload tag body).items (payload tag body).unread :=
      Scanner.collect_eq_ok.mpr (by rw [← ended])
    exact ⟨_, Reader.bind_eq_ok.mpr ⟨(_, tag), body, Reader.withBytes_eq_ok.mpr ⟨rfl, head⟩,
      Reader.bind_eq_ok.mpr ⟨(_, _), _, Reader.withBytes_eq_ok.mpr ⟨rfl, collected⟩, rfl⟩⟩⟩

/-- The first field of some bytes, and those behind it. -/
theorem wireFields_cons {bytes rest : Bytes} {field : WireField}
    (taken : wireField M bytes = .ok field rest) :
    wireFields M bytes = field :: wireFields M rest := by
  simp only [wireFields, Scanner.untilEnd_ofReader_ok taken]
  rfl

/-- **The fields of completely merged bytes are whole, and are these bytes.** -/
theorem join_wireFields [Delimited M] {bytes : Bytes} (complete : (scan M bytes).fault = none) :
    WireField.join (wireFields M bytes) = bytes ∧
      ∀ field ∈ wireFields M bytes, field.Whole M := by
  unfold scan at complete
  fun_induction Scanner.untilEnd (field M) (field_consuming M) bytes with
  | case1 => simp [wireFields, Scanner.untilEnd_nil]
  | case2 bytes more first continues ih =>
    obtain ⟨read, taken⟩ := wireField_isOk continues
    obtain ⟨same, whole⟩ := wireField_eq_ok taken
    obtain ⟨joined, rest⟩ := ih complete
    rw [wireFields_cons taken, WireField.join_cons, joined, ← same]
    exact ⟨rfl, List.forall_mem_cons.mpr ⟨whole, rest⟩⟩
  | case3 bytes more first stopped => exact absurd complete stopped

/-- **A complete merge makes the changes of the fields.** -/
theorem merge_eq_edits [Delimited M] {bytes : Bytes} {target : M}
    (complete : (merge bytes target).fault = none) :
    merge bytes target
      = ⟨Edit.all ((wireFields M bytes).map (WireField.edit M)) target, none⟩ := by
  obtain ⟨joined, whole⟩ := join_wireFields complete
  have makes := makes_join whole
  rw [joined] at makes
  exact makes.merge_eq target

end Message

end Protobuf

/-
**Concatenation is sequential merging.**

`Message.Makes bytes edit` says that merging `bytes` amounts to one change of the target, after which
the merge goes on with whatever follows as if it began there.

* `Message.Makes.append`: concatenated bytes make their changes one after the other;
* `Message.Makes.merge_eq`: bytes that make a change are merged without a fault;
* `Message.makes_of_complete`: conversely, all bytes that are merged without a fault make the change
  that the merge made. It needs that no field looks behind its payload (`Message.Delimited`);
* `MessageType.merge_append`: so the bytes behind a complete message meet the merged target, with the
  same fault and the same result, well formed or not.
-/

import Protobuf.Proofs.SelfDelimiting

namespace Protobuf

/-- A message type whose fields look at nothing behind their payloads. -/
class Message.Delimited (M : Type) [Message M] : Prop where
  payload_selfDelimiting : ∀ tag, (Message.payload (M := M) tag).SelfDelimiting

/-- Every table of fields is of that kind, and with it every message type of the library. -/
instance MessageType.delimited (type : MessageType) : Message.Delimited type.Value where
  payload_selfDelimiting tag := by
    cases type <;> exact Message.payloadOf_selfDelimiting _ tag

@[simp] theorem Edit.all_nil {α : Type} : Edit.all ([] : List (Edit α)) = id := rfl

@[simp] theorem Edit.all_cons {α : Type} (edit : Edit α) (edits : List (Edit α)) (value : α) :
    Edit.all (edit :: edits) value = Edit.all edits (edit value) := rfl

@[simp] theorem Edit.all_append {α : Type} (first second : List (Edit α)) (value : α) :
    Edit.all (first ++ second) value = Edit.all second (Edit.all first value) :=
  List.foldl_append

namespace Message

variable {M : Type} [Message M]

/-- Merging these bytes makes this change and goes on with whatever follows. -/
def Makes (bytes : Bytes) (edit : Edit M) : Prop :=
  ∀ target more, merge (bytes ++ more) target = merge more (edit target)

theorem merge_nil (target : M) : merge [] target = ⟨target, none⟩ := by
  simp only [merge, scan, Scanner.untilEnd_nil, Scan.apply, Edit.all_nil, id]

theorem Makes.nil : Makes [] (id : Edit M) :=
  fun _ _ => rfl

theorem Makes.append {first second : Bytes} {edit next : Edit M} (one : Makes first edit)
    (two : Makes second next) : Makes (first ++ second) fun target => next (edit target) := by
  intro target more
  rw [List.append_assoc, one, two]

/-- **Bytes that make a change are merged without a fault.** -/
theorem Makes.merge_eq {bytes : Bytes} {edit : Edit M} (makes : Makes bytes edit) (target : M) :
    merge bytes target = ⟨edit target, none⟩ := by
  have whole := makes target []
  rwa [List.append_nil, merge_nil] at whole

theorem Makes.decode_eq {bytes : Bytes} {edit : Edit M} (makes : Makes bytes edit) :
    decode bytes = .ok (edit empty) := by
  simp only [decode, makes.merge_eq]

/-- The edits of a scan, in front of those of what follows. -/
theorem makes_of_scan {bytes : Bytes} {edits : List (Edit M)}
    (found : ∀ more, scan M (bytes ++ more) = (scan M more).prepend edits) :
    Makes bytes (Edit.all edits) := by
  intro target more
  simp only [merge, found more, Scan.prepend, Scan.apply, Edit.all_append]

/-- One field that is read makes its edits. -/
theorem makes_of_field {taken : Bytes} {edits : List (Edit M)}
    (reads : (field M).Reads taken edits) : Makes taken (Edit.all edits) :=
  makes_of_scan (Scanner.untilEnd_of_reads (field_consuming M) reads)

theorem field_selfDelimiting (M : Type) [Message M] [Delimited M] : (field M).SelfDelimiting :=
  .after Tag.read_selfDelimiting Delimited.payload_selfDelimiting

/-- **Bytes that are merged without a fault make the change that the merge made.** -/
theorem makes_of_complete [Delimited M] {bytes : Bytes} {target : M}
    (complete : (merge bytes target).fault = none) :
    Makes bytes fun target : M => (merge bytes target).message :=
  makes_of_scan fun more => Scanner.untilEnd_append (field_selfDelimiting M) complete more

end Message

/-- **Concatenation is sequential merging.** Where the first bytes are merged without a fault, the
concatenation ends as the second bytes do in the target they left: with the same message, and with
the same fault if there is one. -/
theorem MessageType.merge_append (type : MessageType) (target : type.Value) (first second : Bytes)
    (complete : (Message.merge first target).fault = none) :
    Message.merge (first ++ second) target
      = Message.merge second (Message.merge first target).message :=
  Message.makes_of_complete complete target second

/-- A whole field and a cut one: the fault counts the bytes of the cut one alone. -/
theorem MessageType.merge_append_cut :
    (Message.merge (M := MessageType.example2.Value) [0x08, 0x05] {}).fault = none ∧
      (Message.merge (M := MessageType.example2.Value) ([0x08, 0x05] ++ [0x12, 0x03, 0x61]) {}).fault
        = some (.bufferOverrun 3 1) := by
  have complete : (Message.merge (M := MessageType.example2.Value) [0x08, 0x05] {}).fault = none := by
    decide +kernel
  refine ⟨complete, ?_⟩
  rw [MessageType.merge_append .example2 {} [0x08, 0x05] [0x12, 0x03, 0x61] complete]
  decide +kernel

end Protobuf

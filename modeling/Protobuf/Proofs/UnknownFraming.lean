/-
**Framings that are not known.**

Of the eight framings that a tag can name four are known. The other four are no fault of the tag: they
are met where a payload has to be skipped, and a field that has a row is not skipped.

* `Payload.skip_unknown`: a payload under such a framing is refused before any of its bytes;
* `Kind.framing`: the framing that a member has in a field of one value;
* `Kind.scan_unknown`: a member reads its payload under a framing that is not known as under its own;
* `Message.merge_head`: tags are told apart by the payloads that are read behind them;
* `FooBar.Example1.merge_unknownFraming`: so such a framing is refused in a field that has no row, and is
  not looked at in one that has.
-/

import Protobuf.Proofs.NormalForm
import Protobuf.Proofs.UnknownFields

namespace Protobuf

/-- The framings that are not known: the two of groups, and the two that are not assigned. -/
def WireType.unknownIds : List Nat := [3, 4, 6, 7]

theorem WireType.lt_of_mem_unknownIds {wire : Nat} (strange : wire ∈ unknownIds) : wire < 8 := by
  revert wire
  decide

/-- **A payload under a framing that is not known is refused**, whatever its bytes are. -/
theorem Payload.skip_unknown {wire : Nat} (strange : wire ∈ WireType.unknownIds) (bytes : Bytes) :
    skip wire bytes = .error (.unknownWireType wire) bytes := by
  refine skip_other (fun framing same => ?_) bytes
  subst same
  revert strange
  cases framing <;> decide

namespace Kind

variable {V : Type}

/-- The framing of a field that holds one value of a member. -/
def framing : {V : Type} → Kind V → WireType
  | _, singular type => type.wireType
  | _, enumeration _ => .varint
  | _, repeated type => type.wireType
  | _, embedded _ => .lengthDelimited
  | _, textMap => .lengthDelimited
  | _, alternative type _ _ => type.wireType

/-- **A framing that is not known is taken for that of one value.** -/
theorem scan_unknown (kind : Kind V) {wire : Nat} (strange : wire ∈ WireType.unknownIds) :
    kind.scan wire = kind.scan kind.framing.id := by
  cases kind with
  | «repeated» type =>
    have other : wire ≠ WireType.lengthDelimited.id := by
      rintro rfl
      exact absurd strange (by decide)
    have bare : Repeated.isPacked wire type.wireType = false := by
      simp [Repeated.isPacked, other]
    have own : Repeated.isPacked type.wireType.id type.wireType = false := by cases type <;> rfl
    simp only [scan, framing, Repeated.scan, bare, own]
  | _ => rfl

end Kind

theorem Varint.Spells.append_ne_nil {head : Bytes} {n : Nat} (spells : Spells head n) (more : Bytes) :
    head ++ more ≠ [] := by
  intro nothing
  have digits := spells.digits
  rw [(List.append_eq_nil_iff.mp nothing).1] at digits
  cases digits

namespace Message

variable {M : Type} [Message M] {number wire : Nat} {head before : Bytes} {target : M}

/-- **Tags behind which the same is read may stand for each other.** -/
theorem merge_head [Delimited M] (least : 1 ≤ number) (most : number ≤ maxFieldNumber)
    (bits : wire < 8) (spells : Varint.Spells head (number * 8 + wire))
    {other : Nat} (wide : other < 8) {plain : Bytes}
    (respelled : Varint.Spells plain (number * 8 + other))
    (same : (payload ⟨number, wire⟩ : Scanner (Edit M)) = payload ⟨number, other⟩)
    (read : (merge before target).fault = none) (after : Bytes) :
    merge (before ++ head ++ after) target = merge (before ++ plain ++ after) target := by
  have first : field M (head ++ after) = field M (plain ++ after) := by
    simp only [field, Scanner.after, Tag.reads_spelled bits least most spells after,
      Tag.reads_spelled wide least most respelled after, same]
  have scanned : scan M (head ++ after) = scan M (plain ++ after) :=
    Scanner.untilEnd_congr (spells.append_ne_nil after) (respelled.append_ne_nil after) first
  rw [List.append_assoc, List.append_assoc, makes_of_complete read, makes_of_complete read]
  simp only [merge, scanned]

/-- **A tag behind which nothing is read ends the merge.** What was merged before it stays. -/
theorem merge_refused [Delimited M] (least : 1 ≤ number) (most : number ≤ maxFieldNumber)
    (bits : wire < 8) (spells : Varint.Spells head (number * 8 + wire)) {after : Bytes} {fault : Fault}
    (refused : (payload ⟨number, wire⟩ : Scanner (Edit M)) after = ⟨[], some fault, after⟩)
    (read : (merge before target).fault = none) :
    merge (before ++ head ++ after) target = ⟨(merge before target).message, some fault⟩ := by
  have stopped : field M (head ++ after) = ⟨[], some fault, after⟩ := by
    simp only [field, Scanner.after, Tag.reads_spelled bits least most spells after, refused]
  have scanned : scan M (head ++ after) = ⟨[], some fault, after⟩ := by
    rw [scan, Scanner.untilEnd_of_fault (field_consuming M) (spells.append_ne_nil after)
      (by rw [stopped]), stopped]
  rw [List.append_assoc, makes_of_complete read]
  simp only [merge, scanned, Scan.apply, Edit.all_nil, id]

theorem decode_of_fault {bytes : Bytes} {fault : Fault}
    (stopped : (merge bytes (empty : M)).fault = some fault) :
    (decode bytes : Except Fault M) = .error fault := by
  simp only [decode, stopped]

end Message

namespace Conformance.Testee

variable {request : Request} {payload : Bytes}

/-- A request that is processed is answered with what its payload comes to. -/
theorem Processes.handle_rewritten (processes : Processes request payload) :
    handle request = ⟨some (rewritten payload)⟩ := by
  have other : supportedMessageType ≠ failureSetMessageType := by decide
  simp only [handle, outcome, processes.messageType, processes.payload, processes.output,
    if_neg other, ne_eq, not_true_eq_false, if_false, if_true]

end Conformance.Testee

/-! ### The example -/

namespace FooBar.Example1

open Conformance.Testee

/-- **A framing that is not known is refused exactly where the field has no row.** Behind bytes that are
read to their end, under any number, before any bytes: a field that is not declared ends the merge with
the framing as its fault, and a request with that payload is answered with a parse error. In one that is
declared the framing is not looked at: the message, the fault and the answer are those of the same bytes
with the framing of the row. -/
theorem merge_unknownFraming {before head : Bytes} {number wire : Nat} {target : Example1}
    (read : (Message.merge before target).fault = none) (least : 1 ≤ number)
    (most : number ≤ maxFieldNumber) (strange : wire ∈ WireType.unknownIds)
    (spells : Varint.Spells head (number * 8 + wire)) (after : Bytes) :
    (number ∉ fields.map Field.number →
      Message.merge (before ++ head ++ after) target
        = ⟨(Message.merge before target).message, some (.unknownWireType wire)⟩ ∧
      ∀ request, Processes request (before ++ head ++ after) →
        handle request = ⟨some (.parseError (Fault.unknownWireType wire).message)⟩) ∧
    ∀ row ∈ fields, row.number = number →
      ∀ plain, Varint.Spells plain (Tag.raw number row.kind.framing) →
        Message.merge (before ++ head ++ after) target
          = Message.merge (before ++ plain ++ after) target ∧
        ∀ request framed, Processes request (before ++ head ++ after) →
          Processes framed (before ++ plain ++ after) → handle request = handle framed := by
  have : Message.Delimited Example1 := MessageType.delimited .example1
  have bits := WireType.lt_of_mem_unknownIds strange
  refine ⟨fun unknown => ?_, ?_⟩
  · have refused : (Message.payload ⟨number, wire⟩ : Scanner (Edit Example1)) after
        = ⟨[], some (.unknownWireType wire), after⟩ := by
      have skipped : (Message.payload ⟨number, wire⟩ : Scanner (Edit Example1))
          = Scanner.silent (Payload.skip wire) := Message.payloadOf_unknown unknown
      simp only [skipped, Scanner.silent, Payload.skip_unknown strange]
    refine ⟨Message.merge_refused least most bits spells refused read, fun request processes => ?_⟩
    have stopped : Message.merge (before ++ head ++ after) (Message.empty : Example1)
        = ⟨(Message.merge before Message.empty).message, some (.unknownWireType wire)⟩ := by
      refine Message.merge_refused least most bits spells refused ?_
      exact read
    rw [processes.handle_rewritten, rewritten,
      Message.decode_of_fault (congrArg Merged.fault stopped)]
  · rintro row member rfl plain framed
    have known : row.kind.framing.id < 8 := by cases row.kind.framing <;> decide
    have same : (Message.payload ⟨row.number, wire⟩ : Scanner (Edit Example1))
        = Message.payload ⟨row.number, row.kind.framing.id⟩ := by
      show Message.payloadOf fields _ = Message.payloadOf fields _
      rw [Message.payloadOf_row lawfulTable.distinct member,
        Message.payloadOf_row lawfulTable.distinct member, Field.scan, Field.scan,
        row.kind.scan_unknown strange]
    have merged (target : Example1) : Message.merge (before ++ head ++ after) target
        = Message.merge (before ++ plain ++ after) target := by
      refine Message.merge_head least most bits spells known framed same ?_ after
      -- whether a merge comes to its end does not depend on what is merged into
      exact read
    refine ⟨merged target, fun request other one two => ?_⟩
    rw [one.handle_rewritten, two.handle_rewritten]
    simp only [rewritten, Message.decode, merged]

/-- A group that begins behind an integer: under a number that has no row, and under that of the integer,
which the group replaces by what stands where it would begin. -/
theorem merge_unknownFraming_group :
    Message.merge (M := Example1) ([0x18, 0x05] ++ [0xC3, 0x3E] ++ [0x07]) {}
        = ⟨{ aint32 := 5 }, some (.unknownWireType 3)⟩ ∧
      Message.merge (M := Example1) ([0x18, 0x05] ++ [0x1B] ++ [0x07]) {}
        = ⟨{ aint32 := 7 }, none⟩ := by
  have first : Message.merge (M := Example1) [0x18, 0x05] {} = ⟨{ aint32 := 5 }, none⟩ := by cbv
  have both : Message.merge (M := Example1) [0x18, 0x05, 0x18, 0x07] {} = ⟨{ aint32 := 7 }, none⟩ := by
    cbv
  have read : (Message.merge (M := Example1) [0x18, 0x05] {}).fault = none := by rw [first]
  have group : 3 ∈ WireType.unknownIds := by decide
  have fresh : Varint.Spells [0xC3, 0x3E] (1000 * 8 + 3) := ⟨rfl, by decide, by decide⟩
  have declared : Varint.Spells [0x1B] (3 * 8 + 3) := ⟨rfl, by decide, by decide⟩
  have refused := (merge_unknownFraming read (by decide) (by decide) group fresh [0x07]).1 (by decide)
  have taken := (merge_unknownFraming read (by decide) (by decide) group declared [0x07]).2
    ⟨3, .singular .int32, aint32, fun value message => { message with aint32 := value }⟩
    (by simp [fields]) rfl [0x18] ⟨rfl, by decide, by decide⟩
  exact ⟨refused.1.trans (by rw [first]), taken.1.trans both⟩

/-- **Not every framing that is not known is refused.** A group that begins under the number of a declared
integer is merged without a fault, and the testee writes the integer. -/
theorem merge_groupStart :
    (¬ ∀ (before : Bytes) (number wire : Nat) (after : Bytes) (target : Example1),
      (Message.merge before target).fault = none → 1 ≤ number → number ≤ maxFieldNumber →
      wire ∈ WireType.unknownIds →
      (Message.merge (before ++ Varint.encode (number * 8 + wire) ++ after) target).fault ≠ none) ∧
    handle (debugRequest supportedMessageType [0x1B, 0x05])
      = ⟨some (.protobufPayload [0x18, 0x05])⟩ := by
  have merged : Message.merge (M := Example1) [0x1B, 0x05] {} = ⟨{ aint32 := 5 }, none⟩ := by cbv
  refine ⟨fun refused => ?_, ?_⟩
  · have head : Varint.encode (3 * 8 + 3) = [0x1B] := by cbv
    refine refused [] 3 3 [0x05] {} (by rw [Message.merge_nil]) (by decide) (by decide) (by decide) ?_
    rw [head]
    exact congrArg Merged.fault merged
  · have decoded : Message.decode [0x1B, 0x05] = .ok ({ aint32 := 5 } : Example1) := by cbv
    have written : Message.encode ({ aint32 := 5 } : Example1) = [0x18, 0x05] := by decide +kernel
    have processes : Processes (debugRequest supportedMessageType [0x1B, 0x05]) [0x1B, 0x05] :=
      ⟨rfl, rfl, rfl⟩
    rw [processes.handle_eq decoded, written]

end FooBar.Example1

end Protobuf

/-
**Trees of fields are written and read back.**

Writing and reading are recursive over the tree and the lists of fields inside it, and so are the two
laws about them:

* `FieldTree.write_appends`, `FieldTree.writeAll_appends`: writing appends the bytes of the tree,
  whatever was written before;
* `FieldTree.reads_encode`, `FieldTree.readAll_reads`: reading takes exactly these bytes, whatever
  follows them. A message is read within its payload, where nothing follows, so its decoder comes to
  the end;
* `FieldTree.readAll_writeAll`: together, what is read of an encoder's bytes is what was written to it.
-/

import Protobuf.FieldTree
import Protobuf.Proofs.Appending
import Protobuf.Proofs.Occurrences

namespace Protobuf

theorem Scanner.Reads.collect {α : Type} {scanner : Scanner α} {taken : Bytes} {items : List α}
    (reads : scanner.Reads taken items) : scanner.collect.Reads taken items :=
  fun more => Scanner.collect_eq_ok.mpr (reads more)

/-- A decoder over exactly the bytes that are read comes to its end. -/
theorem Decoder.read_eq_of_reads {α : Type} {reader : Reader α} {bytes : Bytes} {value : α}
    (reads : reader.Reads bytes value) :
    (Decoder.ofBytes bytes).read reader = (.ok value, ⟨bytes, []⟩) := by
  have taken := reads []
  rw [List.append_nil] at taken
  simp only [Decoder.read, Decoder.ofBytes, taken]

namespace FieldTree

/-! ### Writing -/

theorem writePacked_appends {number : Nat} (least : 1 ≤ number) (most : number ≤ maxFieldNumber)
    {type : ScalarType} {values : List type.Value} (nonempty : values ≠ []) :
    Encoder.Appends (fun encoder => encoder.write (.packed number type values))
      (Repeated.packed number type values) := by
  simp only [Encoder.write, Repeated.packed, if_neg nonempty]
  exact Encoder.splice_appends _ least most

mutual

theorem write_appends : ∀ field : FieldTree, Encoder.Appends field.write field.encode
  | .scalar number content => by
    simp only [write, encode]
    exact (Encoder.writeTag_appends _ number.least number.most).bind
      (Encoder.writeScalar_appends content)
  | .packed number type bare values nonempty => by
    simp only [write, encode]
    exact writePacked_appends number.least number.most nonempty
  | .message number fields => by
    intro encoder
    -- the child starts from nothing, so that its bytes are those of the fields alone
    obtain ⟨child, written, bytes⟩ := writeAll_appends fields {}
    obtain ⟨after, spliced, appended⟩ :=
      Encoder.splice_appends child.bytes number.least number.most encoder
    refine ⟨after, ?_, ?_⟩
    · simp only [write, written]
      exact spliced
    · rw [appended, bytes]
      simp only [encode, List.nil_append]

theorem writeAll_appends : ∀ fields : List FieldTree,
    Encoder.Appends (writeAll fields) (encodeAll fields)
  | [] => Encoder.Appends.done
  | field :: fields => (write_appends field).bind (writeAll_appends fields)

end

/-! ### Reading -/

theorem read_packed_reads {number : FieldNumber} {type : ScalarType}
    (bare : type.wireType ≠ .lengthDelimited) {values : List type.Value} (nonempty : values ≠ [])
    (fits : (values.flatMap type.encode).length ≤ maxLength) :
    (Layout.packed type).read.Reads (Repeated.packed number.value type values)
      (.packed ⟨number.value, WireType.lengthDelimited.id⟩ type values) := by
  have packed := (Kind.isPacked_iff type .lengthDelimited).mpr ⟨rfl, bare⟩
  have run : (Repeated.scan WireType.lengthDelimited.id type.wireType type).Reads
      (Payload.encode (values.flatMap type.encode)) values := by
    simp only [Repeated.scan, if_pos packed]
    exact Kind.run_reads bare values fits
  simp only [Layout.read, Repeated.packed, if_neg nonempty]
  exact (Tag.reads_encode .lengthDelimited number.least number.most).bind
    (run.collect.bind_nil (.pure _))

mutual

theorem reads_encode : ∀ field : FieldTree,
    (∀ payload ∈ field.payloads, payload.length ≤ maxLength) →
      field.layout.read.Reads field.encode field.reading
  | .scalar number content, fits => by
    simp only [payloads] at fits
    simp only [layout, Layout.read, encode, reading]
    exact (Tag.reads_encode _ number.least number.most).bind
      ((content.type.reads_encode content.value fits).bind_nil (.pure _))
  | .packed number type bare values nonempty, fits => by
    simp only [payloads, List.forall_mem_singleton] at fits
    simp only [layout, encode, reading]
    exact read_packed_reads bare nonempty fits
  | .message number fields, fits => by
    simp only [payloads] at fits
    obtain ⟨outer, inner⟩ := List.forall_mem_cons.mp fits
    have within := Decoder.read_eq_of_reads (readAll_reads fields inner)
    simp only [layout, Layout.read, encode, reading]
    refine (Tag.reads_encode .lengthDelimited number.least number.most).bind
      ((Payload.reads_encode outer).bind_nil ?_)
    simp only [within]
    exact .pure _

theorem readAll_reads : ∀ fields : List FieldTree, AllFit fields →
    (Layout.readAll (layouts fields)).Reads (encodeAll fields) (readings fields)
  | [], _ => .pure []
  | field :: fields, fits => by
    obtain ⟨first, rest⟩ := List.forall_mem_append.mp fits
    exact (reads_encode field first).bind ((readAll_reads fields rest).bind_nil (.pure _))

end

/-- **Trees of fields are read back as they were written**: the same numbers, framings and values, in
the same order, with the decoder and every decoder inside it at its end. -/
theorem readAll_writeAll (capacity : Nat) (fields : List FieldTree) (fit : AllFit fields) :
    ∃ encoder decoder, writeAll fields { capacity } = .ok encoder ∧
      (Decoder.ofBytes encoder.bytes).read (Layout.readAll (layouts fields))
        = (.ok (readings fields), decoder) ∧
      decoder.isAtEnd = true := by
  obtain ⟨encoder, written, bytes⟩ := writeAll_appends fields { capacity }
  rw [List.nil_append] at bytes
  refine ⟨encoder, ⟨encoder.bytes, []⟩, written, ?_, rfl⟩
  rw [bytes]
  exact Decoder.read_eq_of_reads (readAll_reads fields fit)

/-- Fields that are easily lost: a NaN with a payload, numbers at both ends of the range, a negative
number and a truth value, an empty string, and messages in messages that hold nothing. -/
def fragile : List FieldTree := [
  .scalar { value := 1 } ⟨.float, (⟨0x7FC00001⟩ : Binary32)⟩,
  .message { value := maxFieldNumber } [
    .packed { value := 15 } .sint32 (by decide) [(0 : Int32), -1, 1] (by decide),
    .message { value := 16 } [
      .message { value := 16 } [],
      .scalar { value := 2 } ⟨.int32, (-1 : Int32)⟩],
    .scalar { value := 2 } ⟨.bool, false⟩,
    .scalar { value := 2 } ⟨.string, ""⟩,
    .scalar { value := 2048 } ⟨.bytes, List.replicate 128 (0 : UInt8)⟩]]

theorem readAll_writeAll_fragile :
    AllFit fragile ∧
      ∃ encoder decoder, writeAll fragile {} = .ok encoder ∧
        (Decoder.ofBytes encoder.bytes).read (Layout.readAll (layouts fragile))
          = (.ok (readings fragile), decoder) ∧
        decoder.isAtEnd = true := by
  have fit : AllFit fragile := by decide +kernel
  exact ⟨fit, readAll_writeAll initialCapacity fragile fit⟩

end FieldTree

end Protobuf

/-
**A refused field number changes nothing.**

Every write but that of a bare scalar starts with a tag, whose field number may be refused. What is built for
the field is built before that, in an encoder of its own:

* `Encoder.Write.head?`, `Encoder.Write.encode`: the tag that a write starts with, and all that it appends;
* `Encoder.Write.Framed`: it is that tag alone, or a length-delimited field behind it;
* `Writer.nested_refused`, `Encoder.perform_refused`: under a refused number nothing is written, whatever was
  built for the field;
* `Encoder.perform_admitted`: under any other one the bytes are appended, unless a payload is too long;
* `Encoder.perform_number`: so the number alone decides, and the tag is read back.
-/

import Protobuf.Proofs.Writing

namespace Protobuf

variable {number : Nat} {wire : WireType}

/-- Whatever builds a field under a refused number, nothing of it is written. -/
theorem Writer.nested_refused (outside : ¬ (1 ≤ number ∧ number ≤ maxFieldNumber)) (build : Writer)
    (encoder : Encoder) : ∃ stop, nested number build encoder = .error stop encoder := by
  rcases nested_cases number build with ⟨stop, same⟩ | ⟨child, same⟩
  · exact ⟨stop, by rw [same]; rfl⟩
  · exact ⟨_, by rw [same, splice_refused outside]⟩

namespace Encoder

/-- The tag that a write starts with, if it starts with one. -/
def Write.head? : Write → Option (Nat × WireType)
  | .scalar _ => none
  | .tag number wire => some (number, wire)
  | .packed number _ values => if values = [] then none else some (number, .lengthDelimited)
  | .entry number _ _ => some (number, .lengthDelimited)
  | .message number _ _ => some (number, .lengthDelimited)
  | .child number _ => some (number, .lengthDelimited)

/-- The bytes that a write appends. -/
def Write.encode : Write → Bytes
  | .scalar content => content.encode
  | .tag number wire => Tag.encode number wire
  | .packed number type values => Repeated.packed number type values
  | .entry number key value =>
    Tag.encode number .lengthDelimited ++ Payload.encode (Entry.encode key value)
  | .message number _ content =>
    Tag.encode number .lengthDelimited ++ Payload.encode (Message.encode content)
  | .child number encoder => Tag.encode number .lengthDelimited ++ Payload.encode encoder.bytes

/-- Writes a length-delimited field with this payload, built in an encoder of its own or there already. -/
structure Write.Framed (write : Write) (number : Nat) (payload : Bytes) : Prop where
  /-- What it appends. -/
  appended : write.encode = Tag.encode number .lengthDelimited ++ Payload.encode payload
  /-- At once it is spliced. -/
  atOnce : ∀ encoder : Encoder, encoder.write write = encoder.splice number payload
  /-- Step by step it is built before. -/
  stepwise : (∃ build, perform write = Writer.nested number build) ∨
    ∃ child, perform write = Writer.splice number child

/-- **What starts with a tag is that tag, or a length-delimited field.** -/
theorem Write.framed_of_head {write : Write} (head : write.head? = some (number, wire)) :
    write = .tag number wire ∨ wire = .lengthDelimited ∧ ∃ payload, write.Framed number payload := by
  cases write with
  | scalar => cases head
  | tag =>
    cases head
    exact .inl rfl
  | packed number type values =>
    simp only [head?] at head
    split at head
    · cases head
    · next nonempty =>
      cases head
      exact .inr ⟨rfl, _, if_neg nonempty, fun _ => if_neg nonempty,
        .inl ⟨values.forM fun value => Writer.scalar ⟨type, value⟩, if_neg nonempty⟩⟩
  | entry =>
    cases head
    exact .inr ⟨rfl, _, rfl, fun _ => rfl, .inl ⟨_, rfl⟩⟩
  | message =>
    cases head
    exact .inr ⟨rfl, _, rfl, fun _ => rfl, .inl ⟨_, rfl⟩⟩
  | child =>
    cases head
    exact .inr ⟨rfl, _, rfl, fun _ => rfl, .inr ⟨_, rfl⟩⟩

/-- **Under a refused number nothing is written**, whatever was built for the field. If no payload is too
long, the number is what stops the write. -/
theorem perform_refused {write : Write} (head : write.head? = some (number, wire))
    (outside : ¬ (1 ≤ number ∧ number ≤ maxFieldNumber)) (encoder : Encoder) :
    ∃ stop, perform write encoder = .error stop encoder ∧
      (write.Fits → stop = .refused ⟨number⟩) := by
  have refused (wire : WireType) : encoder.writeTag number wire = .error ⟨number⟩ := if_neg outside
  rcases Write.framed_of_head head with rfl | ⟨rfl, payload, framed⟩
  · exact ⟨_, Writer.tag_refused wire outside encoder, fun _ => rfl⟩
  · obtain ⟨stop, stopped⟩ : ∃ stop, perform write encoder = .error stop encoder := by
      rcases framed.stepwise with ⟨build, same⟩ | ⟨child, same⟩ <;> rw [same]
      · exact Writer.nested_refused outside build encoder
      · exact ⟨_, Writer.splice_refused outside child encoder⟩
    refine ⟨stop, stopped, fun fits => ?_⟩
    rw [perform_eq fits, framed.atOnce, splice, refused] at stopped
    cases stopped
    rfl

/-- **Under any other number the bytes of a write are appended**, its tag in front. -/
theorem perform_admitted {write : Write} (head : write.head? = some (number, wire))
    (least : 1 ≤ number) (most : number ≤ maxFieldNumber) (fits : write.Fits) (encoder : Encoder) :
    ∃ body left, perform write encoder = .ok () left ∧
      left.bytes = encoder.bytes ++ (Tag.encode number wire ++ body) ∧
      write.encode = Tag.encode number wire ++ body := by
  rw [perform_eq fits]
  rcases Write.framed_of_head head with rfl | ⟨rfl, payload, framed⟩
  · obtain ⟨left, written, bytes⟩ := writeTag_appends wire least most encoder
    refine ⟨[], left, ?_, by rw [bytes, List.append_nil], (List.append_nil _).symm⟩
    rw [Encoder.write, written]
    rfl
  · obtain ⟨left, written, bytes⟩ := splice_appends payload least most encoder
    refine ⟨_, left, ?_, bytes, framed.appended⟩
    rw [framed.atOnce, written]
    rfl

/-- **The field number decides.** Outside `1 … maxFieldNumber` every write that has one stops and leaves the
encoder as it was, its storage too; so does a field that is built in any other way. Inside it none stops
whose payloads are short enough, and the tag in front of what was appended is read back. A packed run of
nothing has no tag at all. -/
theorem perform_number (encoder : Encoder) :
    (∀ (write : Write) (number : Nat) (wire : WireType), write.head? = some (number, wire) →
      ¬ (1 ≤ number ∧ number ≤ maxFieldNumber) →
      ∃ stop, perform write encoder = .error stop encoder ∧
        (write.Fits → stop = .refused ⟨number⟩)) ∧
    (∀ (number : Nat) (build : Writer), ¬ (1 ≤ number ∧ number ≤ maxFieldNumber) →
      ∃ stop, Writer.nested number build encoder = .error stop encoder) ∧
    (∀ (number : Nat) (type : ScalarType),
      perform (.packed number type []) encoder = .ok () encoder) ∧
    (∀ (write : Write) (number : Nat) (wire : WireType), write.head? = some (number, wire) →
      1 ≤ number → number ≤ maxFieldNumber → write.Fits →
      ∃ left unread, perform write encoder = .ok () left ∧
        left.bytes = encoder.bytes ++ write.encode ∧
        Tag.read (left.bytes.drop encoder.size) = .ok ⟨number, wire.id⟩ unread) := by
  refine ⟨fun write number wire head outside => perform_refused head outside encoder,
    fun number build outside => Writer.nested_refused outside build encoder,
    fun number type => rfl, fun write number wire head least most fits => ?_⟩
  obtain ⟨body, left, performed, bytes, same⟩ := perform_admitted head least most fits encoder
  refine ⟨left, body, performed, by rw [bytes, same], ?_⟩
  have behind : left.bytes.drop encoder.size = Tag.encode number wire ++ body := by
    rw [bytes]
    exact List.drop_left
  rw [behind]
  exact Tag.reads_encode wire least most body

/-- The largest field number, and the one above it: an entry without a value, behind one byte. -/
theorem perform_number_largest :
    perform (.entry 0x20000000 (some ⟨.string, "k"⟩) none) ⟨[0x08], 64⟩
        = .error (.refused ⟨0x20000000⟩) ⟨[0x08], 64⟩ ∧
      ∃ left unread, perform (.entry 0x1FFFFFFF (some ⟨.string, "k"⟩) none) ⟨[0x08], 64⟩
          = .ok () left ∧ Tag.read (left.bytes.drop 1) = .ok ⟨0x1FFFFFFF, 2⟩ unread := by
  have fits (number : Nat) : (Write.entry number (some ⟨.string, "k"⟩) none).Fits :=
    List.forall_mem_singleton.mpr (by decide +kernel)
  obtain ⟨stop, stopped, reason⟩ := (perform_number ⟨[0x08], 64⟩).1
    (.entry 0x20000000 (some ⟨.string, "k"⟩) none) 0x20000000 .lengthDelimited rfl (by decide)
  obtain ⟨left, unread, performed, -, read⟩ := (perform_number ⟨[0x08], 64⟩).2.2.2
    (.entry 0x1FFFFFFF (some ⟨.string, "k"⟩) none) 0x1FFFFFFF .lengthDelimited rfl (by decide)
    (by decide) (fits _)
  rw [reason (fits _)] at stopped
  exact ⟨stopped, left, unread, performed, read⟩

end Encoder

end Protobuf

/-
**What a writer's steps come to.**

The steps that write a field reserve exactly what they put, so that together they are one `Encoder.append`.

* `Writer.varint_eq`, `Writer.tag_eq`, `Writer.payload_eq`, `Writer.scalar_eq`: the pieces of a field, where no
  check fails;
* `Writer.Builds`: the steps stop on no encoder and append exactly these bytes;
* `Kind.write_builds`, `Table.Parts.write_builds`, `MessageType.write_builds`: the steps of a member, of a
  table and of a message build what these are encoded as;
* `Writer.nested_cases`: what is built in an encoder of its own is spliced, or lost;
* `Encoder.perform_eq`: so writing step by step is writing at once, as long as no payload is too long;
* `Encoder.perform_stopped`: and then only a refused number stops it, which changes nothing.
-/

import Protobuf.Encoder.Stepwise
import Protobuf.Proofs.Appending
import Protobuf.Proofs.NormalForm
import Protobuf.Proofs.ShortestVarint

namespace Protobuf

open Encoder (Stop)

namespace Writer

variable {first second build : Writer} {head tail chunk : Bytes} {encoder child : Encoder}
  {number : Nat}

/-! ### The pieces of a field -/

theorem seq_ok {left : Encoder} (ended : first encoder = .ok () left) :
    (do first; second : Writer) encoder = second left := by
  simp only [bind, EStateM.bind, ended]

/-- What is reserved for a number is what it takes. -/
theorem varint_eq (n : Nat) (encoder : Encoder) :
    varint n encoder = .ok () (encoder.append (Varint.encode n)) := by
  rw [Encoder.append, Varint.length_encode_eq_size]
  rfl

theorem fixed_eq (width n : Nat) (encoder : Encoder) :
    fixed width n encoder = .ok () (encoder.append (Bytes.littleEndian width n)) := by
  rw [Encoder.append, Bytes.length_littleEndian]
  rfl

theorem tag_eq (wire : WireType) (least : 1 ≤ number) (most : number ≤ maxFieldNumber)
    (encoder : Encoder) :
    tag number wire encoder = .ok () (encoder.append (Tag.encode number wire)) := by
  rw [tag, if_pos ⟨least, most⟩]
  exact varint_eq _ encoder

theorem tag_refused (wire : WireType) (outside : ¬ (1 ≤ number ∧ number ≤ maxFieldNumber))
    (encoder : Encoder) :
    tag number wire encoder = .error (.refused ⟨number⟩) encoder := by
  rw [tag, if_neg outside]
  rfl

theorem payload_eq (fits : chunk.length ≤ maxLength) (encoder : Encoder) :
    payload chunk encoder = .ok () (encoder.writePayload chunk) := by
  rw [payload, if_neg (Nat.not_lt_of_le fits)]
  exact seq_ok (varint_eq _ encoder)

/-- A scalar is one chunk, or it is a payload. -/
theorem scalar_cases (type : ScalarType) (value : type.Value) :
    (∀ encoder : Encoder,
      scalar ⟨type, value⟩ encoder = .ok () (encoder.append (type.encode value)) ∧
      encoder.writeScalar ⟨type, value⟩ = encoder.append (type.encode value)) ∨
    ∃ content, type.payloads value = [content] ∧ scalar ⟨type, value⟩ = payload content ∧
      ∀ encoder : Encoder, encoder.writeScalar ⟨type, value⟩ = encoder.writePayload content := by
  cases type with
  | bytes | string => exact .inr ⟨_, rfl, rfl, fun _ => rfl⟩
  | fixed32 | sfixed32 | float => exact .inl fun encoder => ⟨fixed_eq 4 _ encoder, rfl⟩
  | fixed64 | sfixed64 | double => exact .inl fun encoder => ⟨fixed_eq 8 _ encoder, rfl⟩
  | _ => exact .inl fun encoder => ⟨varint_eq _ encoder, rfl⟩

theorem scalar_eq {type : ScalarType} {value : type.Value}
    (fits : ∀ payload ∈ type.payloads value, payload.length ≤ maxLength) (encoder : Encoder) :
    scalar ⟨type, value⟩ encoder = .ok () (encoder.writeScalar ⟨type, value⟩) := by
  rcases scalar_cases type value with one | ⟨content, payloads, same, written⟩
  · obtain ⟨ended, written⟩ := one encoder
    rw [ended, written]
  · rw [payloads] at fits
    rw [same, written, payload_eq (fits content (List.mem_singleton_self content))]

theorem splice_eq (fits : child.bytes.length ≤ maxLength) (least : 1 ≤ number)
    (most : number ≤ maxFieldNumber) (encoder : Encoder) :
    splice number child encoder
      = .ok () ((encoder.append (Tag.encode number .lengthDelimited)).writePayload child.bytes) := by
  rw [splice, seq_ok (tag_eq _ least most encoder)]
  exact payload_eq fits _

/-- A refused number stops a field before anything of it is written. -/
theorem splice_refused (outside : ¬ (1 ≤ number ∧ number ≤ maxFieldNumber)) (child encoder : Encoder) :
    splice number child encoder = .error (.refused ⟨number⟩) encoder := by
  simp only [splice, bind, EStateM.bind, tag_refused _ outside]

/-- **A nested field is spliced, or stops before anything is done**, whatever builds it. -/
theorem nested_cases (number : Nat) (build : Writer) :
    (∃ stop, nested number build = throw stop) ∨
      ∃ child, nested number build = splice number child := by
  unfold nested
  cases build {} with
  | ok _ child => exact .inr ⟨child, rfl⟩
  | error stop _ => exact .inl ⟨stop, rfl⟩

/-! ### Building -/

/-- Stops on no encoder, and appends exactly these bytes. -/
def Builds (writer : Writer) (chunk : Bytes) : Prop :=
  ∀ encoder, ∃ left, writer encoder = .ok () left ∧ left.bytes = encoder.bytes ++ chunk

theorem Builds.nothing : Builds (pure ()) [] :=
  fun encoder => ⟨encoder, rfl, (List.append_nil _).symm⟩

theorem Builds.seq (one : first.Builds head) (two : second.Builds tail) :
    Builds (do first; second) (head ++ tail) := by
  intro encoder
  obtain ⟨middle, ended, written⟩ := one encoder
  obtain ⟨left, ended', written'⟩ := two middle
  refine ⟨left, (seq_ok ended).trans ended', ?_⟩
  rw [written', written, List.append_assoc]

theorem Builds.forM {α : Type} {write : α → Writer} {encode : α → Bytes} {items : List α}
    (builds : ∀ item ∈ items, (write item).Builds (encode item)) :
    Builds (items.forM write) (items.flatMap encode) := by
  induction items with
  | nil => exact .nothing
  | cons item items ih =>
    obtain ⟨one, others⟩ := List.forall_mem_cons.mp builds
    exact one.seq (ih others)

theorem tag_builds (wire : WireType) (least : 1 ≤ number) (most : number ≤ maxFieldNumber) :
    (tag number wire).Builds (Tag.encode number wire) :=
  fun encoder => ⟨_, tag_eq wire least most encoder, Encoder.append_bytes _ encoder⟩

theorem scalar_builds {type : ScalarType} {value : type.Value}
    (fits : ∀ payload ∈ type.payloads value, payload.length ≤ maxLength) :
    (scalar ⟨type, value⟩).Builds (type.encode value) :=
  fun encoder => ⟨_, scalar_eq fits encoder, Encoder.writeScalar_bytes _ encoder⟩

theorem field_builds {type : ScalarType} {value : type.Value} (least : 1 ≤ number)
    (most : number ≤ maxFieldNumber)
    (fits : ∀ payload ∈ type.payloads value, payload.length ≤ maxLength) :
    (field number ⟨type, value⟩).Builds (Scalar.field number ⟨type, value⟩) :=
  (tag_builds _ least most).seq (scalar_builds fits)

/-- What is built in an encoder of its own becomes the payload of a field. -/
theorem Builds.nested (builds : build.Builds chunk) (number : Nat) :
    ∃ child, child.bytes = chunk ∧ nested number build = splice number child := by
  obtain ⟨child, ended, written⟩ := builds {}
  refine ⟨child, written, funext fun encoder => ?_⟩
  simp only [Writer.nested, ended]

theorem nested_builds (builds : build.Builds chunk) (least : 1 ≤ number)
    (most : number ≤ maxFieldNumber) (fits : chunk.length ≤ maxLength) :
    (nested number build).Builds (Tag.encode number .lengthDelimited ++ Payload.encode chunk) := by
  obtain ⟨child, rfl, same⟩ := builds.nested number
  rw [same]
  intro encoder
  refine ⟨_, splice_eq fits least most encoder, ?_⟩
  rw [Encoder.writePayload_bytes, Encoder.append_bytes, List.append_assoc]

/-- The elements of a run fit if the run does. -/
theorem elements_builds {type : ScalarType} {values : List type.Value}
    (fits : (values.flatMap type.encode).length ≤ maxLength) :
    Builds (values.forM fun value => scalar ⟨type, value⟩) (values.flatMap type.encode) := by
  refine .forM fun value present => scalar_builds fun payload member => ?_
  calc payload.length ≤ (type.encode value).length := ScalarType.length_le_of_mem_payloads member
    _ ≤ (values.flatMap type.encode).length := length_le_length_flatMap type.encode present
    _ ≤ maxLength := fits

theorem packed_builds {type : ScalarType} {values : List type.Value} (least : 1 ≤ number)
    (most : number ≤ maxFieldNumber) (fits : (values.flatMap type.encode).length ≤ maxLength) :
    (packed number type values).Builds (Repeated.packed number type values) := by
  unfold packed Repeated.packed
  by_cases empty : values = []
  · rw [if_pos empty, if_pos empty]
    exact .nothing
  · rw [if_neg empty, if_neg empty]
    exact nested_builds (elements_builds fits) least most fits

theorem member_builds (least : 1 ≤ number) (most : number ≤ maxFieldNumber) {content : Option Scalar}
    (fits : (content.elim [] (Scalar.field number)).length ≤ maxLength) :
    Builds (content.elim (pure ()) (field number)) (content.elim [] (Scalar.field number)) := by
  cases content with
  | none => exact .nothing
  | some scalar =>
    exact field_builds least most fun _ member =>
      Nat.le_trans (Scalar.length_le_of_mem_payloads member) fits

theorem members_builds {key value : Option Scalar}
    (fits : (Entry.encode key value).length ≤ maxLength) :
    Builds (do
      key.elim (pure ()) (field Entry.keyNumber)
      value.elim (pure ()) (field Entry.valueNumber)) (Entry.encode key value) := by
  rw [Entry.encode, List.length_append] at fits
  exact (member_builds (by decide) (by decide) (by omega)).seq
    (member_builds (by decide) (by decide) (by omega))

theorem entry_builds {key value : Option Scalar} (least : 1 ≤ number)
    (most : number ≤ maxFieldNumber) (fits : (Entry.encode key value).length ≤ maxLength) :
    (entry number key value).Builds
      (Tag.encode number .lengthDelimited ++ Payload.encode (Entry.encode key value)) :=
  nested_builds (members_builds fits) least most fits

end Writer

/-! ### Members and messages -/

/-- Whether the steps of an embedded message build what it is encoded as. -/
def Kind.Parts.Build : {V : Type} → (kind : Kind V) → kind.Parts → Prop
  | _, embedded _, parts => ∀ message, Message.Fits message →
      (parts.write message).Builds (Message.encode message)
  | _, _, _ => True

/-- **The steps of a member build what it is encoded as.** -/
theorem Kind.write_builds {V : Type} {kind : Kind V} {parts : kind.Parts}
    (build : Kind.Parts.Build kind parts) {number : Nat} (least : 1 ≤ number)
    (most : number ≤ maxFieldNumber) {value : V}
    (fits : ∀ payload ∈ kind.payloads value, payload.length ≤ maxLength) :
    (kind.write parts number value).Builds (kind.encode number value) := by
  cases kind with
  | singular type =>
    simp only [write, encode]
    split
    · exact .nothing
    · exact Writer.field_builds least most fits
  | enumeration E =>
    simp only [write, encode]
    split
    · exact .nothing
    · exact Writer.field_builds least most (fits_of_bare (by decide) _)
  | «repeated» type =>
    simp only [write, encode, payloads] at fits ⊢
    split at fits
    · next framed =>
      rw [if_pos framed, if_pos framed]
      refine .forM fun element present => Writer.field_builds least most fun payload member => ?_
      exact fits payload (List.mem_flatMap.mpr ⟨element, present, member⟩)
    · next framed =>
      rw [if_neg framed, if_neg framed]
      exact Writer.packed_builds least most (fits _ (List.mem_singleton_self _))
  | embedded N =>
    cases value with
    | none => exact .nothing
    | some message =>
      obtain ⟨outer, inner⟩ := List.forall_mem_cons.mp fits
      exact Writer.nested_builds (build message inner) least most outer
  | textMap =>
    refine .forM fun entry present => Writer.entry_builds least most ?_
    exact fits _ (List.mem_flatMap.mpr ⟨entry, present, List.mem_cons_self⟩)
  | alternative type choose chosen =>
    simp only [write, encode, payloads] at fits ⊢
    cases found : value.bind chosen with
    | none => exact .nothing
    | some content =>
      rw [found] at fits
      exact Writer.field_builds least most fits

namespace Table.Parts

variable {M : Type} {fields : List (Field M)}

/-- Whether the steps of every embedded message build what it is encoded as. -/
def Build : {fields : List (Field M)} → Parts fields → Prop
  | _, nil => True
  | field :: _, cons first rest => Kind.Parts.Build field.kind first ∧ rest.Build

/-- **The steps of a table build the fields of a message.** -/
theorem write_builds {parts : Parts fields} (build : parts.Build)
    (lawful : ∀ field ∈ fields, field.Lawful) {message : M}
    (fits : ∀ payload ∈ fields.flatMap fun field => field.kind.payloads (field.get message),
      payload.length ≤ maxLength) :
    (parts.write message).Builds (fields.flatMap fun field => field.encode message) := by
  induction parts with
  | nil => exact .nothing
  | cons first rest ih =>
    obtain ⟨row, rows⟩ := List.forall_mem_cons.mp lawful
    rw [List.flatMap_cons, List.forall_mem_append] at fits
    exact (Kind.write_builds build.1 row.least row.most fits.1).seq (ih build.2 rows fits.2)

end Table.Parts

namespace MessageType

theorem build_fizBaz : FizBaz.Example2.parts.Build := ⟨trivial, trivial⟩

theorem build_example2 : FooBar.Example2.parts.Build := ⟨trivial, trivial⟩

theorem build_inner : FooBar.Example1.Example2.parts.Build := ⟨trivial, trivial⟩

/-- Three rows of the table embed a message of one of the types above. -/
theorem build_example1 : FooBar.Example1.parts.Build := by
  simp only [FooBar.Example1.parts, Table.Parts.Build]
  repeat' apply And.intro
  all_goals first
    | exact trivial
    | exact fun _ => Table.Parts.write_builds build_inner FooBar.Example1.Example2.lawfulTable.lawful
    | exact fun _ => Table.Parts.write_builds build_example2 FooBar.Example2.lawfulTable.lawful
    | exact fun _ => Table.Parts.write_builds build_fizBaz FizBaz.Example2.lawfulTable.lawful

theorem build_request : Conformance.Request.parts.Build := by
  simp only [Conformance.Request.parts, Table.Parts.Build, Kind.Parts.Build]
  trivial

theorem build_response : Conformance.Response.parts.Build := by
  simp only [Conformance.Response.parts, Table.Parts.Build, Kind.Parts.Build]
  trivial

theorem build_failureSet : Conformance.FailureSet.parts.Build := ⟨trivial, trivial⟩

/-- **The steps of a message build what it is encoded as**, if its payloads are short enough. -/
theorem write_builds (type : MessageType) {message : type.Value} (fits : Message.Fits message) :
    (Message.Stepwise.write message).Builds (Message.encode message) := by
  cases type with
  | example1 =>
    exact Table.Parts.write_builds build_example1 FooBar.Example1.lawfulTable.lawful fits
  | example1Example2 =>
    exact Table.Parts.write_builds build_inner FooBar.Example1.Example2.lawfulTable.lawful fits
  | example2 =>
    exact Table.Parts.write_builds build_example2 FooBar.Example2.lawfulTable.lawful fits
  | fizBazExample2 =>
    exact Table.Parts.write_builds build_fizBaz FizBaz.Example2.lawfulTable.lawful fits
  | conformanceRequest =>
    exact Table.Parts.write_builds build_request Conformance.Request.lawfulTable.lawful fits
  | conformanceResponse =>
    exact Table.Parts.write_builds build_response Conformance.Response.lawfulTable.lawful fits
  | failureSet =>
    exact Table.Parts.write_builds build_failureSet Conformance.FailureSet.lawfulTable.lawful fits

end MessageType

/-! ### Everything that can be written -/

namespace Encoder

/-- The length-delimited payloads of a write. -/
def Write.payloads : Write → List Bytes
  | .scalar ⟨type, value⟩ => type.payloads value
  | .tag _ _ => []
  | .packed _ type values => [values.flatMap type.encode]
  | .entry _ key value => [Entry.encode key value]
  | .message _ _ content => [Message.encode content]
  | .child _ encoder => [encoder.bytes]

/-- Whether none of them is too long. -/
def Write.Fits (write : Write) : Prop := ∀ payload ∈ write.payloads, payload.length ≤ maxLength

/-- What a writer ends with if all it does is to write at once. -/
def outcome (encoder : Encoder) : Except Refusal Encoder → EStateM.Result Stop Encoder Unit
  | .ok left => .ok () left
  | .error refusal => .error (.refused refusal) encoder

theorem splice_outcome {child : Encoder} (fits : child.bytes.length ≤ maxLength) (number : Nat)
    (encoder : Encoder) :
    Writer.splice number child encoder = encoder.outcome (encoder.splice number child.bytes) := by
  unfold splice writeTag
  by_cases inside : 1 ≤ number ∧ number ≤ maxFieldNumber
  · rw [if_pos inside, Writer.splice_eq fits inside.1 inside.2]
    rfl
  · rw [if_neg inside, Writer.splice_refused inside]
    rfl

theorem nested_outcome {build : Writer} {chunk : Bytes} (builds : build.Builds chunk)
    (fits : chunk.length ≤ maxLength) (number : Nat) (encoder : Encoder) :
    Writer.nested number build encoder = encoder.outcome (encoder.splice number chunk) := by
  obtain ⟨child, rfl, same⟩ := builds.nested number
  rw [same]
  exact splice_outcome fits number encoder

/-- **Writing step by step is writing at once**, as long as no payload is too long. -/
theorem perform_eq {write : Write} (fits : write.Fits) (encoder : Encoder) :
    perform write encoder = encoder.outcome (encoder.write write) := by
  cases write with
  | scalar scalar => exact Writer.scalar_eq fits encoder
  | tag number wire =>
    simp only [perform, Encoder.write, writeTag]
    by_cases inside : 1 ≤ number ∧ number ≤ maxFieldNumber
    · rw [if_pos inside, Writer.tag_eq wire inside.1 inside.2]
      rfl
    · rw [if_neg inside, Writer.tag_refused wire inside]
      rfl
  | packed number type values =>
    simp only [perform, Encoder.write, Writer.packed]
    by_cases empty : values = []
    · rw [if_pos empty, if_pos empty]
      rfl
    · have short := fits _ (List.mem_singleton_self _)
      rw [if_neg empty, if_neg empty]
      exact nested_outcome (Writer.elements_builds short) short number encoder
  | entry number key value =>
    have short := fits _ (List.mem_singleton_self _)
    exact nested_outcome (Writer.members_builds short) short number encoder
  | message number type message =>
    have short := fits _ (List.mem_singleton_self _)
    have builds := type.write_builds (LawfulMessage.fits_of_length_le short)
    exact nested_outcome builds short number encoder
  | child number child => exact splice_outcome (fits _ (List.mem_singleton_self _)) number encoder

/-- **A write whose payloads fit stops for nothing but a refused number**, with the text of the refusal, and
leaves the encoder as it was. -/
theorem perform_stopped {write : Write} (fits : write.Fits) {encoder left : Encoder} {stop : Stop}
    (stopped : perform write encoder = .error stop left) :
    left = encoder ∧ ∃ refusal, encoder.write write = .error refusal ∧
      stop.message = refusal.message := by
  rw [perform_eq fits] at stopped
  cases written : encoder.write write with
  | ok after =>
    rw [written] at stopped
    cases stopped
  | error refusal =>
    rw [written] at stopped
    cases stopped
    exact ⟨rfl, refusal, rfl, rfl⟩

end Encoder

end Protobuf

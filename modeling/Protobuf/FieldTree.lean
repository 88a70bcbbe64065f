/-
**Trees of fields.**

A `FieldTree` is a field with everything it holds: a scalar, a packed run, or a message of further
fields. There is no message type behind it; it shows what encoders and decoders do by themselves.

* `FieldTree.write`: writes a field to an encoder. A message is written to an encoder of its own,
  which is spliced when it is complete;
* `FieldTree.encode`: the bytes of a field;
* `FieldTree.Layout`: what the reader of a field has to be told, since its bytes do not tell it: the
  type of a scalar, and that a payload is a run or a message;
* `FieldTree.Layout.read`: reads a field of a layout. A message is read by a decoder over its payload,
  and a `FieldTree.Reading` of it says whether that decoder came to its end.
-/

import Protobuf.Decoder
import Protobuf.Encoder

namespace Protobuf

/-- A field number that a tag can carry. -/
structure FieldNumber where
  /-- The number. -/
  value : Nat
  /-- Numbers start at one. -/
  least : 1 ≤ value := by decide
  /-- A tag has no room for larger ones. -/
  most : value ≤ maxFieldNumber := by decide

/-- A field and what it holds. -/
inductive FieldTree where
  /-- A scalar. -/
  | scalar (number : FieldNumber) (content : Scalar)
  /-- Some scalars in one packed run, which is not written if there are none. -/
  | packed (number : FieldNumber) (type : ScalarType) (bare : type.wireType ≠ .lengthDelimited)
      (values : List type.Value) (nonempty : values ≠ [])
  /-- A message with some fields. -/
  | message (number : FieldNumber) (fields : List FieldTree)

namespace FieldTree

/-! ### Writing -/

mutual

/-- Writes a field. -/
def write : FieldTree → Encoder → Except Refusal Encoder
  | .scalar number content, encoder => do
    let encoder ← encoder.writeTag number.value content.type.wireType
    return encoder.writeScalar content
  | .packed number type _ values _, encoder => encoder.write (.packed number.value type values)
  | .message number fields, encoder => do
    let child ← writeAll fields {}
    encoder.write (.child number.value child)

/-- Writes some fields, in order. -/
def writeAll : List FieldTree → Encoder → Except Refusal Encoder
  | [], encoder => .ok encoder
  | field :: fields, encoder => do
    let encoder ← field.write encoder
    writeAll fields encoder

end

mutual

/-- The bytes of a field. -/
def encode : FieldTree → Bytes
  | .scalar number content => Scalar.field number.value content
  | .packed number type _ values _ => Repeated.packed number.value type values
  | .message number fields =>
    Tag.encode number.value .lengthDelimited ++ Payload.encode (encodeAll fields)

/-- The bytes of some fields. -/
def encodeAll : List FieldTree → Bytes
  | [] => []
  | field :: fields => field.encode ++ encodeAll fields

end

mutual

/-- The length-delimited payloads of a field, at every depth. -/
def payloads : FieldTree → List Bytes
  | .scalar _ content => content.type.payloads content.value
  | .packed _ type _ values _ => [values.flatMap type.encode]
  | .message _ fields => encodeAll fields :: payloadsOfAll fields

/-- The length-delimited payloads of some fields, at every depth. -/
def payloadsOfAll : List FieldTree → List Bytes
  | [] => []
  | field :: fields => field.payloads ++ payloadsOfAll fields

end

/-- Whether every payload of some fields, at every depth, is one that may be written. -/
def AllFit (fields : List FieldTree) : Prop :=
  ∀ payload ∈ payloadsOfAll fields, payload.length ≤ maxLength

instance (fields : List FieldTree) : Decidable (AllFit fields) :=
  inferInstanceAs (Decidable (∀ payload ∈ payloadsOfAll fields, payload.length ≤ maxLength))

/-! ### Reading -/

/-- What the reader of a field has to be told. -/
inductive Layout where
  /-- A scalar of a type. -/
  | scalar (type : ScalarType)
  /-- A run of scalars of a type. -/
  | packed (type : ScalarType)
  /-- A message whose fields have these layouts. -/
  | message (fields : List Layout)

mutual

/-- The layout of a field. -/
def layout : FieldTree → Layout
  | .scalar _ content => .scalar content.type
  | .packed _ type _ _ _ => .packed type
  | .message _ fields => .message (layouts fields)

/-- The layouts of some fields. -/
def layouts : List FieldTree → List Layout
  | [] => []
  | field :: fields => field.layout :: layouts fields

end

/-- What was read of a field. -/
inductive Reading where
  /-- A tag and a scalar. -/
  | scalar (tag : Tag) (content : Scalar)
  /-- A tag and the scalars of one occurrence of a repeated field. -/
  | packed (tag : Tag) (type : ScalarType) (values : List type.Value)
  /-- A tag and some fields, and whether nothing is left behind them in the payload. -/
  | message (tag : Tag) (fields : List Reading) (atEnd : Bool)

mutual

/-- Reads a field of a layout. -/
def Layout.read : Layout → Reader Reading
  | .scalar type => do
    let tag ← Tag.read
    let value ← type.read
    return .scalar tag ⟨type, value⟩
  | .packed type => do
    let tag ← Tag.read
    let values ← (Repeated.scan tag.wire type.wireType type).collect
    return .packed tag type values
  | .message fields => do
    let tag ← Tag.read
    let payload ← Payload.read
    let (readings, decoder) := (Decoder.ofBytes payload).read (Layout.readAll fields)
    let readings ← Reader.ofExcept readings
    return .message tag readings decoder.isAtEnd

/-- Reads fields of some layouts, in order. -/
def Layout.readAll : List Layout → Reader (List Reading)
  | [] => pure []
  | layout :: layouts => do
    let reading ← layout.read
    let readings ← Layout.readAll layouts
    return reading :: readings

end

mutual

/-- What is read of a field where nothing goes wrong. -/
def reading : FieldTree → Reading
  | .scalar number content => .scalar ⟨number.value, content.type.wireType.id⟩ content
  | .packed number type _ values _ =>
    .packed ⟨number.value, WireType.lengthDelimited.id⟩ type values
  | .message number fields =>
    .message ⟨number.value, WireType.lengthDelimited.id⟩ (readings fields) true

/-- What is read of some fields where nothing goes wrong. -/
def readings : List FieldTree → List Reading
  | [] => []
  | field :: fields => field.reading :: readings fields

end

end FieldTree

end Protobuf

/-
**The canonical form of the example.**

A message can be written in many ways: tags, lengths and numbers have longer spellings, fields may come
in any order, and a default may be written or left out. The canonical form admits one of them. It is
described field by field, without a reader or a writer:

* `Payload.Delimits`, `ScalarType.CanonicalForm`: a content behind its length, and the payload of a
  scalar, spelled as short as can be;
* `WireField.Heads`, `WireField.Holds`: a field with the shortest tag, and one that holds a scalar;
* `Entry.CanonicalForm`: an entry with both members in their order;
* `Shape`: what the fields of one number look like, each of them (`Shape.Admits`) and together
  (`Shape.Segment`);
* `FooBar.Example1.shape?`, `FooBar.Example1.CanonicalForm`: the shape of every number, and the form
  of a message.
-/

import Protobuf.Conforming
import Protobuf.Example.FooBar
import Protobuf.Spelling

namespace Protobuf

/-- Whether a payload is this content behind its length, which is spelled as short as can be. -/
def Payload.Delimits (payload content : Bytes) : Prop :=
  content.length ≤ maxLength ∧
    ∃ head, Varint.Shortest head content.length ∧ payload = head ++ content

/-- Whether all bytes of a payload are zero. Those of a default are: the number zero, a float without a
bit set, and the length of no content. No other value is spelled so. -/
def Payload.IsZero (payload : Bytes) : Prop := ∀ byte ∈ payload, byte = 0

/-- The numbers that a varint of a type may have. A signed 32-bit number is extended to 64 bits. -/
def ScalarType.Carries : ScalarType → Nat → Prop
  | int32, n => n < 0x80000000 ∨ 0xFFFFFFFF80000000 ≤ n
  | uint32, n => n < UInt32.size
  | sint32, n => n < UInt32.size
  | bool, n => n < 2
  | _, _ => True

/-- Whether bytes are the payload of a scalar as short as can be. -/
def ScalarType.CanonicalForm (type : ScalarType) (payload : Bytes) : Prop :=
  match type.wireType with
  | .varint => ∃ n, Varint.Shortest payload n ∧ type.Carries n
  | .fixed64 => payload.length = 8
  | .lengthDelimited => ∃ content, Payload.Delimits payload content ∧ type.Accepts content
  | .fixed32 => payload.length = 4

/-- Whether a field has this number and framing, and the shortest tag that says so. -/
structure WireField.Heads (field : WireField) (number : Nat) (wire : WireType) : Prop where
  /-- What the tag says. -/
  tag : field.tag = ⟨number, wire.id⟩
  /-- How it is spelled. -/
  head : Varint.Shortest field.head (Tag.raw number wire)

/-- Whether a field holds a scalar under a number. -/
structure WireField.Holds (field : WireField) (number : Nat) (type : ScalarType) : Prop where
  /-- It has this number and the framing of the type. -/
  heads : field.Heads number type.wireType
  /-- Its payload is a value of the type. -/
  payload : type.CanonicalForm field.payload

/-- Whether a payload is an entry of a map of strings, with these bytes for its key: a field for the key
and one for the value, even if they are defaults. -/
def Entry.CanonicalForm (payload key : Bytes) : Prop :=
  ∃ first second : WireField, Payload.Delimits payload (first.bytes ++ second.bytes) ∧
    first.Holds keyNumber .string ∧ Payload.Delimits first.payload key ∧
    second.Holds valueNumber .string

/-- What the fields of one number look like. -/
inductive Shape where
  /-- A scalar other than the default, at most once. -/
  | single (type : ScalarType)
  /-- Any number of scalars, one field each. -/
  | elements (type : ScalarType)
  /-- Some scalars in one packed run. -/
  | run (type : ScalarType)
  /-- An embedded message of one scalar, at most once. -/
  | message (type : ScalarType)
  /-- The entries of a map of strings. -/
  | entries
  /-- A case of a choice, default or not. -/
  | alternative (type : ScalarType)
  deriving DecidableEq, Repr

namespace Shape

/-- The framing of a field of a shape. -/
def wireType : Shape → WireType
  | single type | elements type | alternative type => type.wireType
  | run _ | message _ | entries => .lengthDelimited

/-- Whether a field of a shape may be given more than once. -/
def repeats : Shape → Bool
  | elements _ | entries => true
  | single _ | run _ | message _ | alternative _ => false

/-- Whether a payload is one of a shape. -/
def Admits : Shape → (payload : Bytes) → Prop
  | single type, payload => type.CanonicalForm payload ∧ ¬ Payload.IsZero payload
  | elements type, payload => type.CanonicalForm payload
  | run type, payload => ∃ elements : List Bytes, Payload.Delimits payload elements.flatten ∧
      elements ≠ [] ∧ ∀ element ∈ elements, type.CanonicalForm element
  | message type, payload => Payload.Delimits payload [] ∨
      ∃ field : WireField, Payload.Delimits payload field.bytes ∧ field.Holds 1 type ∧
        ¬ Payload.IsZero field.payload
  | entries, payload => ∃ key, Entry.CanonicalForm payload key
  | alternative type, payload => type.CanonicalForm payload

/-- Whether some fields are all those of a number. -/
structure Segment (shape : Shape) (number : Nat) (fields : List WireField) : Prop where
  /-- They have this number, and the framing of the shape. -/
  heads : ∀ field ∈ fields, field.Heads number shape.wireType
  /-- Their payloads are of the shape. -/
  admits : ∀ field ∈ fields, shape.Admits field.payload
  /-- What is not repeated is given once. -/
  once : shape.repeats = false → fields.length ≤ 1
  /-- The keys of a map strictly increase, in the order of their bytes. -/
  increasing : shape = entries → ∃ keyed : List (WireField × Bytes), keyed.map Prod.fst = fields ∧
    (keyed.map Prod.snd).Pairwise (· < ·) ∧
    ∀ entry ∈ keyed, Entry.CanonicalForm entry.1.payload entry.2

end Shape

namespace FooBar.Example1

/-- The shape of the fields of a number, if it is one of the example. -/
def shape? : (number : Nat) → Option Shape
  | 1 => some (.single .double)
  | 2 => some (.single .float)
  | 3 => some (.single .int32)
  | 4 => some (.single .int64)
  | 5 => some (.single .uint32)
  | 6 => some (.single .uint64)
  | 7 => some (.single .sint32)
  | 8 => some (.single .sint64)
  | 9 => some (.single .fixed32)
  | 10 => some (.single .fixed64)
  | 11 => some (.single .sfixed32)
  | 12 => some (.single .sfixed64)
  | 13 => some (.single .bool)
  | 14 => some (.single .string)
  | 15 => some (.single .bytes)
  | 16 => some (.single .int32)
  | 17 => some (.single .int32)
  | 18 => some (.single .int32)
  | 19 => some (.elements .string)
  | 20 => some (.run .int64)
  | 21 => some (.message .string)
  | 22 => some (.message .int32)
  | 23 => some (.message .int32)
  | 24 => some .entries
  | 50 => some (.single .int64)
  | 60 => some (.alternative .string)
  | 61 => some (.alternative .int32)
  | _ => none

/-- Whether bytes are these fields, and the fields are a message in canonical form. -/
structure CanonicalForm (fields : List WireField) (bytes : Bytes) : Prop where
  /-- The bytes are the fields. -/
  joined : WireField.join fields = bytes
  /-- Only the numbers of the example occur. -/
  known : ∀ field ∈ fields, (shape? field.number).isSome
  /-- Numbers do not decrease. -/
  ordered : fields.Pairwise fun one other => one.number ≤ other.number
  /-- The fields of every number are as its shape says. -/
  shaped : ∀ number shape, shape? number = some shape →
    shape.Segment number (fields.filter fun field => field.number == number)
  /-- At most one case of the choice is given. -/
  chosen : ¬ ((∃ field ∈ fields, field.number = 60) ∧ ∃ field ∈ fields, field.number = 61)

end FooBar.Example1

end Protobuf

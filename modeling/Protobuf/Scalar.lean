/-
**The fifteen scalar types.**

A `ScalarType` fixes the values of a field, their framing, their default, and how they are read and
written:

* `int32` and `int64` travel as the 64-bit two's complement of the number, so that a negative one
  always takes ten bytes; a 32-bit reader keeps the low half of whatever varint it meets;
* `sint32` and `sint64` travel folded (`ZigZag`), at their own width;
* any varint but zero is `true`;
* fixed-width values travel little-endian, floats by their bits;
* `bytes` and `string` are length-delimited, a string being checked after its payload is consumed.

`ScalarType.read_consuming` says that a value is never read off no bytes at all.
-/

import Protobuf.Payload
import Protobuf.ZigZag
import Protobuf.Binary

namespace Protobuf

/-- The type of a scalar field. -/
inductive ScalarType where
  | uint64 | int64 | uint32 | int32 | sint32 | sint64 | bool
  | fixed32 | sfixed32 | float | fixed64 | sfixed64 | double
  | bytes | string
  deriving DecidableEq, Repr

namespace ScalarType

/-- The values of a scalar type. -/
abbrev Value : ScalarType → Type
  | uint64 => UInt64
  | int64 => Int64
  | uint32 => UInt32
  | int32 => Int32
  | sint32 => Int32
  | sint64 => Int64
  | bool => Bool
  | fixed32 => UInt32
  | sfixed32 => Int32
  | float => Binary32
  | fixed64 => UInt64
  | sfixed64 => Int64
  | double => Binary64
  | bytes => Bytes
  | string => String

instance (type : ScalarType) : DecidableEq type.Value := by
  cases type <;> infer_instance

/-- The framing of a scalar type. -/
def wireType : ScalarType → WireType
  | uint64 | int64 | uint32 | int32 | sint32 | sint64 | bool => .varint
  | fixed32 | sfixed32 | float => .fixed32
  | fixed64 | sfixed64 | double => .fixed64
  | bytes | string => .lengthDelimited

/-- The value of a field that is not on the wire. -/
def default : (type : ScalarType) → type.Value
  | uint64 => (0 : UInt64)
  | int64 => (0 : Int64)
  | uint32 => (0 : UInt32)
  | int32 => (0 : Int32)
  | sint32 => (0 : Int32)
  | sint64 => (0 : Int64)
  | bool => false
  | fixed32 => (0 : UInt32)
  | sfixed32 => (0 : Int32)
  | float => (⟨0⟩ : Binary32)
  | fixed64 => (0 : UInt64)
  | sfixed64 => (0 : Int64)
  | double => (⟨0⟩ : Binary64)
  | bytes => ([] : Bytes)
  | string => ""

/-- Reads the payload of a string. -/
def readString : Reader String := do
  let payload ← Payload.read
  Reader.ofExcept ((Utf8.decode payload).mapError .invalidUtf8)

/-- Reads the payload of a field. -/
def read : (type : ScalarType) → Reader type.Value
  | uint64 => UInt64.ofNat <$> Varint.read 64
  | int64 => Int64.ofNat <$> Varint.read 64
  | uint32 => UInt32.ofNat <$> Varint.read 64
  | int32 => Int32.ofNat <$> Varint.read 64
  | sint32 => (fun raw => ZigZag.decode32 (UInt32.ofNat raw)) <$> Varint.read 64
  | sint64 => (fun raw => ZigZag.decode64 (UInt64.ofNat raw)) <$> Varint.read 64
  | bool => (fun raw => decide (raw ≠ 0)) <$> Varint.read 64
  | fixed32 => UInt32.ofNat <$> Payload.readFixed 4
  | sfixed32 => Int32.ofNat <$> Payload.readFixed 4
  | float => (fun raw => Binary32.mk (UInt32.ofNat raw)) <$> Payload.readFixed 4
  | fixed64 => UInt64.ofNat <$> Payload.readFixed 8
  | sfixed64 => Int64.ofNat <$> Payload.readFixed 8
  | double => (fun raw => Binary64.mk (UInt64.ofNat raw)) <$> Payload.readFixed 8
  | bytes => Payload.read
  | string => readString

/-- The payload of a field. -/
def encode : (type : ScalarType) → type.Value → Bytes
  | uint64, value => Varint.encode (UInt64.toNat value)
  | int64, value => Varint.encode (Int64.toUInt64 value).toNat
  | uint32, value => Varint.encode (UInt32.toNat value)
  | int32, value => Varint.encode (Int32.toInt64 value).toUInt64.toNat
  | sint32, value => Varint.encode (ZigZag.encode32 value).toNat
  | sint64, value => Varint.encode (ZigZag.encode64 value).toNat
  | bool, value => Varint.encode (Bool.toNat value)
  | fixed32, value => Bytes.littleEndian 4 (UInt32.toNat value)
  | sfixed32, value => Bytes.littleEndian 4 (Int32.toUInt32 value).toNat
  | float, value => Bytes.littleEndian 4 (Binary32.bits value).toNat
  | fixed64, value => Bytes.littleEndian 8 (UInt64.toNat value)
  | sfixed64, value => Bytes.littleEndian 8 (Int64.toUInt64 value).toNat
  | double, value => Bytes.littleEndian 8 (Binary64.bits value).toNat
  | bytes, value => Payload.encode value
  | string, value => Payload.encode (Utf8.encode value)

/-- The length-delimited payloads of a value: its bytes, if it has any. -/
def payloads : (type : ScalarType) → type.Value → List Bytes
  | bytes, value => [value]
  | string, value => [Utf8.encode value]
  | _, _ => []

/-- What holds of the readers of payloads, and of a reader whose value is changed if it holds of the
reader, holds of the reader of any type. -/
theorem read_induction {P : {α : Type} → Reader α → Prop}
    (map : ∀ {α β : Type} {reader : Reader α} (change : α → β), P reader → P (change <$> reader))
    (varint : P (Varint.read 64)) (fixed32 : P (Payload.readFixed 4))
    (fixed64 : P (Payload.readFixed 8)) (payload : P Payload.read) (text : P readString)
    (type : ScalarType) : P type.read := by
  cases type with
  | uint64 => exact map _ varint
  | int64 => exact map _ varint
  | uint32 => exact map _ varint
  | int32 => exact map _ varint
  | sint32 => exact map _ varint
  | sint64 => exact map _ varint
  | bool => exact map _ varint
  | fixed32 => exact map _ fixed32
  | sfixed32 => exact map _ fixed32
  | float => exact map _ fixed32
  | fixed64 => exact map _ fixed64
  | sfixed64 => exact map _ fixed64
  | double => exact map _ fixed64
  | bytes => exact payload
  | string => exact text

theorem read_consuming (type : ScalarType) : type.read.Consuming :=
  type.read_induction (P := Reader.Consuming) (fun change consuming => consuming.map change)
    (Varint.read_consuming 64) (Payload.readFixed_consuming (by decide))
    (Payload.readFixed_consuming (by decide)) Payload.read_consuming
    (Payload.read_consuming.bind fun _ => .ofExcept _)

end ScalarType

/-- A scalar value with its type. -/
structure Scalar where
  /-- How the value is read and written. -/
  type : ScalarType
  /-- The value. -/
  value : type.Value

namespace Scalar

/-- The payload of a scalar. -/
def encode (scalar : Scalar) : Bytes := scalar.type.encode scalar.value

/-- A whole field: its tag and its payload. -/
def field (number : Nat) (scalar : Scalar) : Bytes :=
  Tag.encode number scalar.type.wireType ++ scalar.encode

end Scalar

end Protobuf

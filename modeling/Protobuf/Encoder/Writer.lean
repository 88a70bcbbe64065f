/-
**Writing step by step.**

A `Writer` does something to an encoder, one step after the other. It may stop between two steps, and then
leaves the encoder as the steps before made it: what a write that stops leaves behind is decided by the order
of its steps.

* `Writer.reserve`, `Writer.put`: the two steps there are, setting storage aside and filling it;
* `Writer.tag`, `Writer.payload`: the two checks there are, on field numbers and on lengths;
* `Writer.scalar`, `Writer.field`, `Writer.packed`, `Writer.entry`: what they make up;
* `Writer.nested`: a field that is built in an encoder of its own. Only when that is complete is anything
  done to the encoder that the field is for.
-/

import Protobuf.Encoder

namespace Protobuf

namespace Encoder

/-- Why writing stops. -/
inductive Stop where
  /-- A field number is refused. -/
  | refused (refusal : Refusal)
  /-- A payload is longer than any payload may be. -/
  | tooLong (length : Nat)
  deriving DecidableEq, Repr

/-- The text of a stop. -/
def Stop.message : Stop → String
  | refused refusal => refusal.message
  | tooLong _ => "length-delimited payload exceeds 2 GiB"

end Encoder

/-- Does something to an encoder, and may stop part way. -/
abbrev Writer := EStateM Encoder.Stop Encoder Unit

namespace Writer

/-- The encoder that a writer leaves, whether it stops or not. -/
def after (writer : Writer) (encoder : Encoder) : Encoder :=
  match writer encoder with
  | .ok _ left => left
  | .error _ left => left

/-- Sets storage aside for so many more bytes. -/
def reserve (additional : Nat) : Writer := modify (Encoder.reserve additional)

/-- Puts some bytes behind those written so far. -/
def put (chunk : Bytes) : Writer :=
  modify fun encoder => { encoder with bytes := encoder.bytes ++ chunk }

/-- Writes a number in base 128. -/
def varint (n : Nat) : Writer := do
  reserve (Varint.size n)
  put (Varint.encode n)

/-- Writes a number of so many bytes. -/
def fixed (width n : Nat) : Writer := do
  reserve width
  put (Bytes.littleEndian width n)

/-- Writes a tag, unless its field number is refused. -/
def tag (number : Nat) (wire : WireType) : Writer :=
  if 1 ≤ number ∧ number ≤ maxFieldNumber then varint (Tag.raw number wire)
  else throw (.refused ⟨number⟩)

/-- Writes a length-delimited payload, unless it is too long. -/
def payload (content : Bytes) : Writer :=
  if maxLength < content.length then throw (.tooLong content.length)
  else do
    varint content.length
    reserve content.length
    put content

/-- Writes the payload of a scalar. -/
def scalar : Scalar → Writer
  | ⟨.uint64, value⟩ => varint (UInt64.toNat value)
  | ⟨.int64, value⟩ => varint (Int64.toUInt64 value).toNat
  | ⟨.uint32, value⟩ => varint (UInt32.toNat value)
  | ⟨.int32, value⟩ => varint (Int32.toInt64 value).toUInt64.toNat
  | ⟨.sint32, value⟩ => varint (ZigZag.encode32 value).toNat
  | ⟨.sint64, value⟩ => varint (ZigZag.encode64 value).toNat
  | ⟨.bool, value⟩ => varint (Bool.toNat value)
  | ⟨.fixed32, value⟩ => fixed 4 (UInt32.toNat value)
  | ⟨.sfixed32, value⟩ => fixed 4 (Int32.toUInt32 value).toNat
  | ⟨.float, value⟩ => fixed 4 (Binary32.bits value).toNat
  | ⟨.fixed64, value⟩ => fixed 8 (UInt64.toNat value)
  | ⟨.sfixed64, value⟩ => fixed 8 (Int64.toUInt64 value).toNat
  | ⟨.double, value⟩ => fixed 8 (Binary64.bits value).toNat
  | ⟨.bytes, value⟩ => payload value
  | ⟨.string, value⟩ => payload (Utf8.encode value)

/-- Writes a field that holds a scalar. -/
def field (number : Nat) (content : Scalar) : Writer := do
  tag number content.type.wireType
  scalar content

/-- Writes a field that holds what was written to another encoder. -/
def splice (number : Nat) (child : Encoder) : Writer := do
  tag number .lengthDelimited
  payload child.bytes

/-- Writes a field that is built in a fresh encoder, which is gone if building stops. -/
def nested (number : Nat) (build : Writer) : Writer := fun encoder =>
  match build {} with
  | .ok _ child => splice number child encoder
  | .error stop _ => .error stop encoder

/-- Writes a field that holds values in one packed run; nothing at all if there are none. -/
def packed (number : Nat) (type : ScalarType) (values : List type.Value) : Writer :=
  if values = [] then pure ()
  else nested number (values.forM fun value => scalar ⟨type, value⟩)

/-- Writes a field that holds a map entry, each member being optional. -/
def entry (number : Nat) (key value : Option Scalar) : Writer :=
  nested number do
    key.elim (pure ()) (field Entry.keyNumber)
    value.elim (pure ()) (field Entry.valueNumber)

end Writer

end Protobuf

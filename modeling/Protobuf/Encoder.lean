/-
**Encoders: growing buffers.**

An `Encoder` is the bytes written so far and the storage set aside for them. Storage grows only when
a write does not fit: from at least `initialCapacity` it doubles until the write fits, and it never
grows to less than twice what it was.

* `writeScalar`, `writeTag`, `writePayload`: the pieces of a field;
* `splice`: a whole length-delimited field built beforehand;
* `Write`: everything that can be written, `Encoder.write` writing it.

A field number outside `1 … maxFieldNumber` is refused (`Refusal`) before anything is written.
-/

import Protobuf.MessageType

namespace Protobuf

/-- The storage a fresh encoder sets aside. -/
def initialCapacity : Nat := 64

/-- A field number that no tag can carry. -/
structure Refusal where
  /-- The field number. -/
  number : Nat
  deriving DecidableEq, Repr

/-- The text of a refusal. -/
def Refusal.message (refusal : Refusal) : String :=
  s!"field number {refusal.number} out of range"

/-- A growing buffer. -/
structure Encoder where
  /-- The bytes written so far. -/
  bytes : Bytes := []
  /-- The number of bytes set aside. -/
  capacity : Nat := initialCapacity
  deriving DecidableEq, Repr

namespace Encoder

/-- The number of bytes written so far. -/
def size (encoder : Encoder) : Nat := encoder.bytes.length

/-- Whether nothing is written yet. -/
def isEmpty (encoder : Encoder) : Bool := encoder.bytes.isEmpty

/-- Doubles a capacity until it covers a need. -/
def doubled (capacity needed : Nat) : Nat :=
  if 0 < capacity ∧ capacity < needed then doubled (2 * capacity) needed else capacity
termination_by needed - capacity

/-- The capacity that follows one that does not cover a need. -/
def grown (capacity needed : Nat) : Nat :=
  max (2 * capacity) (doubled (max capacity initialCapacity) needed)

/-- Sets storage aside for so many more bytes. -/
def reserve (additional : Nat) (encoder : Encoder) : Encoder :=
  if encoder.size + additional ≤ encoder.capacity then encoder
  else { encoder with capacity := grown encoder.capacity (encoder.size + additional) }

/-- Appends some bytes under one reservation. -/
def append (chunk : Bytes) (encoder : Encoder) : Encoder :=
  let encoder := encoder.reserve chunk.length
  { encoder with bytes := encoder.bytes ++ chunk }

/-- Writes a length-delimited payload, the length and the bytes under a reservation each. -/
def writePayload (payload : Bytes) (encoder : Encoder) : Encoder :=
  (encoder.append (Varint.encode payload.length)).append payload

/-- Writes the payload of a scalar. -/
def writeScalar (scalar : Scalar) (encoder : Encoder) : Encoder :=
  match scalar with
  | ⟨.bytes, payload⟩ => encoder.writePayload payload
  | ⟨.string, text⟩ => encoder.writePayload (Utf8.encode text)
  | scalar => encoder.append scalar.encode

/-- Writes a tag, unless its field number is refused. -/
def writeTag (number : Nat) (wire : WireType) (encoder : Encoder) : Except Refusal Encoder :=
  if 1 ≤ number ∧ number ≤ maxFieldNumber then .ok (encoder.append (Tag.encode number wire))
  else .error ⟨number⟩

/-- Writes a length-delimited field. -/
def splice (number : Nat) (payload : Bytes) (encoder : Encoder) : Except Refusal Encoder := do
  let encoder ← encoder.writeTag number .lengthDelimited
  return encoder.writePayload payload

/-- Everything that can be written to an encoder. -/
inductive Write where
  /-- The payload of a scalar. -/
  | scalar (scalar : Scalar)
  /-- A tag. -/
  | tag (number : Nat) (wire : WireType)
  /-- A field that holds values in one packed run; nothing at all if there are none. -/
  | packed (number : Nat) (type : ScalarType) (values : List type.Value)
  /-- A field that holds a map entry, each member being optional. -/
  | entry (number : Nat) (key value : Option Scalar)
  /-- A field that holds a message. -/
  | message (number : Nat) (type : MessageType) (message : type.Value)
  /-- A field that holds what was written to another encoder. -/
  | child (number : Nat) (child : Encoder)

/-- Writes one thing, unless its field number is refused. -/
def write (encoder : Encoder) : Write → Except Refusal Encoder
  | .scalar scalar => .ok (encoder.writeScalar scalar)
  | .tag number wire => encoder.writeTag number wire
  | .packed number type values =>
    if values = [] then .ok encoder else encoder.splice number (values.flatMap type.encode)
  | .entry number key value => encoder.splice number (Entry.encode key value)
  | .message number _ message => encoder.splice number (Message.encode message)
  | .child number child => encoder.splice number child.bytes

end Encoder

end Protobuf

/-
**Fields on the wire.**

The fields of a byte string are told apart by whoever reads it: where a payload ends depends on how
the message type reads it. A `WireField` is one of them as it lies there.

* `WireField.bytes`, `WireField.join`: the bytes of a field, and of fields one behind the other;
* `WireField.ends`: the offsets at which some fields end;
* `Message.wireFields`: the fields of a byte string as a message type reads them, up to the first
  fault.
-/

import Protobuf.Message

namespace Protobuf

namespace Reader

variable {α : Type} {reader : Reader α}

/-- Reads a value together with the bytes that it is read off. -/
def withBytes (reader : Reader α) : Reader (Bytes × α) := do
  let bytes ← get
  let value ← reader
  let unread ← get
  return (bytes.take (bytes.length - unread.length), value)

theorem withBytes_eq_ok {bytes unread : Bytes} {item : Bytes × α} :
    reader.withBytes bytes = .ok item unread ↔
      item.1 = bytes.take (bytes.length - unread.length) ∧ reader bytes = .ok item.2 unread := by
  simp only [withBytes, bind_eq_ok, get_eq_ok, pure_eq_ok]
  constructor
  · rintro ⟨_, _, ⟨rfl, rfl⟩, value, between, taken, _, _, ⟨rfl, rfl⟩, rfl, rfl⟩
    exact ⟨rfl, taken⟩
  · rintro ⟨same, taken⟩
    exact ⟨_, _, ⟨rfl, rfl⟩, _, _, taken, _, _, ⟨rfl, rfl⟩, Prod.ext same.symm rfl, rfl⟩

theorem Bounded.withBytes (bounded : reader.Bounded) : reader.withBytes.Bounded :=
  fun _ _ _ taken => bounded (withBytes_eq_ok.mp taken).2

theorem Consuming.withBytes (consuming : reader.Consuming) : reader.withBytes.Consuming :=
  fun _ _ _ taken => consuming (withBytes_eq_ok.mp taken).2

end Reader

/-- A field as it lies on the wire. -/
structure WireField where
  /-- The bytes of its tag. -/
  head : Bytes
  /-- The tag that they spell. -/
  tag : Tag
  /-- The bytes behind the tag. -/
  payload : Bytes
  deriving DecidableEq, Repr

namespace WireField

/-- The number of a field. -/
def number (field : WireField) : Nat := field.tag.number

/-- The bytes of a field. -/
def bytes (field : WireField) : Bytes := field.head ++ field.payload

/-- The bytes of some fields, in order. -/
def join (fields : List WireField) : Bytes := fields.flatMap bytes

/-- The offsets at which some fields end, the first of which begins at `start`. -/
def ends (start : Nat) : List WireField → List Nat
  | [] => []
  | field :: fields =>
    (start + field.bytes.length) :: ends (start + field.bytes.length) fields

@[simp] theorem join_nil : join [] = [] := rfl

@[simp] theorem join_cons (field : WireField) (fields : List WireField) :
    join (field :: fields) = field.bytes ++ join fields := rfl

end WireField

namespace Message

/-- Reads one field and keeps its bytes. -/
def wireField (M : Type) [Message M] : Reader WireField := do
  let (head, tag) ← Tag.read.withBytes
  let (body, _) ← (payload tag : Scanner (Edit M)).collect.withBytes
  return ⟨head, tag, body⟩

theorem wireField_consuming (M : Type) [Message M] : (wireField M).Consuming := by
  refine Tag.read_consuming.withBytes.bind fun ⟨_, tag⟩ => ?_
  exact (Scanner.collect_bounded (payload_bounded tag)).withBytes.bind fun _ => .pure _

/-- The fields of a byte string, up to the first fault. -/
def wireFields (M : Type) [Message M] (bytes : Bytes) : List WireField :=
  (Scanner.untilEnd (Scanner.ofReader (wireField M))
    (Scanner.ofReader_consuming (wireField_consuming M)) bytes).items

end Message

end Protobuf

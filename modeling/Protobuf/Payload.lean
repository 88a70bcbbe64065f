/-
**Payloads.**

A length-delimited payload is a varint length and as many bytes, never more than `maxLength`.

* `Payload.read`, `Payload.encode`: one such payload;
* `Payload.skip`: any payload, by its framing alone. It stops where the reader of that framing
  stops, and an unknown framing consumes nothing.
-/

import Protobuf.Tag

namespace Protobuf

/-- The most bytes a length-delimited payload may have. -/
def maxLength : Nat := 0x7FFFFFFF

namespace Payload

/-- Reads a length that the bytes after it can honour; a failure consumes the length alone. -/
def readLength : Reader Nat := do
  let length ← Varint.read 64
  if maxLength < length then throw (.malformedLength length)
  Reader.atLeast length
  return length

/-- Reads a length-delimited payload. -/
def read : Reader Bytes := do
  let length ← readLength
  Reader.take length

/-- A length-delimited payload. -/
def encode (payload : Bytes) : Bytes := Varint.encode payload.length ++ payload

/-- Reads a little-endian number of so many bytes; a failure consumes nothing. -/
def readFixed (width : Nat) : Reader Nat := do
  let bytes ← Reader.exactly width
  return Bytes.ofLittleEndian bytes

/-- Passes over so many bytes; a failure consumes nothing. -/
def discard (count : Nat) : Reader Unit := do
  Reader.atLeast count
  let _ ← Reader.take count

/-- Passes over one payload of the given framing. -/
def skip (wire : Nat) : Reader Unit := do
  match ← Reader.ofExcept (WireType.ofId wire) with
  | .varint => let _ ← Varint.read 64
  | .fixed64 => discard 8
  | .lengthDelimited =>
    let length ← readLength
    let _ ← Reader.take length
  | .fixed32 => discard 4

/-! ### Progress -/

theorem readLength_consuming : readLength.Consuming := by
  refine (Varint.read_consuming 64).bind fun length => ?_
  split
  · intro bytes value unread taken
    cases taken
  · exact (Reader.Bounded.pure PUnit.unit).bind fun _ =>
      (Reader.atLeast_bounded length).bind fun _ => .pure _

theorem read_consuming : read.Consuming :=
  readLength_consuming.bind fun _ => Reader.take_bounded _

theorem readFixed_consuming {width : Nat} (positive : 0 < width) : (readFixed width).Consuming :=
  (Reader.exactly_consuming positive).bind fun _ => .pure _

theorem discard_consuming {count : Nat} (positive : 0 < count) : (discard count).Consuming := by
  intro bytes value unread taken
  obtain ⟨_, between, enough, rest⟩ := Reader.bind_eq_ok.mp taken
  obtain ⟨-, rfl⟩ := Reader.atLeast_eq_ok.mp enough
  exact (Reader.take_consuming positive).bind (fun _ => .pure _) rest

/-- A payload that can be skipped is not empty on the wire. -/
theorem skip_consuming (wire : Nat) : (skip wire).Consuming := by
  intro bytes value unread taken
  obtain ⟨known, between, one, two⟩ := Reader.bind_eq_ok.mp taken
  have bounded := Reader.Bounded.ofExcept _ one
  refine Nat.lt_of_lt_of_le ?_ bounded
  cases known with
  | varint => exact (Varint.read_consuming 64).bind (fun _ => .pure _) two
  | fixed64 => exact discard_consuming (by decide) two
  | lengthDelimited =>
    exact readLength_consuming.bind
      (fun _ => (Reader.take_bounded _).bind fun _ => .pure _) two
  | fixed32 => exact discard_consuming (by decide) two

end Payload

end Protobuf

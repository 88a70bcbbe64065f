/-
**Tags: the head of every field.**

A tag is one varint: the field number above three bits of framing. Four framings (`WireType`) are
known; a tag read from the wire keeps its three bits as they are, since an unknown framing does no
harm until its payload has to be skipped.

* `Tag.ofRaw`: the tag of a number, whose field number must be in `1 … maxFieldNumber`;
* `Tag.raw`: the number of a tag;
* `Tag.read`, `Tag.encode`: the same on bytes.
-/

import Protobuf.Varint

namespace Protobuf

/-- How the payload of a field is framed. -/
inductive WireType where
  /-- One varint. -/
  | varint
  /-- Eight bytes. -/
  | fixed64
  /-- A length, and as many bytes. -/
  | lengthDelimited
  /-- Four bytes. -/
  | fixed32
  deriving DecidableEq, Repr

namespace WireType

/-- The three bits that stand for a framing. -/
def id : WireType → Nat
  | varint => 0
  | fixed64 => 1
  | lengthDelimited => 2
  | fixed32 => 5

/-- The framing three bits stand for. -/
def ofId : Nat → Except Fault WireType
  | 0 => .ok varint
  | 1 => .ok fixed64
  | 2 => .ok lengthDelimited
  | 5 => .ok fixed32
  | other => .error (.unknownWireType other)

/-- The name of a framing. -/
def name : WireType → String
  | varint => "Varint"
  | fixed64 => "Fixed64"
  | lengthDelimited => "LengthDelimited"
  | fixed32 => "Fixed32"

theorem ofId_id (wire : WireType) : ofId wire.id = .ok wire := by
  cases wire <;> rfl

/-- Only the identifier of a framing is read as that framing. -/
theorem ofId_eq_ok {raw : Nat} {wire : WireType} : ofId raw = .ok wire ↔ raw = wire.id := by
  constructor
  · intro known
    unfold ofId at known
    split at known <;> cases known <;> rfl
  · rintro rfl
    exact ofId_id wire

end WireType

/-- The largest field number. -/
def maxFieldNumber : Nat := 0x1FFFFFFF

/-- The head of a field: its number, and the three bits of its framing as they were read. -/
structure Tag where
  /-- The number of the field. -/
  number : Nat
  /-- The three bits of its framing. -/
  wire : Nat
  deriving DecidableEq, Repr

namespace Tag

/-- The tag of a number, unless its field number is outside `1 … maxFieldNumber`. -/
def ofRaw (raw : Nat) : Except Fault Tag :=
  if raw / 8 = 0 ∨ maxFieldNumber < raw / 8 then .error (.invalidTag raw)
  else .ok ⟨raw / 8, raw % 8⟩

/-- The number of the tag of a field. -/
def raw (number : Nat) (wire : WireType) : Nat := number * 8 + wire.id

/-- Whether a tag announces a framing. -/
def has (tag : Tag) (wire : WireType) : Bool := tag.wire == wire.id

/-- Reads a tag. A number that is no tag is consumed all the same. -/
def read : Reader Tag := do
  let raw ← Varint.read 64
  Reader.ofExcept (ofRaw raw)

/-- The bytes of the tag of a field. -/
def encode (number : Nat) (wire : WireType) : Bytes := Varint.encode (raw number wire)

theorem read_consuming : read.Consuming :=
  (Varint.read_consuming 64).bind fun _ => .ofExcept _

end Tag

end Protobuf

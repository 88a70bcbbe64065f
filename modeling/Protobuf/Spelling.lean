/-
**How a number may be spelled, and when a field is complete.**

A varint has more than one spelling: groups of zero bits may follow its highest digit. Which fields are
complete can be said without reading them, and without knowing who reads them.

* `Varint.spelled`: the number that some bytes spell, each but the last with its high bit set;
* `Varint.Spells`, `Varint.Shortest`: a spelling of a number of 64 bits, and the shortest one;
* `Payload.Complete`, `WireField.Complete`: a whole payload under a framing, and a whole field;
* `Payload.Framed`: a field with a given payload, tag and length being spelled in any way.
-/

import Protobuf.WireField

namespace Protobuf

namespace Varint

/-- The number whose base-128 digits the bytes are, least significant first. -/
def spelled : Bytes → Option Nat
  | [] => none
  | byte :: rest =>
    if byte.toNat < 128 then if rest = [] then some byte.toNat else none
    else (spelled rest).map fun high => byte.toNat % 128 + 128 * high

/-- Whether bytes are a varint: a number of 64 bits in at most ten bytes. -/
structure Spells (bytes : Bytes) (n : Nat) : Prop where
  /-- Its digits. -/
  digits : spelled bytes = some n
  /-- The number has at most 64 bits. -/
  fits : n < UInt64.size
  /-- No spelling is longer. -/
  short : bytes.length ≤ 10

/-- Whether bytes are the shortest spelling of a number. -/
structure Shortest (bytes : Bytes) (n : Nat) : Prop where
  /-- They spell it. -/
  spells : Spells bytes n
  /-- Others that do so are no shorter. -/
  least : ∀ other, Spells other n → bytes.length ≤ other.length

end Varint

/-- Whether bytes are one payload under a framing. -/
def Payload.Complete (payload : Bytes) : WireType → Prop
  | .varint => ∃ n, Varint.Spells payload n
  | .fixed64 => payload.length = 8
  | .lengthDelimited => ∃ head content, payload = head ++ content ∧
      Varint.Spells head content.length ∧ content.length ≤ maxLength
  | .fixed32 => payload.length = 4

/-- Whether a field is complete: a tag in any spelling, and one payload under its framing. -/
structure WireField.Complete (field : WireField) : Prop where
  /-- Field numbers start at one. -/
  least : 1 ≤ field.number
  /-- A tag can carry the number. -/
  most : field.number ≤ maxFieldNumber
  /-- The tag and the payload have the same framing. -/
  framed : ∃ wire : WireType, field.tag.wire = wire.id ∧
    Varint.Spells field.head (Tag.raw field.number wire) ∧ Payload.Complete field.payload wire

/-- Whether bytes are a field with a length before its payload. What embeds a message or holds an entry
of a map does not look at the framing bits, so that they may be any. -/
def Payload.Framed (number : Nat) (payload bytes : Bytes) : Prop :=
  ∃ wire head length, wire < 8 ∧ Varint.Spells head (number * 8 + wire) ∧
    Varint.Spells length payload.length ∧ bytes = head ++ (length ++ payload)

end Protobuf

/-
**Map entries.**

An entry of a map is a payload with two fields, the key under number 1 and the value under number 2.

* `Entry.read`: the last key and the last value of the next payload, each its default if there is
  none. Other fields are skipped. A fault inside consumes the whole payload;
* `Entry.encode`: the payload of an entry, each member being optional.
-/

import Protobuf.Scan
import Protobuf.Scalar

namespace Protobuf.Entry

/-- The field number of the key of an entry. -/
def keyNumber : Nat := 1

/-- The field number of the value of an entry. -/
def valueNumber : Nat := 2

variable (key value : ScalarType)

/-- Reads one field of an entry, its tag being read. -/
def member (tag : Tag) : Scanner (Edit (key.Value × value.Value)) :=
  if tag.number = keyNumber then
    (Scanner.ofReader key.read).map fun read entry => (read, entry.2)
  else if tag.number = valueNumber then
    (Scanner.ofReader value.read).map fun read entry => (entry.1, read)
  else Scanner.silent (Payload.skip tag.wire)

theorem member_consuming (tag : Tag) : (member key value tag).Consuming := by
  unfold member
  split
  · exact (Scanner.ofReader_consuming key.read_consuming).map _
  · split
    · exact (Scanner.ofReader_consuming value.read_consuming).map _
    · exact Scanner.silent_consuming (Payload.skip_consuming tag.wire)

/-- Reads one whole field of an entry. -/
def field : Scanner (Edit (key.Value × value.Value)) :=
  Scanner.after Tag.read (member key value)

theorem field_consuming : (field key value).Consuming :=
  Scanner.after_consuming Tag.read_consuming fun tag => (member_consuming key value tag).bounded

/-- Reads all fields of an entry. -/
def body : Scanner (Edit (key.Value × value.Value)) :=
  Scanner.untilEnd (field key value) (field_consuming key value)

/-- Reads the next payload as an entry. -/
def read : Reader (key.Value × value.Value) := fun bytes =>
  let scan := Scanner.within (body key value) bytes
  match scan.fault with
  | none => .ok (scan.apply (key.default, value.default)) scan.unread
  | some fault => .error fault scan.unread

theorem read_consuming : (read key value).Consuming := by
  intro bytes entry unread taken
  unfold read at taken
  dsimp only at taken
  split at taken
  · next ended =>
    cases taken
    exact Scanner.within_consuming _ ended
  · cases taken

/-- The payload of an entry whose members may be left out. -/
def encode (key value : Option Scalar) : Bytes :=
  (key.elim [] (Scalar.field keyNumber)) ++ (value.elim [] (Scalar.field valueNumber))

end Protobuf.Entry

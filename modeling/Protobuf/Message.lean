/-
**Messages.**

A `Message` is a type whose values are merged from fields and written as fields.

* `Message.scan`: the edits a byte string makes, field by field. A scalar is replaced, a list is
  appended to, an embedded message is merged into; an undeclared field makes no edit;
* `Message.merge`: makes these edits in a given message, up to the first fault;
* `Message.decode`: the message the bytes make of the empty one, or the fault;
* `Message.encode`: the fields of a message;
* `Message.overlay`: the message that two messages make, member by member;
* `Message.Fits`, `Message.IsCanonical`: what a message needs for its fields to be read back.

The edits do not depend on the message they are made in.
-/

import Protobuf.Scan

namespace Protobuf

/-- A type of structured values with a wire format. -/
class Message (M : Type) where
  /-- The message no field of which is set. -/
  empty : M
  /-- Reads the payload of the field under a tag. -/
  payload : Tag → Scanner (Edit M)
  /-- Reading a payload never gives bytes back. -/
  payload_bounded : ∀ tag, (payload tag).Bounded
  /-- The fields of a message, in the order they are written. -/
  encode : M → Bytes
  /-- The length-delimited payloads among these fields, at every depth. -/
  payloads : M → List Bytes
  /-- Whether every value of an open enumeration, at every depth, is what its own number stands for. -/
  IsCanonical : M → Prop
  /-- An earlier message with the members of a later one laid over it. -/
  overlay : (earlier later : M) → M

/-- A message and the fault that stopped it from being completed. -/
structure Merged (M : Type) where
  /-- The message, with every edit made before the fault. -/
  message : M
  /-- What stopped the merge, if anything did. -/
  fault : Option Fault

namespace Message

variable {M : Type} [Message M]

/-- Whether every payload is one that may be written. -/
def Fits (message : M) : Prop := ∀ payload ∈ payloads message, payload.length ≤ maxLength

instance (message : M) : Decidable (Fits message) :=
  inferInstanceAs (Decidable (∀ payload ∈ payloads message, payload.length ≤ maxLength))

/-- Reads one whole field. -/
def field (M : Type) [Message M] : Scanner (Edit M) := Scanner.after Tag.read payload

theorem field_consuming (M : Type) [Message M] : (field M).Consuming :=
  Scanner.after_consuming Tag.read_consuming payload_bounded

/-- Reads all fields of a span. -/
def scan (M : Type) [Message M] : Scanner (Edit M) :=
  Scanner.untilEnd (field M) (field_consuming M)

/-- Merges the fields of a byte string into a message. -/
def merge (bytes : Bytes) (target : M) : Merged M :=
  let scan := scan M bytes
  ⟨scan.apply target, scan.fault⟩

/-- The message that has the fields of a byte string. -/
def decode (bytes : Bytes) : Except Fault M :=
  let merged := merge bytes (empty : M)
  match merged.fault with
  | none => .ok merged.message
  | some fault => .error fault

end Message

end Protobuf

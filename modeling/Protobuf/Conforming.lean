/-
**Bytes that conform to a table of fields.**

A table says how each of its fields is to be framed. Where the framing is as it says, the fields of a
byte string can be found by their framing alone or be read by their rows.

* `Extent.tags`: the tags that are met by framing alone;
* `Extent.payload?`: the length-delimited payload of a field;
* `Kind.Declares`, `Kind.Accepts`: the framings of a row, and the length-delimited payloads that are
  read without a fault;
* `Message.Conforms`: every tag that is met and has a row is framed as the row says;
* `Message.located`: the fields as their rows read them, each with its extent and its edits.
-/

import Protobuf.Extent
import Protobuf.Field

namespace Protobuf

/-- The length-delimited payload that some bytes begin with, if that is their framing. -/
def Payload.delimited? (wire : Nat) (bytes : Bytes) : Option Bytes :=
  if wire = WireType.lengthDelimited.id then
    match read bytes with
    | .ok payload _ => some payload
    | .error _ _ => none
  else none

namespace Extent

/-- Meets a tag and passes over its payload. A tag is met even if its payload cannot be skipped. -/
def meet : Scanner Tag :=
  Scanner.after Tag.read fun tag bytes =>
    (Scanner.silent (Payload.skip tag.wire) bytes).prepend [tag]

theorem meet_consuming : meet.Consuming := by
  refine Scanner.after_consuming Tag.read_consuming fun tag => ?_
  intro bytes ended
  exact (Scanner.silent_consuming (Payload.skip_consuming tag.wire)).bounded ended

/-- The tags of the fields of a byte string, up to the first fault. -/
def tags (bytes : Bytes) : List Tag := (Scanner.untilEnd meet meet_consuming bytes).items

/-- The length-delimited payload of a field that lies in a byte string, if that is its framing. -/
def payload? (bytes : Bytes) (extent : Extent) : Option Bytes :=
  match Tag.read (bytes.drop extent.start) with
  | .ok tag payload => Payload.delimited? tag.wire payload
  | .error _ _ => none

end Extent

/-- Whether a payload is one of a scalar. -/
def ScalarType.Accepts : ScalarType → (payload : Bytes) → Prop
  | string, payload => ∃ text, Utf8.encode text = payload
  | _, _ => True

namespace Kind

/-- Whether framing bits are those of a field. -/
def Declares : {V : Type} → Kind V → (wire : Nat) → Prop
  | _, singular type, wire => wire = type.wireType.id
  | _, enumeration _, wire => wire = WireType.varint.id
  | _, repeated type, wire => wire = type.wireType.id ∨ wire = WireType.lengthDelimited.id
  | _, embedded _, wire => wire = WireType.lengthDelimited.id
  | _, textMap, wire => wire = WireType.lengthDelimited.id
  | _, alternative type _ _, wire => wire = type.wireType.id

instance : {V : Type} → (kind : Kind V) → (wire : Nat) → Decidable (kind.Declares wire)
  | _, singular type, wire => inferInstanceAs (Decidable (wire = type.wireType.id))
  | _, enumeration _, wire => inferInstanceAs (Decidable (wire = WireType.varint.id))
  | _, repeated type, wire =>
    inferInstanceAs (Decidable (wire = type.wireType.id ∨ wire = WireType.lengthDelimited.id))
  | _, embedded _, wire => inferInstanceAs (Decidable (wire = WireType.lengthDelimited.id))
  | _, textMap, wire => inferInstanceAs (Decidable (wire = WireType.lengthDelimited.id))
  | _, alternative type _ _, wire => inferInstanceAs (Decidable (wire = type.wireType.id))

/-- Whether a length-delimited payload is one of a field. -/
def Accepts : {V : Type} → Kind V → (payload : Bytes) → Prop
  | _, singular type, payload => type.Accepts payload
  | _, enumeration _, _ => True
  | _, repeated type, payload =>
    if type.wireType = .lengthDelimited then type.Accepts payload
    else ∃ elements : List Bytes, elements.flatten = payload ∧
      ∀ element ∈ elements, ∃ value, type.read element = .ok value []
  | _, embedded N, payload => ∃ message : N, Message.decode payload = .ok message
  | _, textMap, payload =>
    ∃ entry, Entry.read .string .string (Payload.encode payload) = .ok entry []
  | _, alternative type _ _, payload => type.Accepts payload

end Kind

namespace Message

variable {M : Type}

/-- Whether every field that is met and has a row is framed as the row says. -/
def Conforms (fields : List (Field M)) (bytes : Bytes) : Prop :=
  ∀ tag ∈ Extent.tags bytes, ∀ field ∈ fields, field.number = tag.number →
    field.kind.Declares tag.wire

instance (fields : List (Field M)) (bytes : Bytes) : Decidable (Conforms fields bytes) :=
  inferInstanceAs (Decidable (∀ tag ∈ Extent.tags bytes, ∀ field ∈ fields,
    field.number = tag.number → field.kind.Declares tag.wire))

variable [Message M]

/-- Reads one field with its extent, in a span of so many bytes. -/
def locate (M : Type) [Message M] (total : Nat) : Reader (Extent × List (Edit M)) := do
  let whole ← get
  let tag ← Tag.read
  let body ← get
  let edits ← (payload tag).collect
  let rest ← get
  return (⟨total - whole.length, tag, body.length - rest.length⟩, edits)

theorem locate_consuming (total : Nat) : (locate M total).Consuming := by
  intro bytes item unread taken
  refine Tag.read_consuming.bind (fun tag => ?_) taken
  intro body item unread taken
  exact (Scanner.collect_bounded (payload_bounded tag)).bind
    (fun _ _ _ _ last => by cases last; simp) taken

/-- The fields of a byte string with their extents, and the edits that each of them makes. -/
def located (M : Type) [Message M] (bytes : Bytes) : Scan (Extent × List (Edit M)) :=
  Scanner.untilEnd (Scanner.ofReader (locate M bytes.length))
    (Scanner.ofReader_consuming (locate_consuming bytes.length)) bytes

end Message

end Protobuf

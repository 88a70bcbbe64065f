/-
**Schemas: messages as tables of fields.**

The wire format of a message type is a list of `Field`s. Each names a member of the message by how
it is read off and set, and says by its `Kind` how the member is merged and written:

* `singular`, `enumeration`: the last occurrence wins; the default is not written;
* `repeated`: occurrences are appended, packed or not. Values of a length-delimited type are written
  one field each, others in one packed run;
* `embedded`: occurrences are merged into one message, which is there as soon as its tag is met;
* `textMap`: every occurrence sets one key; entries are written by increasing keys;
* `alternative`: one case of a choice. The last occurrence of any case wins; the chosen case is
  written even if its value is the default.

The framing bits of a tag matter to `repeated` members and to undeclared fields only. `ofFields`
makes a `Message` of a table: fields are found by number when they are read, and written in the
order of the table. `Kind.overlay` says what a later value of a member does to an earlier one, and a
table overlays messages row by row.
-/

import Protobuf.Message
import Protobuf.Repeated
import Protobuf.Entry
import Protobuf.TextMap
import Protobuf.OpenEnum

namespace Protobuf

/-- How a member with values in a type is merged and written. -/
inductive Kind : Type → Type 1 where
  /-- One scalar, the default being left out. -/
  | singular (type : ScalarType) : Kind type.Value
  /-- One value of an open enumeration, zero being left out. -/
  | enumeration (E : Type) [OpenEnum E] : Kind E
  /-- Any number of scalars. -/
  | repeated (type : ScalarType) : Kind (List type.Value)
  /-- A message, or none. -/
  | embedded (N : Type) [Message N] : Kind (Option N)
  /-- A map from strings to strings. -/
  | textMap : Kind TextMap
  /-- One case of a choice, or none: how its value becomes a choice, and which choices it is. -/
  | alternative (type : ScalarType) {C : Type} (choose : type.Value → C)
      (chosen : C → Option type.Value) : Kind (Option C)

namespace Kind

variable {V : Type}

/-- Reads the payload of one occurrence, given its framing bits. -/
def scan : {V : Type} → Kind V → (wire : Nat) → Scanner (Edit V)
  | _, singular type, _ => (Scanner.ofReader type.read).map fun value _ => value
  | _, enumeration _, _ =>
    (Scanner.ofReader (ScalarType.read .int32)).map fun number _ => OpenEnum.ofNumber number
  | _, repeated type, wire =>
    (Repeated.scan wire type.wireType type).map fun value values => values ++ [value]
  | _, embedded N, _ => fun bytes =>
    let merge : Edit N → Edit (Option N) := fun edit message => message.map edit
    let inner := (Scanner.within (Message.scan N) bytes).map merge
    { inner with items := (fun message => some (message.getD Message.empty)) :: inner.items }
  | _, textMap, _ =>
    (Scanner.ofReader (Entry.read .string .string)).map fun entry map => map.insert entry.1 entry.2
  | _, alternative type choose _, _ =>
    (Scanner.ofReader type.read).map fun value _ => some (choose value)

/-- The fields a member is written as. -/
def encode : {V : Type} → Kind V → (number : Nat) → V → Bytes
  | _, singular type, number, value =>
    if value = type.default then [] else Scalar.field number ⟨type, value⟩
  | _, enumeration _, number, value =>
    if OpenEnum.number value = 0 then [] else Scalar.field number ⟨.int32, OpenEnum.number value⟩
  | _, repeated type, number, values =>
    if type.wireType = .lengthDelimited then Repeated.unpacked number type values
    else Repeated.packed number type values
  | _, embedded _, number, message =>
    match message with
    | none => []
    | some message =>
      Tag.encode number .lengthDelimited ++ Payload.encode (Message.encode message)
  | _, textMap, number, map =>
    map.entries.flatMap fun entry =>
      Tag.encode number .lengthDelimited ++
        Payload.encode (Entry.encode (some ⟨.string, entry.1⟩) (some ⟨.string, entry.2⟩))
  | _, alternative type _ chosen, number, choice =>
    match choice.bind chosen with
    | none => []
    | some value => Scalar.field number ⟨type, value⟩

/-- The length-delimited payloads a member is written with. -/
def payloads : {V : Type} → Kind V → V → List Bytes
  | _, singular type, value => type.payloads value
  | _, enumeration _, _ => []
  | _, repeated type, values =>
    if type.wireType = .lengthDelimited then values.flatMap type.payloads
    else [values.flatMap type.encode]
  | _, embedded _, message =>
    match message with
    | none => []
    | some message => Message.encode message :: Message.payloads message
  | _, textMap, map =>
    map.entries.flatMap fun entry =>
      [Entry.encode (some ⟨.string, entry.1⟩) (some ⟨.string, entry.2⟩),
        Utf8.encode entry.1, Utf8.encode entry.2]
  | _, alternative type _ chosen, choice =>
    match choice.bind chosen with
    | none => []
    | some value => type.payloads value

/-- Whether the values of open enumerations in a member are what their own numbers stand for. -/
def IsCanonical : {V : Type} → Kind V → V → Prop
  | _, enumeration _, value => OpenEnum.IsCanonical value
  | _, embedded _, message => ∀ inner ∈ message, Message.IsCanonical inner
  | _, _, _ => True

/-- An earlier value of a member with a later one laid over it. -/
def overlay : {V : Type} → Kind V → (earlier later : V) → V
  | _, singular type, earlier, later => if later = type.default then earlier else later
  | _, enumeration _, earlier, later => if OpenEnum.number later = 0 then earlier else later
  | _, repeated _, earlier, later => earlier ++ later
  | _, embedded _, earlier, later => earlier.merge Message.overlay later
  | _, textMap, earlier, later => earlier.union later
  | _, alternative _ choose chosen, earlier, later =>
    match later.bind chosen with
    | none => earlier
    | some value => some (choose value)

theorem scan_consuming (kind : Kind V) (wire : Nat) : (kind.scan wire).Consuming := by
  cases kind with
  | singular type => exact (Scanner.ofReader_consuming type.read_consuming).map _
  | enumeration => exact (Scanner.ofReader_consuming (ScalarType.read_consuming _)).map _
  | repeated type => exact (Repeated.scan_consuming _ _ _).map _
  | embedded N => exact fun _ ended => Scanner.within_consuming (Message.scan N) ended
  | textMap => exact (Scanner.ofReader_consuming (Entry.read_consuming _ _)).map _
  | alternative type => exact (Scanner.ofReader_consuming type.read_consuming).map _

end Kind

/-- A row of the table of a message type. -/
structure Field (M : Type) where
  /-- The field number. -/
  number : Nat
  /-- The values of the member. -/
  {Value : Type}
  /-- How the member is merged and written. -/
  kind : Kind Value
  /-- The member of a message. -/
  get : M → Value
  /-- A message with the member replaced. -/
  set : Value → M → M

namespace Field

variable {M : Type}

/-- Changes the member of a message. -/
def update (field : Field M) (edit : Edit field.Value) : Edit M := fun message =>
  field.set (edit (field.get message)) message

/-- Reads the payload of one occurrence, given its framing bits. -/
def scan (field : Field M) (wire : Nat) : Scanner (Edit M) :=
  (field.kind.scan wire).map field.update

/-- The fields the member of a message is written as. -/
def encode (field : Field M) (message : M) : Bytes :=
  field.kind.encode field.number (field.get message)

/-- Lays the member of a later message over that of an earlier one. -/
def overlay (field : Field M) (later : M) : Edit M :=
  field.update fun earlier => field.kind.overlay earlier (field.get later)

theorem scan_consuming (field : Field M) (wire : Nat) : (field.scan wire).Consuming :=
  (field.kind.scan_consuming wire).map _

end Field

namespace Message

variable {M : Type}

/-- Reads the payload of the field under a tag; one that no row declares is skipped. -/
def payloadOf (fields : List (Field M)) (tag : Tag) : Scanner (Edit M) :=
  match fields.find? fun field => field.number == tag.number with
  | some field => field.scan tag.wire
  | none => Scanner.silent (Payload.skip tag.wire)

theorem payloadOf_consuming (fields : List (Field M)) (tag : Tag) :
    (payloadOf fields tag).Consuming := by
  unfold payloadOf
  split
  · exact Field.scan_consuming _ _
  · exact Scanner.silent_consuming (Payload.skip_consuming _)

/-- The wire format that a table of fields describes. -/
@[reducible] def ofFields (empty : M) (fields : List (Field M)) : Message M where
  empty := empty
  payload := payloadOf fields
  payload_bounded tag := (payloadOf_consuming fields tag).bounded
  encode message := fields.flatMap fun field => field.encode message
  payloads message := fields.flatMap fun field => field.kind.payloads (field.get message)
  IsCanonical message := ∀ field ∈ fields, field.kind.IsCanonical (field.get message)
  overlay earlier later := fields.foldl (fun message field => field.overlay later message) earlier

end Message

end Protobuf

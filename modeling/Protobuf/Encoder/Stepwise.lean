/-
**Messages step by step.**

The steps that write a message follow its table: a row after the other, each under its own field number, an
embedded message in an encoder of its own.

* `Kind.write`: the steps of one member. Those of an embedded message are not in its kind, and are handed over
  as the `Kind.Parts` of the row;
* `Table.Parts.write`: the steps of all rows;
* `Encoder.perform`: the steps of everything that can be written;
* `Encoder.performAll`: one write after the other, going on behind a write that stops.
-/

import Protobuf.Encoder.Writer

namespace Protobuf

/-- A message type whose messages are written member by member. -/
class Message.Stepwise (M : Type) where
  /-- Writes the members of a message. -/
  write : M → Writer

namespace Kind

/-- What has to be known besides a kind for its members to be written. -/
def Parts : {V : Type} → Kind V → Type
  | _, embedded N => Message.Stepwise N
  | _, _ => Unit

/-- Writes a member under a field number. -/
def write : {V : Type} → (kind : Kind V) → kind.Parts → (number : Nat) → V → Writer
  | _, singular type, _, number, value =>
    if value = type.default then pure () else Writer.field number ⟨type, value⟩
  | _, enumeration _, _, number, value =>
    if OpenEnum.number value = 0 then pure ()
    else Writer.field number ⟨.int32, OpenEnum.number value⟩
  | _, repeated type, _, number, values =>
    if type.wireType = .lengthDelimited then
      values.forM fun value => Writer.field number ⟨type, value⟩
    else Writer.packed number type values
  | _, embedded _, parts, number, message =>
    match message with
    | none => pure ()
    | some message => Writer.nested number (parts.write message)
  | _, textMap, _, number, map =>
    map.entries.forM fun entry =>
      Writer.entry number (some ⟨.string, entry.1⟩) (some ⟨.string, entry.2⟩)
  | _, alternative type _ chosen, _, number, choice =>
    match choice.bind chosen with
    | none => pure ()
    | some value => Writer.field number ⟨type, value⟩

end Kind

/-- What has to be known besides a table for its rows to be written. -/
inductive Table.Parts {M : Type} : List (Field M) → Type 1 where
  /-- There are no rows. -/
  | nil : Parts []
  /-- The parts of a row, and those of the rows behind it. -/
  | cons {field : Field M} {fields : List (Field M)} (first : field.kind.Parts)
      (rest : Parts fields) : Parts (field :: fields)

/-- Writes the members of a message, row by row. -/
def Table.Parts.write {M : Type} : {fields : List (Field M)} → Parts fields → M → Writer
  | _, nil, _ => pure ()
  | field :: _, cons first rest, message => do
    field.kind.write first field.number (field.get message)
    rest.write message

/-! ### The message types of the library -/

/-- The parts of `fiz_baz.example2`. -/
def FizBaz.Example2.parts : Table.Parts fields := .cons () .nil

instance : Message.Stepwise FizBaz.Example2 := ⟨FizBaz.Example2.parts.write⟩

/-- The parts of `foo.bar.example2`. -/
def FooBar.Example2.parts : Table.Parts fields := .cons () .nil

instance : Message.Stepwise FooBar.Example2 := ⟨FooBar.Example2.parts.write⟩

/-- The parts of `foo.bar.example1.example2`. -/
def FooBar.Example1.Example2.parts : Table.Parts fields := .cons () .nil

instance : Message.Stepwise FooBar.Example1.Example2 := ⟨FooBar.Example1.Example2.parts.write⟩

/-- The parts of `foo.bar.example1`: three of its rows embed a message. -/
def FooBar.Example1.parts : Table.Parts fields := by
  repeat first
    | exact .nil
    | refine .cons () ?_
    | refine .cons (inferInstanceAs (Message.Stepwise _)) ?_

instance : Message.Stepwise FooBar.Example1 := ⟨FooBar.Example1.parts.write⟩

/-- The parts of a request. -/
def Conformance.Request.parts : Table.Parts fields := by
  repeat first | exact .nil | refine .cons () ?_

instance : Message.Stepwise Conformance.Request := ⟨Conformance.Request.parts.write⟩

/-- The parts of a response. -/
def Conformance.Response.parts : Table.Parts fields := by
  repeat first | exact .nil | refine .cons () ?_

instance : Message.Stepwise Conformance.Response := ⟨Conformance.Response.parts.write⟩

/-- The parts of a failure set. -/
def Conformance.FailureSet.parts : Table.Parts fields := .cons () .nil

instance : Message.Stepwise Conformance.FailureSet := ⟨Conformance.FailureSet.parts.write⟩

instance : (type : MessageType) → Message.Stepwise type.Value
  | .example1 => inferInstanceAs (Message.Stepwise FooBar.Example1)
  | .example1Example2 => inferInstanceAs (Message.Stepwise FooBar.Example1.Example2)
  | .example2 => inferInstanceAs (Message.Stepwise FooBar.Example2)
  | .fizBazExample2 => inferInstanceAs (Message.Stepwise FizBaz.Example2)
  | .conformanceRequest => inferInstanceAs (Message.Stepwise Conformance.Request)
  | .conformanceResponse => inferInstanceAs (Message.Stepwise Conformance.Response)
  | .failureSet => inferInstanceAs (Message.Stepwise Conformance.FailureSet)

/-! ### Everything that can be written -/

namespace Encoder

/-- Writes one thing, step by step. -/
def perform : Write → Writer
  | .scalar scalar => Writer.scalar scalar
  | .tag number wire => Writer.tag number wire
  | .packed number type values => Writer.packed number type values
  | .entry number key value => Writer.entry number key value
  | .message number _ message => Writer.nested number (Message.Stepwise.write message)
  | .child number child => Writer.splice number child

/-- The encoder after some writes. A write that stops is left where it stopped. -/
def performAll (writes : List Write) (encoder : Encoder) : Encoder :=
  writes.foldl (fun encoder write => (perform write).after encoder) encoder

end Encoder

end Protobuf

/-
**The message types of the library.**

Each of them is the table of its fields (`MessageType.fields`). The rows of `MessageType.choice` are the
cases of one choice and share a member.
-/

import Protobuf.Example.FooBar
import Protobuf.Conformance.Request
import Protobuf.Conformance.Response

namespace Protobuf

/-- A message type that can be read and written by name. -/
inductive MessageType where
  | example1 | example1Example2 | example2 | fizBazExample2
  | conformanceRequest | conformanceResponse | failureSet
  deriving DecidableEq, Repr

namespace MessageType

/-- The messages of a type. -/
abbrev Value : MessageType → Type
  | example1 => FooBar.Example1
  | example1Example2 => FooBar.Example1.Example2
  | example2 => FooBar.Example2
  | fizBazExample2 => FizBaz.Example2
  | conformanceRequest => Conformance.Request
  | conformanceResponse => Conformance.Response
  | failureSet => Conformance.FailureSet

instance : (type : MessageType) → Message type.Value
  | example1 => inferInstanceAs (Message FooBar.Example1)
  | example1Example2 => inferInstanceAs (Message FooBar.Example1.Example2)
  | example2 => inferInstanceAs (Message FooBar.Example2)
  | fizBazExample2 => inferInstanceAs (Message FizBaz.Example2)
  | conformanceRequest => inferInstanceAs (Message Conformance.Request)
  | conformanceResponse => inferInstanceAs (Message Conformance.Response)
  | failureSet => inferInstanceAs (Message Conformance.FailureSet)

/-- The table of a type. -/
def fields : (type : MessageType) → List (Field type.Value)
  | example1 => FooBar.Example1.fields
  | example1Example2 => FooBar.Example1.Example2.fields
  | example2 => FooBar.Example2.fields
  | fizBazExample2 => FizBaz.Example2.fields
  | conformanceRequest => Conformance.Request.fields
  | conformanceResponse => Conformance.Response.fields
  | failureSet => Conformance.FailureSet.fields

/-- The numbers of the cases of a choice. -/
def choice : MessageType → List Nat
  | example1 => [60, 61]
  | conformanceRequest => [1, 2, 7, 8]
  | conformanceResponse => [1, 2, 3, 4, 5, 6, 7, 8, 9]
  | example1Example2 | example2 | fizBazExample2 | failureSet => []

end MessageType

end Protobuf

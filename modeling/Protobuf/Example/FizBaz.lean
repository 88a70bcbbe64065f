/-
**Package `fiz.baz`.**

The enumeration and the message that package `foo.bar` borrows.
-/

import Protobuf.Field

namespace Protobuf.FizBaz

/-- `fiz.baz.AEnum2` -/
inductive AEnum2 where
  | y
  | z
  | unknown (number : Int32)
  deriving DecidableEq, Repr

instance : OpenEnum AEnum2 where
  number
    | .y => 0
    | .z => 1
    | .unknown number => number
  ofNumber number :=
    if number = 0 then .y else if number = 1 then .z else .unknown number
  name
    | .y => "Y"
    | .z => "Z"
    | .unknown number => unknownName number

/-- `fiz.baz.example2` -/
structure Example2 where
  zomg : Int32 := 0
  deriving DecidableEq, Repr

namespace Example2

/-- The fields of `fiz.baz.example2`. -/
def fields : List (Field Example2) := [
  ⟨1, .singular .int32, Example2.zomg, fun value message => { message with zomg := value }⟩]

instance : Message Example2 := .ofFields {} fields

end Example2

end Protobuf.FizBaz

/-
**Why reading stops.**

A `Fault` is the cause of a failed read; `Fault.message` is its only wording. The last constructor
is no fault of the input: a primitive that is asked for more bytes than there are, or to shift past
the width of its number, refuses with a `Misuse`. No reader of this library asks for that.
-/

import Protobuf.Utf8

namespace Protobuf

/-- A primitive called outside its domain. -/
inductive Misuse where
  /-- More bytes were asked for than are left. -/
  | overread (asked left : Nat)
  /-- A digit was to be placed at or beyond the width of the number. -/
  | overshift (shift width : Nat)
  deriving DecidableEq, Repr

/-- The cause of a failed read. -/
inductive Fault where
  /-- The bytes end before what is read does. -/
  | bufferOverrun (needed remaining : Nat)
  /-- The field number of a tag is outside the admitted range. -/
  | invalidTag (raw : Nat)
  /-- No framing is known under this identifier. -/
  | unknownWireType (wire : Nat)
  /-- A payload announces more bytes than any payload may have. -/
  | malformedLength (length : Nat)
  /-- A varint carries bits beyond the width of its number. -/
  | invalidVarint
  /-- The payload of a string is not UTF-8. -/
  | invalidUtf8 (fault : Utf8.Fault)
  /-- A primitive was called outside its domain. -/
  | misuse (cause : Misuse)
  deriving DecidableEq, Repr

/-- The text of a misuse. -/
def Misuse.message : Misuse → String
  | overread asked left => s!"read of {asked} bytes with {left} left"
  | overshift shift width => s!"shift by {shift} in a number of {width} bits"

/-- The text of a fault. -/
def Fault.message : Fault → String
  | bufferOverrun needed remaining =>
    s!"buffer overrun: needed {needed} bytes, {remaining} remaining"
  | invalidTag raw => s!"invalid tag: {raw}"
  | unknownWireType wire => s!"unknown wire type: {wire}"
  | malformedLength length => s!"malformed length: {length}"
  | invalidVarint => "invalid varint"
  | invalidUtf8 fault => "invalid utf-8: " ++ fault.message
  | misuse cause => cause.message

end Protobuf

/-
**Reading escaped text by index.**

The bytes of a text stay where they are, and an index moves over them. What is behind an index is a slice,
and digits are a slice that is read as a number, by a reader that takes any text and can fail in ways of its
own.

* `Numeral.read`: the number of 32 bits that some bytes spell in a base, or why they do not;
* `Halt`: why the loop stops. Not every cause can occur: that a text has no more escapes is known before they
  are looked for, and that digits are digits is known before they are read;
* `unescapeByIndex`: the loop.
-/

import Protobuf.Escape.Token

namespace Protobuf.Escape

namespace Numeral

/-- How some bytes fail to be a number. -/
inductive Fault where
  /-- They are not UTF-8. -/
  | encoding (fault : Utf8.Fault)
  /-- There are none. -/
  | empty
  /-- One of the characters is no digit. -/
  | invalidDigit
  /-- The number has more than 32 bits. -/
  | overflow
  deriving DecidableEq, Repr

/-- The text of a fault. -/
def Fault.message : Fault → String
  | encoding cause => cause.message
  | empty => "cannot parse integer from empty string"
  | invalidDigit => "invalid digit found in string"
  | overflow => "number too large to fit in target type"

/-- Reads on with some digits, with `number` read so far. -/
def readFrom (base number : Nat) : List Char → Except Fault Nat
  | [] => .ok number
  | char :: digits =>
    match digit? base char with
    | none => .error .invalidDigit
    | some digit =>
      if UInt32.size ≤ number * base + digit then .error .overflow
      else readFrom base (number * base + digit) digits

/-- Reads a number, which may have a plus sign. -/
def readText (base : Nat) : List Char → Except Fault Nat
  | [] => .error .empty
  | '+' :: digits => if digits = [] then .error .invalidDigit else readFrom base 0 digits
  | digits => readFrom base 0 digits

/-- Reads the number that some bytes spell. -/
def read (base : Nat) (bytes : Bytes) : Except Fault Nat := do
  let text ← (Utf8.decode bytes).mapError .encoding
  readText base text.toList

end Numeral

/-- Why the loop stops before the end of the text. -/
inductive Halt where
  /-- The text is no escaped text. -/
  | fault (fault : Fault)
  /-- Digits were not read as a number. -/
  | numeral (fault : Numeral.Fault)
  /-- A slice was to begin behind the end. -/
  | slice (start length : Nat)
  /-- An index was to be moved to before the beginning. -/
  | below (index count : Nat)
  deriving DecidableEq, Repr

/-- The text of the error that the loop stops with; there is none where it is called outside its domain. -/
def Halt.message? : Halt → Option String
  | fault cause => some cause.message
  | numeral cause => some cause.message
  | slice .. | below .. => none

/-- The bytes from an index on. -/
def sliceFrom (bytes : Bytes) (start : Nat) : Except Halt Bytes :=
  if bytes.length < start then .error (.slice start bytes.length) else .ok (bytes.drop start)

/-- An index some bytes before another. -/
def before (index count : Nat) : Except Halt Nat :=
  if index < count then .error (.below index count) else .ok (index - count)

/-- The digits that some bytes begin with, up to a number of them. -/
def takeDigits (bytes : Bytes) (most base : Nat) : Bytes :=
  bytes.take ((bytes.take most).takeWhile fun byte => decide (IsDigit base (ascii byte))).length

/-- Reads the digits of a hexadecimal escape, whose `x` lies before the index. -/
def hexadecimalAt (bytes : Bytes) (index : Nat) : Except Halt (UInt8 × Nat) := do
  let rest ← sliceFrom bytes index
  let digits := takeDigits rest 2 16
  if digits = [] then
    let start ← before index 2
    throw (.fault (.noHexDigits start))
  else
    let value ← (Numeral.read 16 digits).mapError .numeral
    return (UInt8.ofNat value, index + digits.length)

/-- Reads the digits of an octal escape, the first of which lies before the index. -/
def octalAt (bytes : Bytes) (index : Nat) : Except Halt (UInt8 × Nat) := do
  let start ← before index 1
  let rest ← sliceFrom bytes start
  let digits := takeDigits rest 3 8
  let more ← before digits.length 1
  let value ← (Numeral.read 8 digits).mapError .numeral
  if 255 < value then throw (.fault (.octalOutOfRange value))
  else return (UInt8.ofNat value, index + more)

/-- Reads an escape whose backslash lies before the index; gives its byte, and the index behind it. -/
def escapeAt (bytes : Bytes) (index : Nat) : Except Halt (UInt8 × Nat) :=
  match bytes[index]? with
  | none => .error (.fault .trailingBackslash)
  | some letter =>
    match letters.find? fun pair => pair.1 == letter with
    | some (_, byte) => .ok (byte, index + 1)
    | none =>
      if letter = 0x78 then hexadecimalAt bytes (index + 1)
      else if isOctalDigit letter then octalAt bytes (index + 1)
      else .error (.fault (.unknownEscape letter))

/-- An escape is not empty. -/
theorem lt_of_escapeAt {bytes : Bytes} {index next : Nat} {byte : UInt8}
    (taken : escapeAt bytes index = .ok (byte, next)) : index < next := by
  unfold escapeAt hexadecimalAt octalAt at taken
  simp only [bind, Except.bind] at taken
  repeat' split at taken
  all_goals cases taken
  all_goals omega

/-- The bytes that a text stands for from an index on, behind those that are known. -/
def unescapeAt (bytes : Bytes) (index : Nat) (known : Bytes) : Except Halt Bytes :=
  if inside : index < bytes.length then
    if bytes[index] = backslash then
      match _taken : escapeAt bytes (index + 1) with
      | .error halt => .error halt
      | .ok (byte, next) => unescapeAt bytes next (known ++ [byte])
    else unescapeAt bytes (index + 1) (known ++ [bytes[index]])
  else .ok known
termination_by bytes.length - index
decreasing_by
  · have := lt_of_escapeAt _taken
    omega
  · omega

/-- The bytes that a text stands for. -/
def unescapeByIndex (text : String) : Except Halt Bytes := unescapeAt (Utf8.encode text) 0 []

end Protobuf.Escape

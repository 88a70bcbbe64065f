/-
**The tokens of escaped text.**

What text can be read as bytes is said here of its characters, without a reader.

* `Token`: a character that stands for itself, a letter behind a backslash, or digits behind one;
* `Run`: as many digits as there are, up to a number of them;
* `Token.Fits`: a token in front of what follows it;
* `Tokens`: a text is some tokens and a rest;
* `Stuck`: a text begins with no token, and why.
-/

import Protobuf.Escape
import Mathlib.Data.Nat.Digits.Defs

namespace Protobuf.Escape

/-- The bytes of some characters. -/
abbrev bytesOf (chars : List Char) : Bytes := chars.flatMap String.utf8EncodeChar

/-- The number that a character stands for as a digit of a base of at most 36. -/
def digit? (base : Nat) (char : Char) : Option Nat :=
  let number :=
    if 0x30 ≤ char.toNat ∧ char.toNat ≤ 0x39 then some (char.toNat - 0x30) -- 0 … 9
    else if 0x41 ≤ char.toNat ∧ char.toNat ≤ 0x5A then some (char.toNat - 0x37) -- A … Z
    else if 0x61 ≤ char.toNat ∧ char.toNat ≤ 0x7A then some (char.toNat - 0x57) -- a … z
    else none
  number.filter (· < base)

/-- Whether a character is a digit of a base. -/
def IsDigit (base : Nat) (char : Char) : Prop := (digit? base char).isSome

instance (base : Nat) (char : Char) : Decidable (IsDigit base char) :=
  inferInstanceAs (Decidable ((digit? base char).isSome = true))

/-- The number that some digits make, the highest of them first. -/
def value (base : Nat) (digits : List Char) : Nat :=
  Nat.ofDigits base (digits.reverse.map fun char => (digit? base char).getD 0)

/-- Digits of a base with a text behind them: one at least, and no more than some number. There are fewer only
if no other digit follows. -/
structure Run (base most : Nat) (digits rest : List Char) : Prop where
  /-- There is a digit. -/
  nonempty : digits ≠ []
  /-- There are not too many. -/
  short : digits.length ≤ most
  /-- Each of them is a digit. -/
  inside : ∀ char ∈ digits, IsDigit base char
  /-- They are as many as there are. -/
  longest : digits.length < most → ∀ next ∈ rest.head?, ¬ IsDigit base next

/-- The characters that stand for a byte behind a backslash. -/
def named : List (Char × UInt8) := [
  ('n', 0x0A), -- newline
  ('r', 0x0D), -- return
  ('t', 0x09), -- tab
  ('\\', 0x5C), -- backslash
  ('\x27', 0x27), -- single quote
  ('"', 0x22)] -- double quote

/-- A piece of escaped text. -/
inductive Token where
  /-- A character that stands for its own bytes. -/
  | plain (char : Char)
  /-- A character behind a backslash that stands for a byte. -/
  | letter (name : Char) (byte : UInt8)
  /-- Hexadecimal digits behind a backslash and an `x`. -/
  | hexadecimal (digits : List Char)
  /-- Octal digits behind a backslash. -/
  | octal (digits : List Char)
  deriving DecidableEq, Repr

namespace Token

/-- The characters of a token. -/
def text : Token → List Char
  | plain char => [char]
  | letter name _ => ['\\', name]
  | hexadecimal digits => '\\' :: 'x' :: digits
  | octal digits => '\\' :: digits

/-- The bytes that a token stands for. -/
def bytes : Token → Bytes
  | plain char => String.utf8EncodeChar char
  | letter _ byte => [byte]
  | hexadecimal digits => [UInt8.ofNat (value 16 digits)]
  | octal digits => [UInt8.ofNat (value 8 digits)]

/-- Whether a token is one in front of a text. -/
def Fits (rest : List Char) : Token → Prop
  | plain char => char ≠ '\\'
  | letter name byte => (name, byte) ∈ named
  | hexadecimal digits => Run 16 2 digits rest
  | octal digits => Run 8 3 digits rest ∧ value 8 digits ≤ 255

/-- The number of bytes of some tokens. -/
def width (tokens : List Token) : Nat := (bytesOf (tokens.flatMap text)).length

end Token

/-- A text is some tokens, each of which fits what follows it, and a rest. -/
inductive Tokens : (text : List Char) → List Token → (rest : List Char) → Prop where
  /-- There are no tokens. -/
  | done (rest : List Char) : Tokens rest [] rest
  /-- A token is in front of the others. -/
  | more {token : Token} {tokens : List Token} {behind rest : List Char} :
    token.Fits behind → Tokens behind tokens rest →
      Tokens (token.text ++ behind) (token :: tokens) rest

/-- A text, in front of which there are `offset` bytes, begins with no token. -/
inductive Stuck (offset : Nat) : (text : List Char) → Fault → Prop where
  /-- Nothing is behind a backslash. -/
  | backslash : Stuck offset ['\\'] .trailingBackslash
  /-- No digit is behind an `x`. -/
  | hexadecimal {rest : List Char} : (∀ next ∈ rest.head?, ¬ IsDigit 16 next) →
    Stuck offset ('\\' :: 'x' :: rest) (.noHexDigits offset)
  /-- The digits make more than a byte. -/
  | octal {digits rest : List Char} : Run 8 3 digits rest → 255 < value 8 digits →
    Stuck offset ('\\' :: (digits ++ rest)) (.octalOutOfRange (value 8 digits))
  /-- The character behind a backslash is no letter, no `x` and no digit; it begins with this byte. -/
  | letter {char : Char} {byte : UInt8} {more : Bytes} {rest : List Char} :
    (∀ pair ∈ named, pair.1 ≠ char) → char ≠ 'x' → ¬ IsDigit 8 char →
      String.utf8EncodeChar char = byte :: more →
      Stuck offset ('\\' :: char :: rest) (.unknownEscape byte)

end Protobuf.Escape

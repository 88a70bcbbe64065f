/-
**Escaped text for byte strings.**

Bytes are shown as printable ASCII, and read from text in which a backslash begins an escape.

* `escape`: newline, return, tab, backslash and both quotes become a backslash and a letter, other
  printable bytes stand for themselves, and the rest become a backslash and three octal digits;
* `unescape`: the inverse, on the UTF-8 bytes of any text. It also reads `\x` with one or two
  hexadecimal digits and octal escapes of one to three digits, always as many as there are.
-/

import Protobuf.Utf8

namespace Protobuf.Escape

/-- How a text fails to be escaped bytes. -/
inductive Fault where
  /-- The text ends with a lone backslash. -/
  | trailingBackslash
  /-- The hexadecimal escape that begins at `offset` has no digit. -/
  | noHexDigits (offset : Nat)
  /-- An octal escape stands for more than a byte. -/
  | octalOutOfRange (value : Nat)
  /-- No escape begins with this byte. -/
  | unknownEscape (letter : UInt8)
  deriving DecidableEq, Repr

/-- The byte that begins an escape. -/
def backslash : UInt8 := 0x5C

/-- The letters that stand for a byte after a backslash. -/
def letters : List (UInt8 × UInt8) := [
  (0x6E, 0x0A), -- n: newline
  (0x72, 0x0D), -- r: return
  (0x74, 0x09), -- t: tab
  (0x5C, 0x5C), -- backslash
  (0x27, 0x27), -- single quote
  (0x22, 0x22)] -- double quote

/-- The character of an ASCII byte. -/
def ascii (byte : UInt8) : Char := Char.ofNat byte.toNat

/-- The digit of a number below sixteen. -/
def digit (n : Nat) : Char := Char.ofNat (if n < 10 then 0x30 + n else 0x57 + n)

/-- A byte as three octal digits. -/
def octal (byte : UInt8) : List Char :=
  [digit (byte.toNat / 64), digit (byte.toNat / 8 % 8), digit (byte.toNat % 8)]

/-- A byte as an `x` and two hexadecimal digits. -/
def hexadecimal (byte : UInt8) : List Char :=
  ['x', digit (byte.toNat / 16), digit (byte.toNat % 16)]

/-- A byte as printable ASCII; `numeral` spells those that have neither a letter nor a glyph. -/
def visible (numeral : UInt8 → List Char) (byte : UInt8) : List Char :=
  match letters.find? fun pair => pair.2 == byte with
  | some (letter, _) => [ascii backslash, ascii letter]
  | none =>
    if 0x20 ≤ byte ∧ byte ≤ 0x7E then [ascii byte] else ascii backslash :: numeral byte

/-- The text of a fault. -/
def Fault.message : Fault → String
  | trailingBackslash => "trailing backslash"
  | noHexDigits offset => s!"\\x without hex digits at offset {offset}"
  | octalOutOfRange value =>
    "octal escape \\" ++ String.ofList (Nat.toDigits 8 value) ++ " out of range"
  | unknownEscape letter => "unknown escape \\" ++ String.ofList (visible hexadecimal letter)

/-- Bytes as printable ASCII. -/
def escape (bytes : Bytes) : String := String.ofList (bytes.flatMap (visible octal))

/-- Whether a byte is an octal digit. -/
def isOctalDigit (byte : UInt8) : Bool := 0x30 ≤ byte && byte ≤ 0x37

/-- Whether a byte is a hexadecimal digit. -/
def isHexDigit (byte : UInt8) : Bool :=
  (0x30 ≤ byte && byte ≤ 0x39) || (0x41 ≤ byte && byte ≤ 0x46) || (0x61 ≤ byte && byte ≤ 0x66)

/-- The number a hexadecimal digit stands for. -/
def digitValue (byte : UInt8) : Nat :=
  if byte ≤ 0x39 then byte.toNat - 0x30
  else if byte ≤ 0x46 then byte.toNat - 0x37
  else byte.toNat - 0x57

/-- The number some digits spell in a base. -/
def number (base : Nat) (digits : Bytes) : Nat :=
  digits.foldl (fun value byte => value * base + digitValue byte) 0

/-- Reads one escape, whose backslash at `offset` is read already; gives its byte and the bytes
left. -/
def readEscape (offset : Nat) : Bytes → Except Fault (UInt8 × Bytes)
  | [] => .error .trailingBackslash
  | letter :: rest =>
    match letters.find? fun pair => pair.1 == letter with
    | some (_, byte) => .ok (byte, rest)
    | none =>
      if letter = 0x78 then
        let digits := (rest.take 2).takeWhile isHexDigit
        if digits = [] then .error (.noHexDigits offset)
        else .ok (UInt8.ofNat (number 16 digits), rest.drop digits.length)
      else if isOctalDigit letter then
        let digits := letter :: (rest.take 2).takeWhile isOctalDigit
        let value := number 8 digits
        if 255 < value then .error (.octalOutOfRange value)
        else .ok (UInt8.ofNat value, rest.drop (digits.length - 1))
      else .error (.unknownEscape letter)

/-- An escape is at least one byte after its backslash. -/
theorem length_lt_of_readEscape {offset : Nat} {bytes left : Bytes} {byte : UInt8}
    (taken : readEscape offset bytes = .ok (byte, left)) : left.length < bytes.length := by
  unfold readEscape at taken
  split at taken
  · cases taken
  · dsimp only at taken
    repeat' split at taken
    all_goals cases taken
    all_goals simp only [List.length_cons, List.length_drop]
    all_goals omega

/-- The bytes some text stands for; `offset` counts the bytes before it. -/
def unescapeFrom (offset : Nat) (bytes : Bytes) : Except Fault Bytes :=
  match bytes with
  | [] => .ok []
  | byte :: rest =>
    if byte = backslash then
      match _taken : readEscape offset rest with
      | .error fault => .error fault
      | .ok (byte, left) => do
        let bytes ← unescapeFrom (offset + 1 + (rest.length - left.length)) left
        return byte :: bytes
    else do
      let bytes ← unescapeFrom (offset + 1) rest
      return byte :: bytes
termination_by bytes.length
decreasing_by
  · have := length_lt_of_readEscape _taken
    simp only [List.length_cons]
    omega
  · simp

/-- The bytes a text stands for. -/
def unescape (text : String) : Except Fault Bytes := unescapeFrom 0 (Utf8.encode text)

end Protobuf.Escape

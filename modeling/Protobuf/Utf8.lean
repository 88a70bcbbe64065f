/-
**UTF-8 with exact faults.**

* `Utf8.encode`: the bytes of a string;
* `Utf8.decode`: the string some bytes spell, or where and how they stop being UTF-8.

A fault carries the index `i` at which the longest valid prefix ends. If the bytes from `i` on are
the beginning of some valid sequence the text is `incomplete`; otherwise the fault counts the bytes
from `i` that could still begin a valid sequence, at least one. Which second bytes a lead byte
admits is the table of well-formed sequences of the Unicode standard: it excludes overlong forms,
surrogates and everything above `U+10FFFF`.
-/

import Protobuf.Bytes

namespace Protobuf.Utf8

/-- How some bytes fail to be UTF-8. -/
inductive Fault where
  /-- The bytes end inside the sequence that begins at `index`. -/
  | incomplete (index : Nat)
  /-- The `length` bytes from `index` on begin no valid sequence. -/
  | invalid (length index : Nat)
  deriving DecidableEq, Repr

/-- The text of a fault. -/
def Fault.message : Fault → String
  | incomplete index => s!"incomplete utf-8 byte sequence from index {index}"
  | invalid length index => s!"invalid utf-8 sequence of {length} bytes from index {index}"

/-- The bytes of a string. -/
def encode (text : String) : Bytes := text.toList.flatMap String.utf8EncodeChar

/-- Different strings have different bytes. -/
theorem encode_injective {first second : String} (same : encode first = encode second) :
    first = second := by
  apply String.toByteArray_inj.mp
  rw [← String.utf8Encode_toList, ← String.utf8Encode_toList]
  exact congrArg List.toByteArray same

/-- Whether a byte may stand in a sequence after its second byte. -/
def isContinuation (byte : UInt8) : Bool := 0x80 ≤ byte && byte ≤ 0xBF

/-- What a lead byte announces: the number of bytes of its sequence and the range of the second. -/
structure Lead where
  /-- The bytes of the whole sequence. -/
  length : Nat
  /-- The least second byte. -/
  low : UInt8
  /-- The greatest second byte. -/
  high : UInt8
  deriving DecidableEq, Repr

/-- The sequences of two to four bytes, by lead byte. -/
def Lead.ofByte (byte : UInt8) : Option Lead :=
  if byte < 0xC2 then none
  else if byte < 0xE0 then some ⟨2, 0x80, 0xBF⟩
  else if byte = 0xE0 then some ⟨3, 0xA0, 0xBF⟩
  else if byte = 0xED then some ⟨3, 0x80, 0x9F⟩
  else if byte < 0xF0 then some ⟨3, 0x80, 0xBF⟩
  else if byte = 0xF0 then some ⟨4, 0x90, 0xBF⟩
  else if byte < 0xF4 then some ⟨4, 0x80, 0xBF⟩
  else if byte = 0xF4 then some ⟨4, 0x80, 0x8F⟩
  else none

/-- What the bytes begin with. -/
inductive Head where
  /-- A character, and the bytes after it. -/
  | char (char : Char) (rest : Bytes)
  /-- The beginning of a character, cut by the end. -/
  | incomplete
  /-- So many bytes that no character begins with. -/
  | invalid (length : Nat)
  deriving DecidableEq, Repr

/-- The low six bits of a continuation byte. -/
def bits (byte : UInt8) : Nat := byte.toNat % 64

/-- Takes one character off a byte and the bytes that follow it. -/
def head (first : UInt8) (rest : Bytes) : Head :=
  if first < 0x80 then .char (Char.ofNat first.toNat) rest
  else
    match Lead.ofByte first, rest with
    | none, _ => .invalid 1
    | some _, [] => .incomplete
    | some lead, second :: rest =>
      if second < lead.low ∨ lead.high < second then .invalid 1
      else if lead.length = 2 then
        .char (Char.ofNat (first.toNat % 32 * 64 + bits second)) rest
      else
        match rest with
        | [] => .incomplete
        | third :: rest =>
          if !isContinuation third then .invalid 2
          else if lead.length = 3 then
            .char (Char.ofNat (first.toNat % 16 * 4096 + bits second * 64 + bits third)) rest
          else
            match rest with
            | [] => .incomplete
            | fourth :: rest =>
              if !isContinuation fourth then .invalid 3
              else
                .char (Char.ofNat (first.toNat % 8 * 262144 + bits second * 4096
                  + bits third * 64 + bits fourth)) rest

/-- A character leaves no more bytes than follow its first byte. -/
theorem length_le_of_head {first : UInt8} {rest left : Bytes} {char : Char}
    (taken : head first rest = .char char left) : left.length ≤ rest.length := by
  unfold head at taken
  repeat' split at taken
  all_goals simp_all
  all_goals grind

/-- The characters some bytes spell; `index` counts the bytes before them. -/
def decodeFrom (index : Nat) (bytes : Bytes) : Except Fault (List Char) :=
  match bytes with
  | [] => .ok []
  | first :: rest =>
    match taken : head first rest with
    | .incomplete => .error (.incomplete index)
    | .invalid length => .error (.invalid length index)
    | .char char left => do
      let chars ← decodeFrom (index + (rest.length + 1 - left.length)) left
      return char :: chars
termination_by bytes.length
decreasing_by
  have := length_le_of_head taken
  simp only [List.length_cons]
  omega

/-- The string some bytes spell. -/
def decode (bytes : Bytes) : Except Fault String := do
  let chars ← decodeFrom 0 bytes
  return String.ofList chars

end Protobuf.Utf8

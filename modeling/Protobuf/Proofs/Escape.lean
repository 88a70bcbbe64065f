/-
**Escaped bytes are read back in front of any text.**

What a byte is shown as is at most one escape. An escape takes as many digits as there are, so what
follows it matters, unless it has three digits already:

* `Escape.shown_cases`: a letter behind a backslash, the byte itself, or three octal digits behind a
  backslash;
* `Escape.readEscape_digits`: three octal digits are a whole escape, whatever follows them;
* `Escape.unescapeFrom_shown`: so the bytes behind what a byte is shown as are read as if they began
  there;
* `Escape.unescape_escape`: and escaped bytes are read back.
-/

import Protobuf.Escape
import Protobuf.Proofs.Utf8

namespace Protobuf.Escape

/-- The bytes of the text that a byte is shown as. -/
def shown (byte : UInt8) : Bytes := (visible octal byte).flatMap String.utf8EncodeChar

theorem encode_escape (bytes : Bytes) : Utf8.encode (escape bytes) = bytes.flatMap shown := by
  rw [Utf8.encode, escape, String.toList_ofList, List.flatMap_assoc]
  rfl

/-! ### Digits -/

/-- The byte of an octal digit. -/
def digitByte (n : Nat) : UInt8 := UInt8.ofNat (0x30 + n)

theorem utf8EncodeChar_digit {n : Nat} (small : n < 8) :
    String.utf8EncodeChar (digit n) = [digitByte n] := by
  rw [digit, if_pos (by omega)]
  exact Utf8.utf8EncodeChar_one (by omega)

theorem toNat_digitByte {n : Nat} (small : n < 8) : (digitByte n).toNat = 0x30 + n := by
  rw [digitByte, UInt8.toNat_ofNat']
  omega

theorem isOctalDigit_digitByte {n : Nat} (small : n < 8) : isOctalDigit (digitByte n) = true := by
  simp only [isOctalDigit, Bool.and_eq_true, decide_eq_true_eq, UInt8.le_iff_toNat_le,
    toNat_digitByte small, UInt8.reduceToNat]
  omega

theorem digitValue_digitByte {n : Nat} (small : n < 8) : digitValue (digitByte n) = n := by
  have decimal : digitByte n ≤ 0x39 := by
    rw [UInt8.le_iff_toNat_le, toNat_digitByte small, show (0x39 : UInt8).toNat = 0x39 from rfl]
    omega
  rw [digitValue, if_pos decimal, toNat_digitByte small]
  omega

/-- No digit is a letter that stands for a byte. -/
theorem find?_digitByte {n : Nat} (small : n < 8) :
    (letters.find? fun pair => pair.1 == digitByte n) = none ∧ digitByte n ≠ 0x78 := by
  have checked : ∀ n < 8, (letters.find? fun pair => pair.1 == digitByte n) = none ∧
      digitByte n ≠ 0x78 := by decide
  exact checked n small

/-- **Three octal digits are a whole escape**, whatever follows them. -/
theorem readEscape_digits {high middle low : Nat} (first : high < 8) (second : middle < 8)
    (third : low < 8) (byte : high * 64 + middle * 8 + low ≤ 255) (offset : Nat) (rest : Bytes) :
    readEscape offset (digitByte high :: digitByte middle :: digitByte low :: rest)
      = .ok (UInt8.ofNat (high * 64 + middle * 8 + low), rest) := by
  obtain ⟨letter, hexadecimal⟩ := find?_digitByte first
  have digits : ((digitByte middle :: digitByte low :: rest).take 2).takeWhile isOctalDigit
      = [digitByte middle, digitByte low] := by
    simp [isOctalDigit_digitByte second, isOctalDigit_digitByte third]
  have value : number 8 [digitByte high, digitByte middle, digitByte low]
      = high * 64 + middle * 8 + low := by
    simp only [number, List.foldl_cons, List.foldl_nil, digitValue_digitByte first,
      digitValue_digitByte second, digitValue_digitByte third]
    omega
  simp only [readEscape, letter, if_neg hexadecimal, isOctalDigit_digitByte first, if_true, digits,
    value, if_neg (Nat.not_lt_of_le byte)]
  rfl

/-! ### One byte -/

theorem utf8EncodeChar_ascii {byte : UInt8} (small : byte.toNat < 0x80) :
    String.utf8EncodeChar (ascii byte) = [byte] := by
  rw [ascii, Utf8.utf8EncodeChar_one small, UInt8.ofNat_toNat]

/-- A letter stands for one byte, and is ASCII. -/
theorem find?_letter {letter byte : UInt8} (member : (letter, byte) ∈ letters) :
    (letters.find? fun pair => pair.1 == letter) = some (letter, byte) ∧ letter.toNat < 0x80 := by
  have checked : letters.all (fun pair => (letters.find? fun other => other.1 == pair.1) == some pair &&
      pair.1.toNat < 0x80) = true := by decide
  simpa using List.all_eq_true.mp checked (letter, byte) member

/-- **How a byte is shown.** -/
theorem shown_cases (byte : UInt8) :
    (∃ letter, (letter, byte) ∈ letters ∧ shown byte = [backslash, letter]) ∨
    (byte ≠ backslash ∧ shown byte = [byte]) ∨
    shown byte = [backslash, digitByte (byte.toNat / 64), digitByte (byte.toNat / 8 % 8),
      digitByte (byte.toNat % 8)] := by
  have slash : String.utf8EncodeChar (ascii backslash) = [backslash] :=
    utf8EncodeChar_ascii (by decide)
  unfold shown visible
  split
  · next letter value found =>
    have same := List.find?_some found
    obtain rfl : value = byte := beq_iff_eq.mp same
    have member := List.mem_of_find?_eq_some found
    refine .inl ⟨letter, member, ?_⟩
    simp [slash, utf8EncodeChar_ascii (find?_letter member).2]
  · next bare =>
    split
    · next printable =>
      have small : byte.toNat < 0x80 := by
        have below := UInt8.le_iff_toNat_le.mp printable.2
        exact Nat.lt_of_le_of_lt below (by decide)
      refine .inr (.inl ⟨?_, by simp [utf8EncodeChar_ascii small]⟩)
      rintro rfl
      exact absurd bare (by decide)
    · have high : byte.toNat / 64 < 8 := by
        have := byte.toNat_lt
        omega
      refine .inr (.inr ?_)
      simp [octal, slash, utf8EncodeChar_digit high, utf8EncodeChar_digit (Nat.mod_lt _ (by decide))]

/-! ### One byte behind the other -/

/-- A byte that begins no escape stands for itself. -/
theorem unescapeFrom_cons {byte : UInt8} (plain : byte ≠ backslash) (offset : Nat) (rest : Bytes) :
    unescapeFrom offset (byte :: rest) = (unescapeFrom (offset + 1) rest).map (byte :: ·) := by
  rw [unescapeFrom, if_neg plain]
  cases unescapeFrom (offset + 1) rest <;> rfl

/-- An escape stands for its byte. -/
theorem unescapeFrom_escape {offset : Nat} {escape rest : Bytes} {byte : UInt8}
    (taken : readEscape offset (escape ++ rest) = .ok (byte, rest)) :
    unescapeFrom offset (backslash :: (escape ++ rest))
      = (unescapeFrom (offset + 1 + escape.length) rest).map (byte :: ·) := by
  have length : (escape ++ rest).length - rest.length = escape.length := by
    rw [List.length_append, Nat.add_sub_cancel]
  rw [unescapeFrom, if_pos rfl]
  split
  · next failed =>
    rw [taken] at failed
    cases failed
  · next read =>
    rw [taken] at read
    cases read
    rw [length]
    cases unescapeFrom (offset + 1 + escape.length) rest <;> rfl

/-- **Whatever follows what a byte is shown as is read as if it began there.** -/
theorem unescapeFrom_shown (offset : Nat) (byte : UInt8) (rest : Bytes) :
    unescapeFrom offset (shown byte ++ rest)
      = (unescapeFrom (offset + (shown byte).length) rest).map (byte :: ·) := by
  rcases shown_cases byte with ⟨letter, member, same⟩ | ⟨plain, same⟩ | same
  · have taken : readEscape offset ([letter] ++ rest) = .ok (byte, rest) := by
      simp only [List.singleton_append, readEscape, (find?_letter member).1]
    rw [same]
    exact unescapeFrom_escape taken
  · rw [same]
    exact unescapeFrom_cons plain offset rest
  · have whole := byte.toNat_lt
    have digits : byte.toNat / 64 * 64 + byte.toNat / 8 % 8 * 8 + byte.toNat % 8 = byte.toNat := by
      omega
    have first : byte.toNat / 64 < 8 := by omega
    have second : byte.toNat / 8 % 8 < 8 := by omega
    have third : byte.toNat % 8 < 8 := by omega
    have taken : readEscape offset ([digitByte (byte.toNat / 64), digitByte (byte.toNat / 8 % 8),
        digitByte (byte.toNat % 8)] ++ rest) = .ok (byte, rest) := by
      have read := readEscape_digits first second third (by omega) offset rest
      rw [digits, UInt8.ofNat_toNat] at read
      exact read
    rw [same]
    exact unescapeFrom_escape taken

theorem unescapeFrom_shown_append (offset : Nat) (bytes rest : Bytes) :
    unescapeFrom offset (bytes.flatMap shown ++ rest)
      = (unescapeFrom (offset + (bytes.flatMap shown).length) rest).map (bytes ++ ·) := by
  induction bytes generalizing offset with
  | nil => exact (congrFun Except.map_id _).symm
  | cons byte bytes ih =>
    rw [List.flatMap_cons, List.append_assoc, unescapeFrom_shown, ih, List.length_append,
      Nat.add_assoc]
    cases unescapeFrom (offset + ((shown byte).length + (bytes.flatMap shown).length)) rest <;> rfl

/-- **Escaped bytes are read back.** -/
theorem unescape_escape (bytes : Bytes) : unescape (escape bytes) = .ok bytes := by
  have read := unescapeFrom_shown_append 0 bytes []
  rw [List.append_nil, unescapeFrom] at read
  rw [unescape, encode_escape, read]
  simp [Except.map]

end Protobuf.Escape

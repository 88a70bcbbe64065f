/-
**Reading by index finds what reading from the front finds.**

The loop over an index slices what is behind it, and reads digits by a reader that takes any text. It never
slices beyond the bytes, and never fails to read digits.

* `Escape.takeDigits_eq`: the digits that are sliced are those that are read from the front;
* `Escape.Numeral.readFrom_digits`, `Escape.Numeral.read_digits`: up to as many digits as fit 32 bits are
  read as the number they spell;
* `Escape.hexadecimalAt_eq`, `Escape.octalAt_eq`, `Escape.escapeAt_eq`: one escape;
* `Escape.unescapeAt_eq`: so the loop goes on where reading from the front does, and stops with its faults;
* `Escape.unescapeByIndex_message`: and with their texts.
-/

import Protobuf.Escape.Indexed
import Protobuf.Proofs.EscapeDigits
import Protobuf.Proofs.EscapedText

namespace Protobuf.Escape

variable {base : Nat} {isDigit : UInt8 → Bool} {bytes digits : Bytes}

/-! ### Digits -/

theorem ReadsDigits.digit_iff (reads : ReadsDigits base isDigit) (byte : UInt8) :
    IsDigit base (ascii byte) ↔ isDigit byte = true :=
  ⟨reads.reads byte, fun digit => isDigit_iff.mpr ⟨_, reads.value_eq byte digit⟩⟩

/-- **The digits that are sliced are those that are read.** -/
theorem takeDigits_eq (reads : ReadsDigits base isDigit) (bytes : Bytes) (most : Nat) :
    takeDigits bytes most base = (bytes.take most).takeWhile isDigit := by
  have same : (fun byte => decide (IsDigit base (ascii byte))) = isDigit := by
    funext byte
    exact (Bool.eq_iff_iff.mpr (by rw [decide_eq_true_iff, reads.digit_iff byte]))
  have front : (bytes.take most).takeWhile isDigit <+: bytes :=
    (List.takeWhile_prefix _).trans (List.take_prefix _ _)
  rw [takeDigits, same, ← List.prefix_iff_eq_take.mp front]

namespace Numeral

/-- **Digits are read as the number they spell**, if so many of them fit 32 bits. -/
theorem readFrom_digits (reads : ReadsDigits base isDigit) (all : ∀ byte ∈ digits, isDigit byte = true)
    {number : Nat} (room : (number + 1) * base ^ digits.length ≤ UInt32.size) :
    readFrom base number (digits.map ascii)
      = .ok (digits.foldl (fun value byte => value * base + digitValue byte) number) := by
  induction digits generalizing number with
  | nil => rfl
  | cons byte digits ih =>
    obtain ⟨first, others⟩ := List.forall_mem_cons.mp all
    have found := reads.value_eq byte first
    have small : digitValue byte < base := (digit?_eq_some.mp found).1
    have next : number * base + digitValue byte + 1 ≤ (number + 1) * base := by
      rw [Nat.succ_mul]
      omega
    have more : (number * base + digitValue byte + 1) * base ^ digits.length ≤ UInt32.size := by
      rw [List.length_cons, Nat.pow_succ', ← Nat.mul_assoc] at room
      exact Nat.le_trans (Nat.mul_le_mul_right _ next) room
    have fits : ¬ UInt32.size ≤ number * base + digitValue byte := by
      have positive : 0 < base ^ digits.length := Nat.pow_pos (Nat.zero_lt_of_lt small)
      have := Nat.le_trans (Nat.le_mul_of_pos_right _ positive) more
      omega
    rw [List.map_cons, readFrom, found]
    simp only [if_neg fits]
    exact ih others more

/-- No digit is a plus sign. -/
theorem readText_digits (reads : ReadsDigits base isDigit) (found : digits ≠ [])
    (all : ∀ byte ∈ digits, isDigit byte = true) :
    readText base (digits.map ascii) = readFrom base 0 (digits.map ascii) := by
  cases digits with
  | nil => exact absurd rfl found
  | cons byte digits =>
    have first := (reads.digit_iff byte).mpr (all byte List.mem_cons_self)
    have no_sign : ascii byte ≠ '+' := by
      intro sign
      obtain ⟨number, value⟩ := isDigit_iff.mp first
      rw [sign] at value
      have range := (digit?_eq_some.mp value).2
      have code : '+'.toNat = 0x2B := rfl
      omega
    rw [List.map_cons]
    unfold readText
    split
    · next nothing => cases nothing
    · next same =>
      obtain ⟨sign, -⟩ := List.cons_eq_cons.mp same
      exact absurd sign no_sign
    · rfl

/-- **Some digits that fit 32 bits are read.** -/
theorem read_digits (reads : ReadsDigits base isDigit) (found : digits ≠ [])
    (all : ∀ byte ∈ digits, isDigit byte = true) (room : base ^ digits.length ≤ UInt32.size) :
    read base digits = .ok (number base digits) := by
  have spelled : Utf8.encode (String.ofList (digits.map ascii)) = digits := by
    have one : ∀ byte ∈ digits, String.utf8EncodeChar (ascii byte) = [byte] := by
      intro byte member
      have digit := toNat_lt_of_isDigit ((reads.digit_iff byte).mpr (all byte member))
      exact utf8EncodeChar_ascii (toNat_ascii byte ▸ digit)
    rw [Utf8.encode, String.toList_ofList, List.flatMap_map]
    exact (List.flatMap_congr one).trans (List.flatMap_singleton' digits)
  have decoded : Utf8.decode digits = .ok (String.ofList (digits.map ascii)) := by
    conv => lhs; rw [← spelled]
    exact Utf8.decode_encode _
  rw [read, decoded]
  show readText base (String.ofList (digits.map ascii)).toList = _
  rw [String.toList_ofList, readText_digits reads found all]
  exact readFrom_digits reads all (by rwa [Nat.zero_add, Nat.one_mul])

end Numeral

/-! ### One escape -/

theorem sliceFrom_eq {start : Nat} (inside : start ≤ bytes.length) :
    sliceFrom bytes start = .ok (bytes.drop start) :=
  if_neg (Nat.not_lt_of_le inside)

theorem before_eq {index count : Nat} (enough : count ≤ index) :
    before index count = .ok (index - count) :=
  if_neg (Nat.not_lt_of_le enough)

/-- The digits in front of some bytes are read. -/
theorem read_takeWhile (reads : ReadsDigits base isDigit) {most : Nat} (positive : 0 < base)
    (room : base ^ most ≤ UInt32.size) (found : (bytes.take most).takeWhile isDigit ≠ []) :
    Numeral.read base ((bytes.take most).takeWhile isDigit)
      = .ok (number base ((bytes.take most).takeWhile isDigit)) := by
  have short : ((bytes.take most).takeWhile isDigit).length ≤ most :=
    Nat.le_trans (List.takeWhile_prefix _).length_le (List.length_take_le _ _)
  refine Numeral.read_digits reads found (fun byte member => ?_) ?_
  · exact List.all_eq_true.mp List.all_takeWhile byte member
  · exact Nat.le_trans (Nat.pow_le_pow_right positive short) room

theorem hexadecimalAt_eq {index : Nat} (behind : 2 ≤ index) (inside : index ≤ bytes.length) :
    hexadecimalAt bytes index =
      if ((bytes.drop index).take 2).takeWhile isHexDigit = [] then
        .error (.fault (.noHexDigits (index - 2)))
      else .ok (UInt8.ofNat (number 16 (((bytes.drop index).take 2).takeWhile isHexDigit)),
        index + (((bytes.drop index).take 2).takeWhile isHexDigit).length) := by
  unfold hexadecimalAt
  simp only [sliceFrom_eq inside, before_eq behind, takeDigits_eq reads_hexadecimal, bind, Except.bind]
  split
  · rfl
  · next found => rw [read_takeWhile reads_hexadecimal (by decide) (by decide) found]; rfl

theorem octalAt_eq {index : Nat} {letter : UInt8} {rest : Bytes} (first : isOctalDigit letter = true)
    (behind : bytes.drop index = letter :: rest) :
    octalAt bytes (index + 1) =
      if 255 < number 8 (letter :: (rest.take 2).takeWhile isOctalDigit) then
        .error (.fault (.octalOutOfRange (number 8 (letter :: (rest.take 2).takeWhile isOctalDigit))))
      else .ok (UInt8.ofNat (number 8 (letter :: (rest.take 2).takeWhile isOctalDigit)),
        index + 1 + ((rest.take 2).takeWhile isOctalDigit).length) := by
  have inside : index ≤ bytes.length := by
    refine Nat.le_of_not_lt fun beyond => ?_
    rw [List.drop_eq_nil_of_le (Nat.le_of_lt beyond)] at behind
    cases behind
  have front : ((bytes.drop index).take 3).takeWhile isOctalDigit
      = letter :: (rest.take 2).takeWhile isOctalDigit := by
    rw [behind, List.take_succ_cons, List.takeWhile_cons, if_pos first]
  have read := @read_takeWhile 8 isOctalDigit (bytes.drop index) reads_octal 3 (by decide) (by decide)
    (front ▸ List.cons_ne_nil _ _)
  rw [front] at read
  unfold octalAt
  simp only [before_eq (Nat.le_add_left 1 index), Nat.add_sub_cancel, sliceFrom_eq inside,
    takeDigits_eq reads_octal, front, List.length_cons, before_eq (Nat.le_add_left 1 _), read, bind,
    Except.bind, Except.mapError]
  split <;> rfl

/-- What an escape leaves is an end of what was given. -/
theorem suffix_of_readEscape {offset : Nat} {left : Bytes} {byte : UInt8}
    (taken : readEscape offset bytes = .ok (byte, left)) : left <:+ bytes := by
  cases bytes with
  | nil => cases taken
  | cons letter rest =>
    simp only [readEscape] at taken
    repeat' split at taken
    all_goals cases taken
    · exact List.suffix_cons _ _
    · exact (List.drop_suffix _ _).trans (List.suffix_cons _ _)
    · exact (List.drop_suffix _ _).trans (List.suffix_cons _ _)

theorem length_takeWhile_take_le (most : Nat) :
    ((bytes.take most).takeWhile isDigit).length ≤ bytes.length :=
  ((List.takeWhile_prefix _).trans (List.take_prefix _ _)).length_le

/-- **An escape is read at an index as it is read from the front.** -/
theorem escapeAt_eq {offset : Nat} (inside : offset < bytes.length) :
    escapeAt bytes (offset + 1) =
      ((readEscape offset (bytes.drop (offset + 1))).mapError Halt.fault).map
        fun read => (read.1, bytes.length - read.2.length) := by
  have first : bytes[offset + 1]? = (bytes.drop (offset + 1)).head? := List.head?_drop.symm
  have length : (bytes.drop (offset + 1)).length = bytes.length - (offset + 1) := List.length_drop
  unfold escapeAt
  rw [first]
  cases behind : bytes.drop (offset + 1) with
  | nil => rfl
  | cons letter rest =>
    rw [behind, List.length_cons] at length
    have next : bytes.drop (offset + 2) = rest := by
      rw [← List.tail_drop, behind, List.tail_cons]
    -- the index behind some digits, from what is left there
    have index {count : Nat} (few : count ≤ rest.length) :
        bytes.length - (rest.drop count).length = offset + 2 + count := by
      rw [List.length_drop]
      omega
    have none_left := index (Nat.zero_le _)
    simp only [List.head?_cons, readEscape]
    cases named : letters.find? fun pair => pair.1 == letter with
    | some pair =>
      show Except.ok (pair.2, offset + 2) = Except.ok (pair.2, bytes.length - (rest.drop 0).length)
      rw [none_left]
    | none =>
      by_cases hexadecimal : letter = 0x78
      · simp only [if_pos hexadecimal]
        rw [hexadecimalAt_eq (Nat.le_add_left 2 offset) (by omega), next]
        split
        · rfl
        · simp only [Except.mapError, Except.map, index (length_takeWhile_take_le 2)]
      · by_cases digit : isOctalDigit letter = true
        · simp only [if_neg hexadecimal, if_pos digit, octalAt_eq digit behind]
          split
          · rfl
          · simp only [Except.mapError, Except.map, List.length_cons, Nat.add_sub_cancel,
              index (length_takeWhile_take_le 2)]
        · simp only [if_neg hexadecimal, if_neg digit]
          rfl

/-! ### The loop -/

/-- **The loop over an index reads what is behind it from the front.** -/
theorem unescapeAt_eq (bytes : Bytes) (index : Nat) (known : Bytes) :
    unescapeAt bytes index known =
      ((unescapeFrom index (bytes.drop index)).mapError Halt.fault).map (known ++ ·) := by
  have appended (known : Bytes) (byte : UInt8) (result : Except Fault Bytes) :
      (result.mapError Halt.fault).map (known ++ [byte] ++ ·)
        = ((result.map (byte :: ·)).mapError Halt.fault).map (known ++ ·) := by
    cases result with
    | error fault => rfl
    | ok found =>
      show Except.ok (known ++ [byte] ++ found) = Except.ok (known ++ byte :: found)
      rw [List.append_assoc, List.singleton_append]
  fun_induction unescapeAt bytes index known with
  | case1 index known inside slash halt failed =>
    rw [escapeAt_eq inside] at failed
    rw [List.drop_eq_getElem_cons inside, slash, unescapeFrom_backslash]
    cases read : readEscape index (bytes.drop (index + 1)) with
    | error fault =>
      rw [read] at failed
      cases failed
      rfl
    | ok found =>
      rw [read] at failed
      cases failed
  | case2 index known inside slash byte next taken ih =>
    rw [escapeAt_eq inside] at taken
    rw [List.drop_eq_getElem_cons inside, slash, unescapeFrom_backslash]
    cases read : readEscape index (bytes.drop (index + 1)) with
    | error fault =>
      rw [read] at taken
      cases taken
    | ok found =>
      obtain ⟨found, left⟩ := found
      rw [read] at taken
      cases taken
      have ends : left <:+ bytes := (suffix_of_readEscape read).trans (List.drop_suffix _ _)
      have same : bytes.drop (bytes.length - left.length) = left :=
        (List.suffix_iff_eq_drop.mp ends).symm
      have short := (suffix_of_readEscape read).length_le
      rw [List.length_drop] at short
      have next : index + 1 + ((bytes.drop (index + 1)).length - left.length)
          = bytes.length - left.length := by
        rw [List.length_drop]
        omega
      rw [ih, same]
      dsimp only
      rw [next]
      exact appended known found _
  | case3 index known inside plain ih =>
    rw [ih, List.drop_eq_getElem_cons inside, unescapeFrom_cons plain]
    exact appended known _ _
  | case4 index known outside =>
    rw [List.drop_eq_nil_of_le (Nat.le_of_not_lt outside), unescapeFrom]
    exact congrArg Except.ok (List.append_nil known).symm

/-- The loop finds what a text stands for, or the fault of the text. -/
theorem unescapeByIndex_eq (text : String) :
    unescapeByIndex text = (unescape text).mapError Halt.fault := by
  rw [unescapeByIndex, unescapeAt_eq, List.drop_zero, unescape]
  cases unescapeFrom 0 (Utf8.encode text) <;> rfl

/-- **Where the loop stops there is a text to report**, that of the fault. -/
theorem unescapeByIndex_message (text : String) :
    (unescapeByIndex text).mapError Halt.message?
      = (unescape text).mapError fun fault => some fault.message := by
  rw [unescapeByIndex_eq]
  cases unescape text <;> rfl

end Protobuf.Escape

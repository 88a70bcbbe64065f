/-
**Digits in the bytes of a text.**

Escapes are read off the bytes of a text. Backslashes, letters and digits are single bytes, and no byte of
another character is one of them, so what is read off the bytes are characters.

* `Escape.eq_ascii_of_mem`: a byte below `0x80` is a character;
* `Escape.ReadsDigits`: bytes are read as the digits of a base, with their values;
* `Escape.takeWhile_run`: a run of digits is read as far as it goes;
* `Escape.number_eq`: and as its value;
* `Escape.run_of_takeWhile`: the digits that a text begins with are a run.
-/

import Mathlib.Data.List.Induction
import Protobuf.Escape.Token
import Protobuf.Proofs.Escape

namespace Protobuf.Escape

/-! ### Characters and bytes -/

/-- The byte of a character below `0x80`. -/
def byteOf (char : Char) : UInt8 := UInt8.ofNat char.toNat

section Ascii

variable {char : Char} (small : char.toNat < 0x80)
include small

theorem toNat_byteOf : (byteOf char).toNat = char.toNat := by
  rw [byteOf, UInt8.toNat_ofNat']
  omega

theorem ascii_byteOf : ascii (byteOf char) = char := by
  rw [ascii, toNat_byteOf small, Char.ofNat_toNat]

theorem utf8EncodeChar_byteOf : String.utf8EncodeChar char = [byteOf char] := by
  conv => lhs; rw [← ascii_byteOf small]
  exact utf8EncodeChar_ascii (toNat_byteOf small ▸ small)

end Ascii

/-- The bytes of another character are no such bytes. -/
theorem bytes_of_not_ascii {char : Char} (large : 0x80 ≤ char.toNat) :
    ∃ byte more, String.utf8EncodeChar char = byte :: more ∧
      ∀ each ∈ byte :: more, 0x80 ≤ each.toNat := by
  have high : ¬ char.val.toNat ≤ 0x7F := Nat.not_le_of_lt large
  unfold String.utf8EncodeChar
  dsimp only
  rw [if_neg high]
  split
  · refine ⟨_, _, rfl, ?_⟩
    simp only [List.mem_cons, List.not_mem_nil, or_false, forall_eq_or_imp, forall_eq,
      UInt8.toNat_ofNat']
    omega
  · split
    · refine ⟨_, _, rfl, ?_⟩
      simp only [List.mem_cons, List.not_mem_nil, or_false, forall_eq_or_imp, forall_eq,
        UInt8.toNat_ofNat']
      omega
    · refine ⟨_, _, rfl, ?_⟩
      simp only [List.mem_cons, List.not_mem_nil, or_false, forall_eq_or_imp, forall_eq,
        UInt8.toNat_ofNat']
      omega

/-- **A byte of a character is below `0x80` only if it is the character.** -/
theorem eq_ascii_of_mem {char : Char} {byte : UInt8} (member : byte ∈ String.utf8EncodeChar char)
    (small : byte.toNat < 0x80) : char = ascii byte := by
  by_cases one : char.toNat < 0x80
  · rw [utf8EncodeChar_byteOf one, List.mem_singleton] at member
    rw [member, ascii_byteOf one]
  · obtain ⟨first, more, spelled, high⟩ := bytes_of_not_ascii (Nat.le_of_not_lt one)
    rw [spelled] at member
    exact absurd small (Nat.not_lt_of_le (high byte member))

theorem toNat_ascii (byte : UInt8) : (ascii byte).toNat = byte.toNat :=
  Utf8.toNat_ofNat (.inl (Nat.lt_trans byte.toNat_lt (by decide)))

/-! ### Digits -/

theorem digit?_eq_some {base number : Nat} {char : Char} :
    digit? base char = some number ↔ number < base ∧
      (0x30 ≤ char.toNat ∧ char.toNat ≤ 0x39 ∧ number = char.toNat - 0x30 ∨
        0x41 ≤ char.toNat ∧ char.toNat ≤ 0x5A ∧ number = char.toNat - 0x37 ∨
        0x61 ≤ char.toNat ∧ char.toNat ≤ 0x7A ∧ number = char.toNat - 0x57) := by
  unfold digit?
  simp only [Option.filter_eq_some_iff, decide_eq_true_eq]
  split
  · rw [Option.some.injEq]
    omega
  · split
    · rw [Option.some.injEq]
      omega
    · split
      · rw [Option.some.injEq]
        omega
      · rw [iff_false_left (fun found => absurd found.1.symm (Option.some_ne_none _))]
        omega

theorem isDigit_iff {base : Nat} {char : Char} :
    IsDigit base char ↔ ∃ number, digit? base char = some number :=
  Option.isSome_iff_exists

/-- Digits are ASCII. -/
theorem toNat_lt_of_isDigit {base : Nat} {char : Char} (digit : IsDigit base char) :
    char.toNat < 0x80 := by
  obtain ⟨number, found⟩ := isDigit_iff.mp digit
  have range := (digit?_eq_some.mp found).2
  omega

/-- The bytes that are read as digits of a base are its digits, with the same values. -/
structure ReadsDigits (base : Nat) (isDigit : UInt8 → Bool) : Prop where
  /-- The byte of a digit is read as one. -/
  reads (byte : UInt8) : IsDigit base (ascii byte) → isDigit byte = true
  /-- What is read is its value. -/
  value_eq (byte : UInt8) : isDigit byte = true → digit? base (ascii byte) = some (digitValue byte)

/-- The number that a byte stands for, as far as it is a digit. -/
theorem digitValue_eq (byte : UInt8) :
    digitValue byte = if byte.toNat ≤ 0x39 then byte.toNat - 0x30
      else if byte.toNat ≤ 0x46 then byte.toNat - 0x37 else byte.toNat - 0x57 := by
  simp only [digitValue, UInt8.le_iff_toNat_le, UInt8.reduceToNat]

theorem reads_hexadecimal : ReadsDigits 16 isHexDigit := by
  have isHexDigit_iff (byte : UInt8) : isHexDigit byte = true ↔
      (0x30 ≤ byte.toNat ∧ byte.toNat ≤ 0x39 ∨ 0x41 ≤ byte.toNat ∧ byte.toNat ≤ 0x46) ∨
        0x61 ≤ byte.toNat ∧ byte.toNat ≤ 0x66 := by
    simp only [isHexDigit, Bool.or_eq_true, Bool.and_eq_true, decide_eq_true_eq,
      UInt8.le_iff_toNat_le, UInt8.reduceToNat]
  constructor
  · intro byte digit
    obtain ⟨number, found⟩ := isDigit_iff.mp digit
    rw [digit?_eq_some, toNat_ascii] at found
    rw [isHexDigit_iff]
    omega
  · intro byte digit
    rw [isHexDigit_iff] at digit
    rw [digit?_eq_some, toNat_ascii, digitValue_eq]
    split <;> [skip; split] <;> omega

theorem reads_octal : ReadsDigits 8 isOctalDigit := by
  have isOctalDigit_iff (byte : UInt8) :
      isOctalDigit byte = true ↔ 0x30 ≤ byte.toNat ∧ byte.toNat ≤ 0x37 := by
    simp only [isOctalDigit, Bool.and_eq_true, decide_eq_true_eq, UInt8.le_iff_toNat_le,
      UInt8.reduceToNat]
  constructor
  · intro byte digit
    obtain ⟨number, found⟩ := isDigit_iff.mp digit
    rw [digit?_eq_some, toNat_ascii] at found
    rw [isOctalDigit_iff]
    omega
  · intro byte digit
    rw [isOctalDigit_iff] at digit
    rw [digit?_eq_some, toNat_ascii, digitValue_eq, if_pos (by omega)]
    omega

/-! ### Runs of digits -/

section Runs

variable {base most : Nat} {digits rest : List Char} {isDigit : UInt8 → Bool}

theorem bytesOf_append (first second : List Char) :
    bytesOf (first ++ second) = bytesOf first ++ bytesOf second :=
  List.flatMap_append

theorem bytesOf_digits (inside : ∀ char ∈ digits, IsDigit base char) :
    bytesOf digits = digits.map byteOf := by
  induction digits with
  | nil => rfl
  | cons char digits ih =>
    obtain ⟨first, others⟩ := List.forall_mem_cons.mp inside
    rw [bytesOf, List.flatMap_cons, utf8EncodeChar_byteOf (toNat_lt_of_isDigit first), ← bytesOf,
      ih others]
    rfl

theorem isDigit_byteOf (reads : ReadsDigits base isDigit) {char : Char} (digit : IsDigit base char) :
    isDigit (byteOf char) = true :=
  reads.reads _ ((ascii_byteOf (toNat_lt_of_isDigit digit)).symm ▸ digit)

/-- A byte that is read as a digit is that of a digit. -/
theorem eq_of_isDigit (reads : ReadsDigits base isDigit) {char : Char} {byte : UInt8}
    (member : byte ∈ String.utf8EncodeChar char) (digit : isDigit byte = true) :
    IsDigit base char := by
  have ascii_digit : IsDigit base (ascii byte) := isDigit_iff.mpr ⟨_, reads.value_eq byte digit⟩
  have small := toNat_lt_of_isDigit ascii_digit
  rw [toNat_ascii] at small
  rwa [eq_ascii_of_mem member small]

/-- No digits are read where there are none. -/
theorem takeWhile_nothing (reads : ReadsDigits base isDigit)
    (stop : ∀ next ∈ rest.head?, ¬ IsDigit base next) (count : Nat) :
    ((bytesOf rest).take count).takeWhile isDigit = [] := by
  cases rest with
  | nil => simp
  | cons next more =>
    obtain ⟨byte, tail, spelled, -⟩ := Utf8.head_utf8EncodeChar next
    have member : byte ∈ String.utf8EncodeChar next := spelled ▸ List.mem_cons_self
    have other : isDigit byte = false := by
      refine Bool.eq_false_iff.mpr fun digit => ?_
      exact stop next rfl (eq_of_isDigit reads member digit)
    cases count with
    | zero => rfl
    | succ count => simp [bytesOf, spelled, other]

/-- **A run of digits is read as far as it goes.** -/
theorem takeWhile_run (reads : ReadsDigits base isDigit) (run : Run base most digits rest) :
    ((bytesOf (digits ++ rest)).take most).takeWhile isDigit = digits.map byteOf := by
  have all : ∀ byte ∈ digits.map byteOf, isDigit byte = true :=
    List.forall_mem_map.mpr fun char member => isDigit_byteOf reads (run.inside char member)
  have short : (digits.map byteOf).length ≤ most := by
    rw [List.length_map]
    exact run.short
  have stop : ((bytesOf rest).take (most - (digits.map byteOf).length)).takeWhile isDigit = [] := by
    rw [List.length_map]
    by_cases fewer : digits.length < most
    · exact takeWhile_nothing reads (run.longest fewer) _
    · rw [Nat.sub_eq_zero_of_le (Nat.le_of_not_lt fewer)]
      rfl
  rw [bytesOf_append, bytesOf_digits run.inside, List.take_append, List.take_of_length_le short,
    List.takeWhile_append_of_pos all, stop, List.append_nil]

theorem value_concat (digits : List Char) (char : Char) :
    value base (digits ++ [char]) = (digit? base char).getD 0 + base * value base digits := by
  simp only [value, List.reverse_append, List.reverse_singleton, List.singleton_append, List.map_cons,
    Nat.ofDigits_cons]

/-- The number that the bytes of some digits spell is their value. -/
theorem number_eq (reads : ReadsDigits base isDigit) (inside : ∀ char ∈ digits, IsDigit base char) :
    number base (digits.map byteOf) = value base digits := by
  induction digits using List.reverseRecOn with
  | nil => rfl
  | append_singleton digits char ih =>
    obtain ⟨others, last⟩ := List.forall_mem_append.mp inside
    have digit := List.forall_mem_singleton.mp last
    have one : digit? base char = some (digitValue (byteOf char)) := by
      have found := reads.value_eq _ (isDigit_byteOf reads digit)
      rwa [ascii_byteOf (toNat_lt_of_isDigit digit)] at found
    have concat : number base ((digits ++ [char]).map byteOf)
        = number base (digits.map byteOf) * base + digitValue (byteOf char) := by
      simp only [number, List.map_append, List.foldl_append, List.map_cons, List.map_nil,
        List.foldl_cons, List.foldl_nil]
    rw [concat, ih others, value_concat, one, Option.getD_some, Nat.add_comm, Nat.mul_comm]

/-- The digits at the front of a text are a run of them. -/
theorem run_of_takeWhile (text : List Char)
    (front : (text.take most).takeWhile (fun char => decide (IsDigit base char)) = digits)
    (found : digits ≠ []) :
    text = digits ++ text.drop digits.length ∧ Run base most digits (text.drop digits.length) := by
  have begins : digits <+: text.take most := front ▸ List.takeWhile_prefix _
  have split : digits ++ text.drop digits.length = text :=
    List.prefix_iff_eq_append.mp (begins.trans (List.take_prefix _ _))
  have inside : ∀ char ∈ digits, IsDigit base char := by
    intro char member
    rw [← front] at member
    exact of_decide_eq_true (List.all_eq_true.mp List.all_takeWhile char member)
  refine ⟨split.symm, found, ?_, inside, fun fewer next first digit => ?_⟩
  · exact Nat.le_trans begins.length_le (List.length_take_le _ _)
  · obtain ⟨more, behind⟩ := List.head?_eq_some_iff.mp first
    obtain ⟨left, room⟩ := Nat.exists_eq_add_of_lt fewer
    have all : ∀ char ∈ digits, decide (IsDigit base char) = true :=
      fun char member => decide_eq_true (inside char member)
    -- the digit that follows would have been taken as well
    rw [← split, behind, List.take_append, List.take_of_length_le (Nat.le_of_lt fewer),
      show most - digits.length = left + 1 by omega, List.take_succ_cons,
      List.takeWhile_append_of_pos all, List.takeWhile_cons, if_pos (decide_eq_true digit)] at front
    exact absurd (List.append_right_eq_self.mp front) (List.cons_ne_nil _ _)

end Runs

end Protobuf.Escape

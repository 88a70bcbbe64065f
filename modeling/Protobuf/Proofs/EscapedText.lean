/-
**Escaped bytes keep their meaning in front of any text.**

What is behind escaped bytes neither changes what they stand for nor is changed by them. Only the offset that
a fault tells moves with the text.

* `Escape.visible_printable`: what a byte is shown as is printable ASCII;
* `Escape.Fault.moved`, `Escape.unescapeFrom_moved`: the same text further on has the same meaning, or the
  same fault further on;
* `Escape.unescape_append`: escaped bytes in front of a text;
* `Escape.escape_in_context`: all this of texts as strings, and that no two byte strings are escaped alike.
-/

import Mathlib.Data.List.Basic
import Protobuf.Proofs.Escape

namespace Protobuf.Escape

/-! ### Printable characters -/

/-- Whether a character is printable ASCII. -/
def Printable (char : Char) : Prop := 0x20 ≤ char.toNat ∧ char.toNat ≤ 0x7E

instance (char : Char) : Decidable (Printable char) := inferInstanceAs (Decidable (_ ∧ _))

theorem printable_ascii {byte : UInt8} (above : 0x20 ≤ byte) (below : byte ≤ 0x7E) :
    Printable (ascii byte) := by
  have low : 0x20 ≤ byte.toNat := UInt8.le_iff_toNat_le.mp above
  have high : byte.toNat ≤ 0x7E := UInt8.le_iff_toNat_le.mp below
  have code : (ascii byte).toNat = byte.toNat := Utf8.toNat_ofNat (.inl (by omega))
  rw [Printable, code]
  exact ⟨low, high⟩

theorem printable_digit {n : Nat} (small : n < 8) : Printable (digit n) := by
  have code : (digit n).toNat = 0x30 + n := by
    rw [digit, if_pos (by omega)]
    exact Utf8.toNat_ofNat (.inl (by omega))
  rw [Printable, code]
  omega

theorem printable_letter {letter byte : UInt8} (member : (letter, byte) ∈ letters) :
    Printable (ascii letter) := by
  have checked : letters.all fun pair => Printable (ascii pair.1) := by decide
  exact of_decide_eq_true (List.all_eq_true.mp checked _ member)

/-- **What a byte is shown as is printable.** -/
theorem visible_printable (byte : UInt8) : ∀ char ∈ visible octal byte, Printable char := by
  have slash : Printable (ascii backslash) := by decide
  have whole := byte.toNat_lt
  unfold visible
  split
  · next letter _ found =>
    have named := printable_letter (List.mem_of_find?_eq_some found)
    exact List.forall_mem_cons.mpr ⟨slash, List.forall_mem_singleton.mpr named⟩
  · split
    · next printable => exact List.forall_mem_singleton.mpr (printable_ascii printable.1 printable.2)
    · have digits : ∀ char ∈ octal byte, Printable char := by
        intro char member
        simp only [octal, List.mem_cons, List.not_mem_nil, or_false] at member
        rcases member with rfl | rfl | rfl <;> exact printable_digit (by omega)
      exact List.forall_mem_cons.mpr ⟨slash, digits⟩

/-! ### Texts further on -/

/-- A fault of a text in front of which there are some more bytes. -/
def Fault.moved (count : Nat) : Fault → Fault
  | noHexDigits offset => noHexDigits (offset + count)
  | other => other

theorem readEscape_moved (offset count : Nat) (bytes : Bytes) :
    readEscape (offset + count) bytes = (readEscape offset bytes).mapError (Fault.moved count) := by
  cases bytes with
  | nil => rfl
  | cons letter rest =>
    simp only [readEscape]
    repeat' split
    all_goals rfl

/-- A backslash begins an escape, and the text goes on behind it. -/
theorem unescapeFrom_backslash (offset : Nat) (rest : Bytes) :
    unescapeFrom offset (backslash :: rest) =
      match readEscape offset rest with
      | .error fault => .error fault
      | .ok (byte, left) =>
        (unescapeFrom (offset + 1 + (rest.length - left.length)) left).map (byte :: ·) := by
  rw [unescapeFrom, if_pos rfl]
  split
  · next fault failed => rw [failed]
  · next byte left taken =>
    rw [taken]
    show _ = (unescapeFrom (offset + 1 + (rest.length - left.length)) left).map (byte :: ·)
    cases unescapeFrom (offset + 1 + (rest.length - left.length)) left <;> rfl

/-- **A text means the same further on.** -/
theorem unescapeFrom_moved (offset count : Nat) (bytes : Bytes) :
    unescapeFrom (offset + count) bytes
      = (unescapeFrom offset bytes).mapError (Fault.moved count) := by
  induction size : bytes.length using Nat.strongRecOn generalizing offset bytes with
  | ind length ih =>
    subst size
    have mapped (result : Except Fault Bytes) (byte : UInt8) :
        (result.mapError (Fault.moved count)).map (byte :: ·)
          = (result.map (byte :: ·)).mapError (Fault.moved count) := by
      cases result <;> rfl
    cases bytes with
    | nil =>
      simp only [unescapeFrom]
      rfl
    | cons byte rest =>
      by_cases plain : byte = backslash
      · subst plain
        rw [unescapeFrom_backslash, unescapeFrom_backslash, readEscape_moved]
        cases taken : readEscape offset rest with
        | error fault => rfl
        | ok result =>
          obtain ⟨byte, left⟩ := result
          have shorter := Nat.lt_succ_of_lt (length_lt_of_readEscape taken)
          have behind := ih left.length shorter (offset + 1 + (rest.length - left.length)) left rfl
          simp only [Except.mapError, Nat.add_right_comm offset count] at behind ⊢
          rw [Nat.add_right_comm _ count, behind]
          exact mapped _ byte
      · rw [unescapeFrom_cons plain, unescapeFrom_cons plain, Nat.add_right_comm,
          ih rest.length (Nat.lt_succ_self _) (offset + 1) rest rfl]
        exact mapped _ byte

/-! ### Escaped bytes in front of a text -/

theorem encode_append (first second : String) :
    Utf8.encode (first ++ second) = Utf8.encode first ++ Utf8.encode second := by
  rw [Utf8.encode, String.toList_append, List.flatMap_append]
  rfl

/-- **Escaped bytes in front of a text** stand for themselves, and leave the meaning of the text. -/
theorem unescape_append (bytes : Bytes) (text : String) :
    unescape (escape bytes ++ text)
      = ((unescape text).mapError (Fault.moved (Utf8.encode (escape bytes)).length)).map (bytes ++ ·) := by
  have moved := unescapeFrom_moved 0 (Utf8.encode (escape bytes)).length (Utf8.encode text)
  rw [unescape, encode_append, unescape, ← moved, encode_escape]
  exact unescapeFrom_shown_append 0 bytes (Utf8.encode text)

/-- Different bytes are escaped differently. -/
theorem escape_injective : Function.Injective escape := by
  intro first second same
  have read := unescape_escape first
  rw [same, unescape_escape second] at read
  exact (Except.ok.inj read).symm

/-- **Escaped bytes are printable, and mean the same in front of any text.** A text behind them can be read if
it can be read alone, with what it stands for behind the bytes; if it cannot, the fault is that of the text, so
much further on. -/
theorem escape_in_context :
    (∀ bytes, ∀ char ∈ (escape bytes).toList, Printable char) ∧
    (∀ bytes text result, unescape (escape bytes ++ text) = .ok result ↔
      ∃ rest, unescape text = .ok rest ∧ result = bytes ++ rest) ∧
    (∀ bytes text fault, unescape (escape bytes ++ text) = .error fault ↔
      ∃ alone, unescape text = .error alone ∧
        fault = alone.moved (Utf8.encode (escape bytes)).length) ∧
    (∀ bytes, unescape (escape bytes) = .ok bytes) ∧
    Function.Injective escape := by
  refine ⟨fun bytes char member => ?_, fun bytes text result => ?_, fun bytes text fault => ?_,
    unescape_escape, escape_injective⟩
  · rw [escape, String.toList_ofList] at member
    obtain ⟨byte, -, shown⟩ := List.mem_flatMap.mp member
    exact visible_printable byte char shown
  · rw [unescape_append]
    cases unescape text <;> simp [Except.map, Except.mapError, eq_comm]
  · rw [unescape_append]
    cases unescape text <;> simp [Except.map, Except.mapError, eq_comm]

/-- Digits behind a bell do not belong to its escape, and the fault of a text is six bytes further on behind them. -/
theorem escape_in_context_digits :
    '\\' ∈ (escape [0x07, 0x5C]).toList ∧ Printable '\\' ∧
      unescape "7\\x4x" = .ok [0x37, 0x04, 0x78] ∧
      unescape (escape [0x07, 0x5C] ++ "7\\x4x") = .ok [0x07, 0x5C, 0x37, 0x04, 0x78] ∧
      unescape (escape [0x07, 0x5C] ++ "77\\xx") = .error (.noHexDigits 8) := by
  have member : '\\' ∈ (escape [0x07, 0x5C]).toList := by decide +kernel
  have read : unescape "7\\x4x" = .ok [0x37, 0x04, 0x78] := by decide +kernel
  have failed : unescape "77\\xx" = .error (.noHexDigits 2) := by decide +kernel
  have width : (Utf8.encode (escape [0x07, 0x5C])).length = 6 := by decide +kernel
  refine ⟨member, escape_in_context.1 _ _ member, read,
    (escape_in_context.2.1 _ _ _).mpr ⟨_, read, rfl⟩,
    (escape_in_context.2.2.1 _ _ _).mpr ⟨_, failed, ?_⟩⟩
  rw [width]
  rfl

end Protobuf.Escape

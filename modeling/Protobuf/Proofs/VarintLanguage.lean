/-
**Which bytes are read as a number.**

Reading looks for the first byte without its high bit. How it ends can be said from where that byte is and
from the number that the digits up to it make:

* `Varint.ending`, `Varint.numberTo`: where that byte is, and the number;
* `Varint.spelled_take_ending`, `Varint.ending_of_spelled`: the bytes up to it are the only spelling that
  some bytes begin with;
* `Varint.fault_of_readFrom`: what was read if there is no such number. Either the bytes end, or the byte
  that reaches the width has more bits than are left;
* `Varint.read_ending`, `Varint.ending_of_read`: the number is read if it fits the width and is not spelled
  in more bytes than the width has digits, whether or not the highest of them are zero; nothing else is;
* `Varint.read_language`: how reading ends, in each case, and what it consumes.
-/

import Mathlib
import Protobuf.Proofs.ShortestVarint

namespace Protobuf.Varint

/-- The index of the first byte without its high bit, or the number of bytes if there is none. -/
def ending (bytes : Bytes) : Nat := bytes.findIdx fun byte => byte.toNat < 128

/-- The number that the digits up to an index make, least significant first. -/
def numberTo (bytes : Bytes) (last : Nat) : Nat :=
  ∑ i ∈ Finset.range (last + 1), (bytes.getD i 0).toNat % 128 * 128 ^ i

variable {byte : UInt8} {bytes rest : Bytes}

theorem ending_cons_of_lt (last : byte.toNat < 128) : ending (byte :: rest) = 0 := by
  simp [ending, List.findIdx_cons, last]

theorem ending_cons_of_le (goes_on : ¬ byte.toNat < 128) :
    ending (byte :: rest) = ending rest + 1 := by
  simp [ending, List.findIdx_cons, goes_on]

theorem numberTo_zero : numberTo (byte :: rest) 0 = byte.toNat % 128 := by
  simp [numberTo]

theorem numberTo_succ (last : Nat) :
    numberTo (byte :: rest) (last + 1) = byte.toNat % 128 + 128 * numberTo rest last := by
  rw [numberTo, Finset.sum_range_succ', numberTo, Finset.mul_sum, Nat.add_comm]
  simp only [List.getD_cons_zero, List.getD_cons_succ, Nat.pow_zero, Nat.mul_one]
  congr 1
  refine Finset.sum_congr rfl fun i _ => ?_
  rw [Nat.pow_succ, ← Nat.mul_assoc, Nat.mul_comm]

/-- The bytes up to the first one without its high bit spell a number. -/
theorem spelled_take_ending (ended : ending bytes < bytes.length) :
    spelled (bytes.take (ending bytes + 1)) = some (numberTo bytes (ending bytes)) := by
  induction bytes with
  | nil => exact absurd ended (Nat.not_lt_zero _)
  | cons byte rest ih =>
    by_cases last : byte.toNat < 128
    · rw [ending_cons_of_lt last, numberTo_zero, Nat.mod_eq_of_lt last]
      exact spelled_last last
    · rw [ending_cons_of_le last, List.length_cons] at ended
      rw [ending_cons_of_le last, numberTo_succ, List.take_succ_cons]
      exact spelled_digit last (ih (Nat.lt_of_succ_lt_succ ended))

/-- No other bytes in front do so. -/
theorem ending_of_spelled {taken : Bytes} {n : Nat} (digits : spelled taken = some n) (rest : Bytes) :
    ending (taken ++ rest) + 1 = taken.length ∧ numberTo (taken ++ rest) (ending (taken ++ rest)) = n := by
  induction digits using spelled_induction with
  | last byte last =>
    rw [List.singleton_append, ending_cons_of_lt last, numberTo_zero, Nat.mod_eq_of_lt last]
    exact ⟨rfl, rfl⟩
  | digit byte more high goes_on upper ih =>
    obtain ⟨length, number⟩ := ih
    rw [List.cons_append, ending_cons_of_le goes_on, numberTo_succ, number, length]
    exact ⟨rfl, rfl⟩

/-! ### Failures -/

/-- **Why nothing is read.** Every byte has its high bit and there is room for more, or a byte reaches the width
and has more bits than are left. -/
theorem fault_of_readFrom {width shift value : Nat} {unread : Bytes} {fault : Fault}
    (room : shift < width) (failed : readFrom width shift value bytes = .error fault unread) :
    (fault = .bufferOverrun 1 0 ∧ unread = [] ∧ (∀ byte ∈ bytes, 128 ≤ byte.toNat) ∧
        shift + 7 * bytes.length < width) ∨
      (fault = .invalidVarint ∧ ∃ taken, bytes = taken ++ unread ∧
        shift + 7 * taken.length < width + 7 ∧ width ≤ shift + 7 * taken.length) := by
  induction bytes generalizing shift value with
  | nil =>
    cases failed
    exact .inl ⟨rfl, rfl, List.forall_mem_nil _, room⟩
  | cons byte rest ih =>
    simp only [readFrom, if_neg (Nat.not_le_of_lt room)] at failed
    split at failed
    · next surplus =>
      cases failed
      refine .inr ⟨rfl, [byte], rfl, ?_, ?_⟩
      all_goals
        rw [List.length_singleton]
        omega
    · next admitted =>
      split at failed
      · cases failed
      · next goes_on =>
        -- a byte with its high bit set has more digits than the last byte may have
        have digits := le_bitLength (Nat.le_of_not_lt goes_on)
        rcases ih (by omega) failed with ⟨rfl, rfl, all, short⟩ | ⟨rfl, taken, rfl, less, reached⟩
        · refine .inl ⟨rfl, rfl, List.forall_mem_cons.mpr ⟨Nat.le_of_not_lt goes_on, all⟩, ?_⟩
          rw [List.length_cons]
          omega
        · refine .inr ⟨rfl, byte :: taken, rfl, ?_, ?_⟩
          all_goals
            rw [List.length_cons]
            omega

/-! ### The language -/

/-- The digits of a width, of seven bits each. -/
theorem lt_digits_iff {width count : Nat} : count < width ⌈/⌉ 7 ↔ 7 * count < width := by
  rw [Nat.ceilDiv_eq_add_pred_div]
  omega

/-- The number that the bytes begin with is read. -/
theorem read_ending {width : Nat} (ended : ending bytes < bytes.length)
    (admitted : ending bytes < width ⌈/⌉ 7) (fits : numberTo bytes (ending bytes) < 2 ^ width) :
    read width bytes = .ok (numberTo bytes (ending bytes)) (bytes.drop (ending bytes + 1)) := by
  have length : (bytes.take (ending bytes + 1)).length = ending bytes + 1 :=
    List.length_take_of_le ended
  have short := lt_digits_iff.mp admitted
  refine read_eq_ok_iff.mpr ⟨bytes.take (ending bytes + 1), ?_, spelled_take_ending ended, fits, by omega⟩
  exact (List.take_append_drop _ _).symm

/-- Nothing else is. -/
theorem ending_of_read {width n : Nat} (taken : read width bytes = .ok n rest) :
    ending bytes < bytes.length ∧ ending bytes < width ⌈/⌉ 7 ∧
      numberTo bytes (ending bytes) < 2 ^ width := by
  obtain ⟨front, rfl, spells, fits, short⟩ := read_eq_ok_iff.mp taken
  obtain ⟨length, number⟩ := ending_of_spelled spells rest
  rw [lt_digits_iff, number, List.length_append]
  exact ⟨by omega, by omega, fits⟩

/-- **Reading accepts exactly its language.** -/
theorem read_language {width : Nat} (positive : 0 < width) (bytes : Bytes) :
    (BitVec.toNat <$> readWord width : Reader Nat) = read width ∧
    ∃ taken rest, bytes = taken ++ rest ∧
      if ending bytes < bytes.length ∧ ending bytes < width ⌈/⌉ 7 ∧
          numberTo bytes (ending bytes) < 2 ^ width then
        read width bytes = .ok (numberTo bytes (ending bytes)) rest ∧
          taken.length = ending bytes + 1
      else if bytes.length < width ⌈/⌉ 7 ∧ bytes.all (128 ≤ ·.toNat) then
        read width bytes = .error (.bufferOverrun 1 0) rest ∧ rest = []
      else read width bytes = .error .invalidVarint rest ∧ taken.length = width ⌈/⌉ 7 := by
  refine ⟨toNat_readWord positive, ?_⟩
  split
  · next number =>
    obtain ⟨ended, admitted, fits⟩ := number
    exact ⟨_, _, (List.take_append_drop (ending bytes + 1) bytes).symm,
      read_ending ended admitted fits, List.length_take_of_le ended⟩
  · next no_number =>
    cases result : read width bytes with
    | ok n rest => exact absurd (ending_of_read result) no_number
    | error fault rest =>
      rcases fault_of_readFrom positive result with
        ⟨rfl, rfl, all, short⟩ | ⟨rfl, taken, rfl, less, reached⟩
      · have set : bytes.all (128 ≤ ·.toNat) := by simpa using all
        refine ⟨bytes, [], (List.append_nil _).symm, ?_⟩
        rw [if_pos ⟨lt_digits_iff.mpr (by omega), set⟩]
        exact ⟨rfl, rfl⟩
      · have digits : taken.length = width ⌈/⌉ 7 := by
          rw [Nat.ceilDiv_eq_add_pred_div]
          omega
        have enough : ¬ (taken ++ rest).length < width ⌈/⌉ 7 := by
          rw [List.length_append]
          omega
        refine ⟨taken, rest, rfl, ?_⟩
        rw [if_neg fun both => enough both.1]
        exact ⟨rfl, digits⟩

/-- A zero of 64 bits is read off ten bytes, and a number of 33 bits is refused at the fifth byte. -/
theorem read_language_longest :
    0 < 64 ∧ 0 < 32 ∧
      read 64 [0x80, 0x80, 0x80, 0x80, 0x80, 0x80, 0x80, 0x80, 0x80, 0x00, 0x2A] = .ok 0 [0x2A] ∧
      read 32 [0x80, 0x80, 0x80, 0x80, 0x10, 0x2A] = .error .invalidVarint [0x2A] := by
  refine ⟨by decide, by decide, ?_, ?_⟩
  · obtain ⟨-, taken, rest, same, verdict⟩ := @read_language 64 (by decide)
      [0x80, 0x80, 0x80, 0x80, 0x80, 0x80, 0x80, 0x80, 0x80, 0x00, 0x2A]
    rw [if_pos (by decide +kernel)] at verdict
    have left : List.drop _ (taken ++ rest) = rest := List.drop_left' verdict.2
    rw [verdict.1, ← left, ← same]
    rfl
  · obtain ⟨-, taken, rest, same, verdict⟩ := @read_language 32 (by decide)
      [0x80, 0x80, 0x80, 0x80, 0x10, 0x2A]
    rw [if_neg (by decide +kernel), if_neg (by decide +kernel)] at verdict
    have left : List.drop _ (taken ++ rest) = rest := List.drop_left' verdict.2
    rw [verdict.1, ← left, ← same]
    rfl

end Protobuf.Varint

/-
**Every integer has one shortest varint.**

* `Varint.length_encode_eq_size`, `Varint.size_eq`: what is written has the length that is computed from
  the number of bits, seven bits a byte;
* `Varint.encode_eq_iff`: a spelling is the one that is written unless it ends with a byte of zero that it
  does not need;
* `Varint.read_eq_ok_iff`: a number is read off its spellings, as far as the width admits them;
* `IntegerType.encode_shortest`: so integers of 32 and 64 bits, with and without a sign, are read back from
  what is written, which is shorter than everything else that they are read off.
-/

import Mathlib.Algebra.Order.Floor.Div
import Mathlib.Data.Nat.Size
import Protobuf.Proofs.Width
import Protobuf.Proofs.Words

namespace Protobuf

namespace Varint

/-! ### The length of what is written -/

theorem bitLength_eq (n : Nat) : bitLength n = n.size :=
  eq_of_forall_ge_iff fun _ => bitLength_le_iff.trans Nat.size_le.symm

/-- Seven bits a byte, and at least one byte. -/
theorem size_eq (n : Nat) : size n = max 1 (n.size ⌈/⌉ 7) := by
  rw [size, bitLength_eq, Nat.ceilDiv_eq_add_pred_div]
  rfl

theorem size_le_iff {n digits : Nat} : size n ≤ digits ↔ 1 ≤ digits ∧ n < 128 ^ digits := by
  have bits : (bitLength n + 6) / 7 ≤ digits ↔ n < 128 ^ digits := by
    rw [show (128 : Nat) = 2 ^ 7 from rfl, ← Nat.pow_mul, ← bitLength_le_iff]
    omega
  rw [size, Nat.max_le, bits]

/-- **What is written has the length that is computed.** -/
theorem length_encode_eq_size (n : Nat) : (encode n).length = size n := by
  refine Nat.le_antisymm ?_ (size_le_iff.mpr ⟨length_encode_pos n, lt_pow_length_encode n⟩)
  obtain ⟨positive, fits⟩ := size_le_iff.mp (Nat.le_refl (size n))
  exact length_encode_le_of_lt_pow positive fits

/-! ### The shortest spelling -/

/-- A zero ends with a byte of zero, however it is spelled. -/
theorem getLast?_of_spelled_zero {bytes : Bytes} (digits : spelled bytes = some 0) :
    bytes.getLast? = some 0 := by
  generalize zero : 0 = n at digits
  induction digits using spelled_induction with
  | last byte last =>
    obtain rfl : 0 = byte := UInt8.toNat_inj.mp zero
    rfl
  | digit byte rest high goes_on upper ih =>
    rw [List.getLast?_cons, ih (by omega)]
    rfl

/-- **A spelling is the shortest unless its last byte is a zero that is not needed.** -/
theorem encode_eq_iff {bytes : Bytes} {n : Nat} (digits : spelled bytes = some n) :
    encode n = bytes ↔ bytes.length = 1 ∨ bytes.getLast? ≠ some 0 := by
  induction digits using spelled_induction with
  | last byte last =>
    rw [encode, if_pos last, UInt8.ofNat_toNat]
    exact iff_of_true rfl (.inl rfl)
  | digit byte rest high goes_on upper ih =>
    have longer := length_pos_of_spelled upper
    have several : (byte :: rest).length ≠ 1 := by
      rw [List.length_cons]
      omega
    have same_last : (byte :: rest).getLast? = rest.getLast? :=
      List.getLast?_cons_of_ne_nil (List.ne_nil_of_length_pos longer)
    rw [same_last, or_iff_right several]
    by_cases zero : high = 0
    · -- the digits that follow are zeros
      subst zero
      have short : byte.toNat % 128 + 128 * 0 < 128 := by omega
      rw [encode, if_pos short, getLast?_of_spelled_zero upper]
      refine iff_of_false (fun equal => several ?_) (fun unlike => unlike rfl)
      rw [← equal, List.length_singleton]
    · rw [encode_digit goes_on zero, List.cons_inj_right, ih]
      refine or_iff_right_of_imp fun single last => ?_
      -- a single digit that follows is no zero
      obtain ⟨second, rfl⟩ := List.length_eq_one_iff.mp single
      obtain rfl : second = 0 := Option.some_inj.mp last
      exact zero (Option.some_inj.mp upper).symm

/-! ### Reading -/

/-- **A number is read off its spellings**, as far as the width admits them. -/
theorem read_eq_ok_iff {width n : Nat} {bytes rest : Bytes} :
    read width bytes = .ok n rest ↔
      ∃ taken, bytes = taken ++ rest ∧ spelled taken = some n ∧ n < 2 ^ width ∧
        7 * taken.length < width + 7 := by
  constructor
  · intro taken
    obtain ⟨front, digits, same, spells, fits, short, rfl⟩ := spelled_of_readFrom taken
    rw [Nat.zero_add, Nat.shiftLeft_zero]
    exact ⟨front, same, spells, fits, by omega⟩
  · rintro ⟨taken, rfl, digits, fits, short⟩
    rw [read, readFrom_spelled digits fits (by omega), Nat.zero_add, Nat.shiftLeft_zero]

end Varint

/-! ### Integers -/

/-- **Every integer has one shortest varint**, which is the one that is written. -/
theorem IntegerType.encode_shortest (type : IntegerType) (value : type.Value) :
    (type.encode value).length = type.size value ∧
    type.size value = max 1 ((type.number value).size ⌈/⌉ 7) ∧
    (∀ more, type.read (type.encode value ++ more) = .ok value more) ∧
    ∀ bytes rest, type.read bytes = .ok value rest → ∃ taken, bytes = taken ++ rest ∧
      type.size value ≤ taken.length ∧
      (type.encode value = taken ↔ taken.length = 1 ∨ taken.getLast? ≠ some 0) := by
  rw [encode_eq, size_eq]
  refine ⟨Varint.length_encode_eq_size _, Varint.size_eq _, fun more => ?_, fun bytes rest read => ?_⟩
  · exact read_eq_ok.mpr (Varint.reads_encode type.width_pos (type.number_lt value) more)
  · obtain ⟨taken, same, digits, -, -⟩ := Varint.read_eq_ok_iff.mp (read_eq_ok.mp read)
    refine ⟨taken, same, ?_, Varint.encode_eq_iff digits⟩
    rw [← Varint.length_encode_eq_size]
    exact (Varint.length_encode_of_spelled digits).1

/-- A number below zero that is read off a needless third byte. -/
theorem IntegerType.encode_shortest_needless :
    read .int32 [0xAB, 0x82, 0x00, 0x2A] = .ok (-150) [0x2A] ∧ size .int32 (-150) ≤ 3 ∧
      encode .int32 (-150) ≠ [0xAB, 0x82, 0x00] := by
  have taken : read .int32 [0xAB, 0x82, 0x00, 0x2A] = .ok (-150) [0x2A] := by rfl
  obtain ⟨front, same, least, written⟩ := (encode_shortest .int32 (-150)).2.2.2 _ _ taken
  have three : [0xAB, 0x82, 0x00] = front := List.append_cancel_right same
  subst three
  exact ⟨taken, least, fun equal => absurd (written.mp equal) (by decide)⟩

end Protobuf

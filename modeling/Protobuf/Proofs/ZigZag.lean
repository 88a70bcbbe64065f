/-
**ZigZag loses nothing.**

Folding shifts the number left and inverts all bits if it was negative; unfolding looks at the lowest
bit to learn whether they were inverted. Each undoes the other, on words of any width (`unfold_fold`,
`fold_unfold`).

As numbers, `folded` and `unfolded` say what becomes of a signed number and what a folded one stands for
(`toNat_fold`, `toInt_decode32`, `toInt_decode64`), whatever the width.
-/

import Protobuf.ZigZag

namespace Protobuf.ZigZag

/-- An arithmetic shift by all bits but one leaves copies of the sign. -/
theorem sshiftRight_sign {width : Nat} (value : BitVec (width + 1)) :
    value.sshiftRight width = if value.msb then BitVec.allOnes (width + 1) else 0#(width + 1) := by
  ext i inside
  rw [BitVec.getElem_sshiftRight]
  by_cases same : width + i < width + 1
  · have zero : i = 0 := by omega
    subst zero
    cases sign : value.msb <;> simp_all [BitVec.msb_eq_getLsbD_last]
  · cases sign : value.msb <;> simp [same]

/-- **Folding is undone by unfolding**, on words of any width. -/
theorem unfold_fold (width : Nat) (value : BitVec (width + 1)) :
    ((value <<< 1 ^^^ value.sshiftRight width) >>> 1)
      ^^^ -((value <<< 1 ^^^ value.sshiftRight width) &&& 1#(width + 1)) = value := by
  rw [sshiftRight_sign]
  cases sign : value.msb with
  | false =>
    have even : value <<< 1 &&& 1#(width + 1) = 0#(width + 1) := by
      ext i inside
      cases i <;> simp
    simp only [Bool.false_eq_true, if_false, BitVec.xor_zero, even, BitVec.neg_zero]
    ext i inside
    simp only [BitVec.getElem_ushiftRight, BitVec.getLsbD_shiftLeft]
    rw [BitVec.msb_eq_getLsbD_last] at sign
    by_cases last : 1 + i < width + 1
    · simp [last, inside]
    · have top : i = width := by omega
      subst top
      simp_all
  | true =>
    have odd : (value <<< 1 ^^^ BitVec.allOnes (width + 1)) &&& 1#(width + 1) = 1#(width + 1) := by
      ext i inside
      cases i <;> simp
    simp only [if_true, odd, BitVec.neg_one_eq_allOnes]
    ext i inside
    rw [BitVec.msb_eq_getLsbD_last] at sign
    by_cases last : 1 + i < width + 1
    · simp [last]
    · have top : i = width := by omega
      subst top
      simp_all

/-- **Every word is folded from some number.** The lowest bit of the folded word becomes the sign. -/
theorem fold_unfold (width : Nat) (folded : BitVec (width + 1)) :
    (folded >>> 1 ^^^ -(folded &&& 1#(width + 1))) <<< 1
      ^^^ (folded >>> 1 ^^^ -(folded &&& 1#(width + 1))).sshiftRight width = folded := by
  rw [sshiftRight_sign]
  have top : folded.getLsbD (1 + width) = false := BitVec.getLsbD_of_ge _ _ (by omega)
  cases lowest : folded.getLsbD 0 with
  | false =>
    have even : folded &&& 1#(width + 1) = 0#(width + 1) := by
      ext i inside
      cases i with
      | zero => simp_all [BitVec.getLsbD_eq_getElem]
      | succ i => simp
    have sign : (folded >>> 1).msb = false := by
      rw [BitVec.msb_eq_getLsbD_last, Nat.add_sub_cancel, BitVec.getLsbD_ushiftRight, top]
    simp only [even, BitVec.neg_zero, BitVec.xor_zero, sign, Bool.false_eq_true, if_false]
    ext i inside
    cases i with
    | zero => simp_all [BitVec.getLsbD_eq_getElem]
    | succ i => simp [BitVec.getLsbD_eq_getElem inside, Nat.add_comm]
  | true =>
    have odd : folded &&& 1#(width + 1) = 1#(width + 1) := by
      ext i inside
      cases i with
      | zero => simp_all [BitVec.getLsbD_eq_getElem]
      | succ i => simp
    have sign : (folded >>> 1 ^^^ BitVec.allOnes (width + 1)).msb = true := by
      rw [BitVec.msb_eq_getLsbD_last, Nat.add_sub_cancel, BitVec.getLsbD_xor,
        BitVec.getLsbD_ushiftRight, top, BitVec.getLsbD_allOnes, decide_eq_true (Nat.lt_succ_self width),
        Bool.false_xor]
    simp only [odd, BitVec.neg_one_eq_allOnes, sign, if_true]
    ext i inside
    cases i with
    | zero => simp_all [BitVec.getLsbD_eq_getElem]
    | succ i => simp [BitVec.getLsbD_eq_getElem inside, Nat.add_comm]

theorem encode32_decode32 (folded : UInt32) : encode32 (decode32 folded) = folded := by
  apply UInt32.toBitVec_inj.mp
  exact fold_unfold 31 folded.toBitVec

theorem encode64_decode64 (folded : UInt64) : encode64 (decode64 folded) = folded := by
  apply UInt64.toBitVec_inj.mp
  exact fold_unfold 63 folded.toBitVec

theorem decode32_encode32 (value : Int32) : decode32 (encode32 value) = value := by
  apply Int32.toBitVec_inj.mp
  exact unfold_fold 31 value.toBitVec

theorem decode64_encode64 (value : Int64) : decode64 (encode64 value) = value := by
  apply Int64.toBitVec_inj.mp
  exact unfold_fold 63 value.toBitVec

/-! ### Folding as arithmetic -/

/-- The number that a signed number is folded to. -/
def folded (value : Int) : Nat := if 0 ≤ value then (2 * value).toNat else (-2 * value - 1).toNat

/-- The signed number that is folded to a number. -/
def unfolded (n : Nat) : Int := if n % 2 = 0 then n / 2 else -(n / 2) - 1

theorem unfolded_folded (value : Int) : unfolded (folded value) = value := by
  unfold unfolded folded
  split <;> split <;> omega

/-- **Folding doubles a number**, and puts those below zero in between. -/
theorem toNat_fold (width : Nat) (value : BitVec (width + 1)) :
    (value <<< 1 ^^^ value.sshiftRight width).toNat = folded value.toInt := by
  have bound := value.isLt
  have power : 2 ^ (width + 1) = 2 * 2 ^ width := by rw [Nat.pow_succ, Nat.mul_comm]
  have sign : value.msb = decide (2 ^ width ≤ value.toNat) := BitVec.msb_eq_decide value
  have double : (value <<< 1).toNat = 2 * value.toNat % 2 ^ (width + 1) := by
    rw [BitVec.toNat_shiftLeft, Nat.shiftLeft_eq, Nat.pow_one, Nat.mul_comm]
  rw [sshiftRight_sign, folded, BitVec.toInt_eq_msb_cond]
  by_cases negative : 2 ^ width ≤ value.toNat
  · rw [decide_eq_true negative] at sign
    have wrapped : 2 * value.toNat % 2 ^ (width + 1) = 2 * value.toNat - 2 ^ (width + 1) := by
      rw [Nat.mod_eq_sub_mod (by omega), Nat.mod_eq_of_lt (by omega)]
    rw [if_pos sign, if_pos sign, BitVec.xor_allOnes, BitVec.toNat_not, double, wrapped, power,
      if_neg (by omega)]
    omega
  · rw [decide_eq_false negative] at sign
    rw [sign, if_neg Bool.false_ne_true, if_neg Bool.false_ne_true, BitVec.xor_zero, double,
      Nat.mod_eq_of_lt (by omega), if_pos (by omega)]
    omega

theorem toNat_encode32 (value : Int32) : (encode32 value).toNat = folded value.toInt :=
  toNat_fold 31 value.toBitVec

theorem toNat_encode64 (value : Int64) : (encode64 value).toNat = folded value.toInt :=
  toNat_fold 63 value.toBitVec

theorem toInt_decode32 (word : UInt32) : (decode32 word).toInt = unfolded word.toNat := by
  rw [← unfolded_folded (decode32 word).toInt, ← toNat_encode32, encode32_decode32]

theorem toInt_decode64 (word : UInt64) : (decode64 word).toInt = unfolded word.toNat := by
  rw [← unfolded_folded (decode64 word).toInt, ← toNat_encode64, encode64_decode64]

end Protobuf.ZigZag

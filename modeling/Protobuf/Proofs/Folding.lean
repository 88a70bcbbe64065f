/-
**Folding is a bijection that keeps magnitudes.**

* `ZigZag.fold_eq`, `ZigZag.unfold_eq`: no step of folding or unfolding goes wrong, on words of two bits or
  more. The one number that is negated is zero or one;
* `ZigZag.half_folded`: what is lost in folding is the sign. Half of what a number is folded to is its
  magnitude, that of a number below zero being counted from `-1`;
* `Varint.size_le_of_half_le`: the lowest bit does not matter for the length of a varint;
* `ZigZag.folding`: the number that travels, both ways back, and lengths that grow with the magnitude, at
  32 and at 64 bits.
-/

import Protobuf.ZigZag.Checked
import Protobuf.Proofs.ShortestVarint

namespace Protobuf

namespace ZigZag

/-! ### No step goes wrong -/

section Steps

variable {width : Nat}

theorem shifted_eq {shift : BitVec width → Nat → BitVec width} {count : Nat} (inside : count < width)
    (word : BitVec width) : shifted shift word count = .ok (shift word count) :=
  if_neg (Nat.not_le_of_lt inside)

theorem negate_eq {word : BitVec width} (other : word ≠ BitVec.intMin width) :
    negate word = .ok (-word) :=
  if_neg other

/-- The lowest bit alone is not the least number, which has the highest bit set. -/
theorem lowest_ne_intMin (several : 2 ≤ width) (word : BitVec width) :
    word &&& BitVec.ofNat width 1 ≠ BitVec.intMin width := by
  intro same
  have bit : (word &&& BitVec.ofNat width 1).getLsbD (width - 1)
      = (BitVec.intMin width).getLsbD (width - 1) :=
    congrArg (BitVec.getLsbD · (width - 1)) same
  rw [BitVec.getLsbD_and, BitVec.getLsbD_intMin, BitVec.getLsbD_one,
    decide_eq_false (show ¬ width - 1 = 0 by omega), Bool.and_false, Bool.and_false] at bit
  exact of_decide_eq_false bit.symm (by omega)

theorem fold_eq (several : 2 ≤ width) (value : BitVec width) :
    fold value = .ok (value <<< 1 ^^^ value.sshiftRight (width - 1)) := by
  simp only [fold, shiftLeft, shiftSign, shifted_eq (show 1 < width from several),
    shifted_eq (show width - 1 < width by omega)]
  rfl

theorem unfold_eq (several : 2 ≤ width) (folded : BitVec width) :
    unfold folded = .ok (folded >>> 1 ^^^ -(folded &&& BitVec.ofNat width 1)) := by
  simp only [unfold, shiftRight, shifted_eq (show 1 < width from several),
    negate_eq (lowest_ne_intMin several folded)]
  rfl

end Steps

/-! ### Magnitudes -/

/-- **Half of a folded number is the magnitude.** -/
theorem half_folded (value : Int) : ((folded value / 2 : Nat) : Int) = max value (-value - 1) := by
  unfold folded
  split <;> omega

end ZigZag

/-- **Varints grow with half of the number.** A number of any count of base-128 digits and the one that
differs in the lowest bit have as many of them. -/
theorem Varint.size_le_of_half_le {m n : Nat} (le : m / 2 ≤ n / 2) : size m ≤ size n := by
  obtain ⟨positive, fits⟩ := size_le_iff.mp (Nat.le_refl (size n))
  obtain ⟨fewer, more⟩ := Nat.exists_eq_add_of_le' positive
  refine size_le_iff.mpr ⟨positive, ?_⟩
  rw [more, Nat.pow_succ] at fits ⊢
  omega

namespace IntegerType

/-- **Numbers of a magnitude are as long as those of a larger one, at most.** -/
theorem size_le_of_magnitude_le {type : IntegerType} {near far : type.Value} {small large : Int}
    (first : type.number near = ZigZag.folded small) (second : type.number far = ZigZag.folded large)
    (le : max small (-small - 1) ≤ max large (-large - 1)) : type.size near ≤ type.size far := by
  rw [size_eq, size_eq, first, second]
  refine Varint.size_le_of_half_le ?_
  have small_half := ZigZag.half_folded small
  have large_half := ZigZag.half_folded large
  omega

end IntegerType

namespace ZigZag

/-- **Folding at both widths.** A number is folded to twice itself, or to what is between for one below zero,
and no step on the way goes wrong. Unfolding undoes it, and every word is folded from the number that it is
unfolded to. Varints grow with the magnitude. -/
theorem folding :
    ((∀ value : Int32,
        ((encode32 value).toNat : Int)
          = (if 0 ≤ value.toInt then 2 * value.toInt else -2 * value.toInt - 1) ∧
        fold value.toBitVec = .ok (encode32 value).toBitVec ∧
        decode32 (encode32 value) = value) ∧
      (∀ word : UInt32, unfold word.toBitVec = .ok (decode32 word).toBitVec ∧
        encode32 (decode32 word) = word) ∧
      ∀ near far : Int32,
        max near.toInt (-near.toInt - 1) ≤ max far.toInt (-far.toInt - 1) →
        IntegerType.size .int32 near ≤ IntegerType.size .int32 far) ∧
    ((∀ value : Int64,
        ((encode64 value).toNat : Int)
          = (if 0 ≤ value.toInt then 2 * value.toInt else -2 * value.toInt - 1) ∧
        fold value.toBitVec = .ok (encode64 value).toBitVec ∧
        decode64 (encode64 value) = value) ∧
      (∀ word : UInt64, unfold word.toBitVec = .ok (decode64 word).toBitVec ∧
        encode64 (decode64 word) = word) ∧
      ∀ near far : Int64,
        max near.toInt (-near.toInt - 1) ≤ max far.toInt (-far.toInt - 1) →
        IntegerType.size .int64 near ≤ IntegerType.size .int64 far) := by
  have integer (value : Int) : (folded value : Int) = if 0 ≤ value then 2 * value else -2 * value - 1 := by
    unfold folded
    split <;> omega
  refine ⟨⟨fun value => ⟨?_, ?_, decode32_encode32 value⟩,
    fun word => ⟨?_, encode32_decode32 word⟩, fun near far => ?_⟩,
    fun value => ⟨?_, ?_, decode64_encode64 value⟩,
    fun word => ⟨?_, encode64_decode64 word⟩, fun near far => ?_⟩
  · rw [toNat_encode32, integer]
  · exact fold_eq (by decide) value.toBitVec
  · exact unfold_eq (by decide) word.toBitVec
  · exact IntegerType.size_le_of_magnitude_le rfl rfl
  · rw [toNat_encode64, integer]
  · exact fold_eq (by decide) value.toBitVec
  · exact unfold_eq (by decide) word.toBitVec
  · exact IntegerType.size_le_of_magnitude_le rfl rfl

/-- The least number is folded to the largest word, and is as long as the largest number. -/
theorem folding_extreme :
    max (-0x80000000 : Int32).toInt (-(-0x80000000 : Int32).toInt - 1)
        ≤ max (0x7FFFFFFF : Int32).toInt (-(0x7FFFFFFF : Int32).toInt - 1) ∧
      IntegerType.size .int32 (-0x80000000) ≤ IntegerType.size .int32 0x7FFFFFFF ∧
      fold (-0x80000000 : Int32).toBitVec = .ok 0xFFFFFFFF#32 := by
  have magnitudes : max (-0x80000000 : Int32).toInt (-(-0x80000000 : Int32).toInt - 1)
      ≤ max (0x7FFFFFFF : Int32).toInt (-(0x7FFFFFFF : Int32).toInt - 1) := by decide
  exact ⟨magnitudes, folding.1.2.2 _ _ magnitudes, (folding.1.1 (-0x80000000)).2.1⟩

end ZigZag

end Protobuf

/-
**Words are spelled as their numbers are.**

What masks, shifts and leading zeros make of a word is what `Varint` makes of its number:

* `Varint.bitLength_toNat`: the zeros in front of the highest set bit tell the length of the number;
* `Varint.encodeWord_eq`, `Varint.sizeWord_eq`: so a word is spelled and measured as its number is;
* `Varint.toNat_readWord`: and read as its number is. It does not matter whether digits are added or
  joined, since they do not overlap, and no digit is shifted out of the word, since the byte that
  reaches the width has no more bits than are left;
* `IntegerType.number`: the number that travels for an integer, with which all this holds of integers.
-/

import Protobuf.Varint.Word
import Protobuf.Proofs.Safety

namespace Protobuf

namespace Varint

variable {width : Nat}

/-! ### Bits -/

/-- **The length of a number is the width less the zeros in front of it.** -/
theorem bitLength_toNat (word : BitVec width) : bitLength word.toNat = width - word.clz.toNat := by
  refine Nat.le_antisymm (bitLength_le_iff.mpr BitVec.toNat_lt_two_pow_sub_clz) ?_
  by_cases zero : word = 0
  · have all : word.clz.toNat = width := by
      rw [BitVec.clz_eq_iff_eq_zero.mpr zero]
      exact Nat.mod_eq_of_lt Nat.lt_two_pow_self
    rw [all, Nat.sub_self]
    exact Nat.zero_le _
  · refine Nat.le_of_not_lt fun short => ?_
    have top := BitVec.two_pow_sub_clz_le_toNat_of_ne_zero (by omega) zero
    have below : word.toNat < 2 ^ (width - 1 - word.clz.toNat) := bitLength_le_iff.mp (by omega)
    exact Nat.not_lt_of_le top below

/-- The seven low bits of a byte. -/
theorem toNat_digit (byte : UInt8) : (byte.toBitVec &&& 0x7F).toNat = byte.toNat % 128 :=
  Nat.and_two_pow_sub_one_eq_mod byte.toNat 7

/-- The high bit of a byte. -/
theorem highBit_eq_zero {byte : UInt8} : byte.toBitVec &&& 0x80 = 0 ↔ byte.toNat < 128 := by
  have alone : byte.toBitVec &&& 0x80 = if byte.toBitVec.getLsbD 7 then 0x80 else 0 :=
    BitVec.and_twoPow byte.toBitVec 7
  have sign : byte.toBitVec.getLsbD 7 = decide (128 ≤ byte.toNat) :=
    BitVec.msb_eq_decide byte.toBitVec
  rw [alone, sign]
  simp

/-- To set the high bit of a byte is to add it to the seven others. -/
theorem or_highBit (byte : BitVec 8) : (byte ||| 0x80).toNat = byte.toNat % 128 + 128 := by
  have split : byte.toNat = 128 * (byte.toNat / 128) ||| byte.toNat % 128 := by
    rw [← Nat.two_pow_add_eq_or_of_lt (i := 7) (Nat.mod_lt _ (by decide))]
    exact (Nat.div_add_mod _ _).symm
  have high : 128 * (byte.toNat / 128) ||| 128 = 128 := by
    have bit : byte.toNat / 128 = 0 ∨ byte.toNat / 128 = 1 := by
      have := byte.isLt
      omega
    rcases bit with bit | bit <;> rw [bit] <;> decide
  calc byte.toNat ||| 128 = (128 * (byte.toNat / 128) ||| byte.toNat % 128) ||| 128 := by rw [← split]
    _ = (128 * (byte.toNat / 128) ||| 128) ||| byte.toNat % 128 := by
      rw [Nat.or_assoc, Nat.or_comm (byte.toNat % 128), ← Nat.or_assoc]
    _ = 128 ||| byte.toNat % 128 := by rw [high]
    _ = 128 + byte.toNat % 128 :=
      (Nat.two_pow_add_eq_or_of_lt (i := 7) (Nat.mod_lt _ (by decide)) 1).symm
    _ = byte.toNat % 128 + 128 := Nat.add_comm _ _

/-- To join a digit with the bits below it is to add it. -/
theorem toNat_or_digit {shift : Nat} {word digit : BitVec width} (below : word.toNat < 2 ^ shift)
    (fits : digit.toNat < 2 ^ (width - shift)) (room : shift < width) :
    (word ||| digit <<< shift).toNat = word.toNat + digit.toNat <<< shift := by
  have inside : digit.toNat <<< shift < 2 ^ width := by
    rw [Nat.shiftLeft_eq]
    calc digit.toNat * 2 ^ shift < 2 ^ (width - shift) * 2 ^ shift :=
          Nat.mul_lt_mul_of_pos_right fits (Nat.two_pow_pos shift)
      _ = 2 ^ width := by rw [← Nat.pow_add, Nat.sub_add_cancel (Nat.le_of_lt room)]
  rw [BitVec.toNat_or, BitVec.toNat_shiftLeft, Nat.mod_eq_of_lt inside, Nat.or_comm,
    ← Nat.shiftLeft_add_eq_or_of_lt below, Nat.add_comm]

/-! ### Writing -/

theorem sizeWord_eq (word : BitVec width) : sizeWord word = size word.toNat := by
  rw [sizeWord, size, bitLength_toNat]

/-- **A word is spelled as its number.** -/
theorem encodeWord_eq (word : BitVec width) : encodeWord word = encode word.toNat := by
  fun_induction encodeWord word with
  | case1 word small =>
    have byte : UInt8.ofBitVec (word.setWidth 8) = UInt8.ofNat word.toNat := by
      apply UInt8.toNat_inj.mp
      rw [UInt8.toNat_ofNat']
      exact BitVec.toNat_setWidth 8 word
    rw [encode, if_pos small, byte]
  | case2 word large ih =>
    have byte : UInt8.ofBitVec (word.setWidth 8 ||| 0x80) = UInt8.ofNat (word.toNat % 128 + 128) := by
      apply UInt8.toNat_inj.mp
      rw [UInt8.toNat_ofNat']
      refine (or_highBit (word.setWidth 8)).trans ?_
      rw [BitVec.toNat_setWidth]
      omega
    rw [encode, if_neg large, ih, byte, BitVec.toNat_ushiftRight, Nat.shiftRight_eq_div_pow]

/-! ### Reading -/

/-- The digit of an admitted byte fits the bits that are left. -/
theorem digit_lt {left : Nat} {byte : UInt8}
    (admitted : ¬ (left ≤ 7 ∧ left < bitLength byte.toNat)) : byte.toNat % 128 < 2 ^ left := by
  by_cases few : left ≤ 7
  · have short : bitLength byte.toNat ≤ left := Nat.le_of_not_lt fun long => admitted ⟨few, long⟩
    exact Nat.lt_of_le_of_lt (Nat.mod_le _ _) (bitLength_le_iff.mp short)
  · have bits : 2 ^ 7 ≤ 2 ^ left := Nat.pow_le_pow_right Nat.two_pos (Nat.le_of_not_le few)
    exact Nat.lt_of_lt_of_le (Nat.mod_lt _ (by decide)) bits

/-- With a digit more, a number has seven bits more. -/
theorem add_digit_lt {shift low digit : Nat} (below : low < 2 ^ shift) (small : digit < 128) :
    low + digit <<< shift < 2 ^ (shift + 7) := calc
  low + digit <<< shift < 2 ^ shift + digit * 2 ^ shift := by
    rw [Nat.shiftLeft_eq]
    exact Nat.add_lt_add_right below _
  _ = (digit + 1) * 2 ^ shift := by rw [Nat.add_mul, Nat.one_mul, Nat.add_comm]
  _ ≤ 128 * 2 ^ shift := Nat.mul_le_mul_right _ small
  _ = 2 ^ (shift + 7) := by rw [Nat.pow_add, Nat.mul_comm]

/-- To join an admitted byte is to add its digit: no bit of it is lost. -/
theorem toNat_join {shift : Nat} {word : BitVec width} {byte : UInt8} (room : shift < width)
    (below : word.toNat < 2 ^ shift)
    (admitted : ¬ (width - shift ≤ 7 ∧ width - shift < bitLength byte.toNat)) :
    (word ||| (byte.toBitVec &&& 0x7F).setWidth width <<< shift).toNat
      = word.toNat + (byte.toNat % 128) <<< shift := by
  have fits := digit_lt admitted
  have digit : ((byte.toBitVec &&& 0x7F).setWidth width).toNat = byte.toNat % 128 := by
    rw [BitVec.toNat_setWidth, toNat_digit]
    have whole : 2 ^ (width - shift) ≤ 2 ^ width :=
      Nat.pow_le_pow_right Nat.two_pos (Nat.sub_le width shift)
    exact Nat.mod_eq_of_lt (Nat.lt_of_lt_of_le fits whole)
  rw [toNat_or_digit below (digit.symm ▸ fits) room, digit]

theorem toNat_readWordFrom {shift : Nat} {word : BitVec width} (room : shift < width)
    (below : word.toNat < 2 ^ shift) (bytes : Bytes) :
    EStateM.map BitVec.toNat (readWordFrom shift word) bytes
      = readFrom width shift word.toNat bytes := by
  induction bytes generalizing shift word with
  | nil => rfl
  | cons byte rest ih =>
    have bits : 8 - byte.toBitVec.clz.toNat = bitLength byte.toNat := (bitLength_toNat _).symm
    simp only [EStateM.map, readWordFrom, readFrom, if_neg (Nat.not_le_of_lt room), bits,
      highBit_eq_zero] at ih ⊢
    by_cases surplus : width - shift ≤ 7 ∧ width - shift < bitLength byte.toNat
    · simp only [if_pos surplus]
    · have joined := toNat_join room below surplus
      by_cases last : byte.toNat < 128
      · simp only [if_neg surplus, if_pos last, joined, Nat.mod_eq_of_lt last]
      · simp only [if_neg surplus, if_neg last]
        -- a byte that goes on is admitted only if there is room for more than its digit
        have digits := le_bitLength (Nat.le_of_not_lt last)
        have next := add_digit_lt below (Nat.mod_lt byte.toNat (by decide))
        rw [← joined] at next ⊢
        exact ih (by omega) next

/-- **A word is read as its number.** -/
theorem toNat_readWord (positive : 0 < width) :
    (BitVec.toNat <$> readWord width : Reader Nat) = read width := by
  funext bytes
  exact toNat_readWordFrom positive (by simp) bytes

/-- The bytes left unread are those that the number leaves. -/
theorem readWord_eq_ok (positive : 0 < width) {bytes rest : Bytes} {word : BitVec width} :
    readWord width bytes = .ok word rest ↔ read width bytes = .ok word.toNat rest := by
  rw [← toNat_readWord positive, Reader.map_eq_ok]
  constructor
  · exact fun taken => ⟨word, taken, rfl⟩
  · rintro ⟨other, taken, same⟩
    rwa [BitVec.eq_of_toNat_eq same] at taken

end Varint

/-! ### Integers -/

namespace IntegerType

/-- The number that travels for an integer. -/
def number : (type : IntegerType) → type.Value → Nat
  | uint32, value => UInt32.toNat value
  | uint64, value => UInt64.toNat value
  | int32, value => ZigZag.folded (Int32.toInt value)
  | int64, value => ZigZag.folded (Int64.toInt value)

variable (type : IntegerType) (value : type.Value)

theorem width_pos : 0 < type.width := by
  cases type <;> decide

theorem toNat_toWord : (type.toWord value).toNat = type.number value := by
  cases type with
  | uint32 => rfl
  | uint64 => rfl
  | int32 => exact ZigZag.toNat_encode32 value
  | int64 => exact ZigZag.toNat_encode64 value

theorem number_lt : type.number value < 2 ^ type.width := by
  rw [← toNat_toWord]
  exact (type.toWord value).isLt

/-- Every word travels for one integer. -/
theorem ofWord_eq_iff {type : IntegerType} {value : type.Value} {word : BitVec type.width} :
    type.ofWord word = value ↔ word = type.toWord value := by
  have back : type.ofWord (type.toWord value) = value := by
    cases type with
    | uint32 => rfl
    | uint64 => rfl
    | int32 => exact ZigZag.decode32_encode32 value
    | int64 => exact ZigZag.decode64_encode64 value
  have forth : type.toWord (type.ofWord word) = word := by
    cases type with
    | uint32 => rfl
    | uint64 => rfl
    | int32 => exact congrArg UInt32.toBitVec (ZigZag.encode32_decode32 _)
    | int64 => exact congrArg UInt64.toBitVec (ZigZag.encode64_decode64 _)
  constructor
  · rintro rfl
    exact forth.symm
  · rintro rfl
    exact back

theorem encode_eq : type.encode value = Varint.encode (type.number value) := by
  rw [encode, Varint.encodeWord_eq, toNat_toWord]

theorem size_eq : type.size value = Varint.size (type.number value) := by
  rw [size, Varint.sizeWord_eq, toNat_toWord]

/-- **An integer is read where its number is.** -/
theorem read_eq_ok {type : IntegerType} {value : type.Value} {bytes rest : Bytes} :
    type.read bytes = .ok value rest ↔
      Varint.read type.width bytes = .ok (type.number value) rest := by
  rw [read, Reader.map_eq_ok, ← toNat_toWord, ← Varint.readWord_eq_ok type.width_pos]
  simp only [ofWord_eq_iff]
  constructor
  · rintro ⟨word, taken, rfl⟩
    exact taken
  · exact fun taken => ⟨_, taken, rfl⟩

end IntegerType

end Protobuf

/-
**What is written is read back, whatever follows.**

One law per writer, each saying that the reader takes exactly the bytes that were written:

* `Varint.reads_encode`: a number that has at most as many bits as the reader admits;
* `Tag.reads_encode`: a tag with a field number in `1 … maxFieldNumber`;
* `Payload.reads_encode`: a payload of at most `maxLength` bytes;
* `ScalarType.reads_encode`: a value of any of the fifteen types, if its payloads are no longer than
  that. Floats are their bits, so a NaN and `-0.0` come back as they were.
-/

import Mathlib.Algebra.Group.Nat.Defs
import Protobuf.Proofs.SelfDelimiting
import Protobuf.Proofs.Utf8
import Protobuf.Proofs.ZigZag

namespace Protobuf

/-- A number that fits the width is read back. -/
theorem Bytes.ofLittleEndian_littleEndian (width n : Nat) (fits : n < 256 ^ width) :
    ofLittleEndian (littleEndian width n) = n := by
  induction width generalizing n with
  | zero => simp_all [littleEndian, ofLittleEndian]
  | succ width ih =>
    have rest : n / 256 < 256 ^ width := by
      rw [Nat.pow_succ] at fits
      exact Nat.div_lt_of_lt_mul (by omega)
    simp only [littleEndian, ofLittleEndian, ih _ rest, UInt8.toNat_ofNat']
    omega

namespace Varint

theorem bitLength_le_iff {n bits : Nat} : bitLength n ≤ bits ↔ n < 2 ^ bits := by
  unfold bitLength
  split
  · next zero =>
    subst zero
    exact iff_of_true (Nat.zero_le bits) (Nat.two_pow_pos bits)
  · next positive => rw [Nat.succ_le_iff, Nat.log2_lt positive]

/-- Reading goes on from a shift as if the digits below it were read already. -/
theorem readFrom_encode {width : Nat} (n shift value : Nat) (room : shift < width)
    (fits : n < 2 ^ (width - shift)) (more : Bytes) :
    readFrom width shift value (encode n ++ more) = .ok (value + n <<< shift) more := by
  fun_induction encode n generalizing shift value with
  | case1 n small =>
    have byte : (UInt8.ofNat n).toNat = n := by
      rw [UInt8.toNat_ofNat']
      omega
    have admitted : ¬ (width - shift ≤ 7 ∧ width - shift < bitLength n) :=
      fun ⟨_, long⟩ => Nat.not_le_of_lt long (bitLength_le_iff.mpr fits)
    simp only [List.singleton_append, readFrom, byte, if_neg (Nat.not_le_of_lt room),
      if_neg admitted, if_pos small]
  | case2 n large ih =>
    have byte : (UInt8.ofNat (n % 128 + 128)).toNat = n % 128 + 128 := by
      rw [UInt8.toNat_ofNat']
      omega
    -- a second byte is written only if there are more than seven bits left to read
    have more_bits : 7 < width - shift := by
      refine Nat.lt_of_not_le fun few => ?_
      have bound : 2 ^ (width - shift) ≤ 2 ^ 7 := Nat.pow_le_pow_right (by decide) (by omega)
      omega
    have rest : n / 128 < 2 ^ (width - (shift + 7)) := by
      rw [Nat.div_lt_iff_lt_mul (by decide)]
      calc n < 2 ^ (width - shift) := fits
        _ = 2 ^ (width - (shift + 7) + 7) := by congr 1; omega
        _ = 2 ^ (width - (shift + 7)) * 128 := by rw [Nat.pow_add]
    have digits : (n % 128 + 128) % 128 = n % 128 := by omega
    simp only [List.cons_append, readFrom, byte, if_neg (Nat.not_le_of_lt room),
      if_neg fun both : width - shift ≤ 7 ∧ _ => Nat.not_lt_of_le both.1 more_bits,
      if_neg (show ¬ n % 128 + 128 < 128 by omega), digits]
    rw [ih (shift + 7) _ (by omega) rest]
    have weight : (n % 128) <<< shift + (n / 128) <<< (shift + 7) = n <<< shift := by
      rw [Nat.shiftLeft_eq, Nat.shiftLeft_eq, Nat.shiftLeft_eq, Nat.pow_add, ← Nat.mul_assoc,
        Nat.mul_right_comm, ← Nat.add_mul, Nat.mul_comm _ (2 ^ 7)]
      congr 1
      omega
    rw [Nat.add_assoc, weight]

/-- **A number is read back from its shortest spelling.** -/
theorem reads_encode {width n : Nat} (positive : 0 < width) (fits : n < 2 ^ width) :
    (read width).Reads (encode n) n := by
  intro more
  rw [read, readFrom_encode n 0 0 positive fits more]
  simp

end Varint

namespace Tag

theorem ofRaw_raw {number : Nat} (wire : WireType) (least : 1 ≤ number)
    (most : number ≤ maxFieldNumber) : ofRaw (raw number wire) = .ok ⟨number, wire.id⟩ := by
  have bits : wire.id < 8 := by cases wire <;> decide
  have high : (number * 8 + wire.id) / 8 = number := by omega
  have low : (number * 8 + wire.id) % 8 = wire.id := by omega
  have admitted : ¬ (number = 0 ∨ maxFieldNumber < number) := by omega
  rw [ofRaw, raw, high, low, if_neg admitted]

/-- **A tag is read back.** -/
theorem reads_encode {number : Nat} (wire : WireType) (least : 1 ≤ number)
    (most : number ≤ maxFieldNumber) : read.Reads (encode number wire) ⟨number, wire.id⟩ := by
  have bits : wire.id < 8 := by cases wire <;> decide
  have fits : raw number wire < 2 ^ 64 := by
    unfold maxFieldNumber at most
    unfold raw
    omega
  exact (Varint.reads_encode (by decide) fits).bind_nil
    (.ofExcept (ofRaw_raw wire least most))

end Tag

namespace Payload

/-- **A payload is read back.** -/
theorem reads_encode {payload : Bytes} (fits : payload.length ≤ maxLength) :
    read.Reads (encode payload) payload := by
  have small : payload.length < 2 ^ 64 := by
    unfold maxLength at fits
    omega
  exact Announces.reads ⟨Varint.reads_encode (by decide) small, fits⟩

theorem readFixed_reads {width n : Nat} (fits : n < 256 ^ width) :
    (readFixed width).Reads (Bytes.littleEndian width n) n := by
  have taken := Reader.exactly_reads (Bytes.littleEndian width n)
  rw [Bytes.length_littleEndian] at taken
  refine taken.bind_nil ?_
  rw [Bytes.ofLittleEndian_littleEndian width n fits]
  exact .pure n

end Payload

namespace ScalarType

/-- A number read as a varint of 64 bits and converted. -/
theorem varint_reads {α : Type} {n : Nat} (fits : n < 2 ^ 64) (convert : Nat → α) {value : α}
    (same : convert n = value) : (convert <$> Varint.read 64).Reads (Varint.encode n) value := by
  subst same
  exact (Varint.reads_encode (by decide) fits).map convert

/-- A number read off a fixed number of bytes and converted. -/
theorem fixed_reads {α : Type} {width n : Nat} (fits : n < 256 ^ width) (convert : Nat → α)
    {value : α} (same : convert n = value) :
    (convert <$> Payload.readFixed width).Reads (Bytes.littleEndian width n) value := by
  subst same
  exact (Payload.readFixed_reads fits).map convert

/-- The low half of a sign-extended number is the number. -/
theorem ofNat_signExtended (value : Int32) :
    Int32.ofNat (Int32.toInt64 value).toUInt64.toNat = value := by
  apply Int32.toBitVec_inj.mp
  have same : (Int32.ofNat (Int32.toInt64 value).toUInt64.toNat).toBitVec
      = (value.toBitVec.signExtend 64).setWidth 32 := by
    rw [← BitVec.ofNat_toNat]
    rfl
  rw [same]
  ext i inside
  have small : i < 64 := by omega
  simp only [BitVec.getElem_setWidth, BitVec.getLsbD_eq_getElem small, BitVec.getElem_signExtend,
    dif_pos inside]

theorem readString_reads {text : String} (fits : (Utf8.encode text).length ≤ maxLength) :
    readString.Reads (Payload.encode (Utf8.encode text)) text := by
  refine (Payload.reads_encode fits).bind_nil (.ofExcept ?_)
  rw [Utf8.decode_encode]
  rfl

/-- **A value of any type is read back.** -/
theorem reads_encode (type : ScalarType) (value : type.Value)
    (fits : ∀ payload ∈ type.payloads value, payload.length ≤ maxLength) :
    type.read.Reads (type.encode value) value := by
  cases type with
  | uint64 => exact varint_reads (UInt64.toNat_lt value) _ UInt64.ofNat_toNat
  | int64 =>
    exact varint_reads (UInt64.toNat_lt (Int64.toUInt64 value)) _ (by
      apply Int64.toBitVec_inj.mp
      simp)
  | uint32 =>
    exact varint_reads (Nat.lt_trans (UInt32.toNat_lt value) (by decide)) _ UInt32.ofNat_toNat
  | int32 =>
    exact varint_reads (UInt64.toNat_lt (Int32.toInt64 value).toUInt64) _ (ofNat_signExtended value)
  | sint32 =>
    exact varint_reads (Nat.lt_trans (UInt32.toNat_lt (ZigZag.encode32 value)) (by decide)) _ (by
      rw [UInt32.ofNat_toNat, ZigZag.decode32_encode32])
  | sint64 =>
    exact varint_reads (UInt64.toNat_lt (ZigZag.encode64 value)) _ (by
      rw [UInt64.ofNat_toNat, ZigZag.decode64_encode64])
  | bool =>
    exact varint_reads (Nat.lt_of_le_of_lt (Bool.toNat_le value) (by decide)) _ (by
      cases value <;> rfl)
  | fixed32 => exact fixed_reads (UInt32.toNat_lt value) _ UInt32.ofNat_toNat
  | sfixed32 =>
    exact fixed_reads (UInt32.toNat_lt (Int32.toUInt32 value)) _ (by
      apply Int32.toBitVec_inj.mp
      simp)
  | float =>
    exact fixed_reads (UInt32.toNat_lt (Binary32.bits value)) _ (by
      rw [UInt32.ofNat_toNat])
  | fixed64 => exact fixed_reads (UInt64.toNat_lt value) _ UInt64.ofNat_toNat
  | sfixed64 =>
    exact fixed_reads (UInt64.toNat_lt (Int64.toUInt64 value)) _ (by
      apply Int64.toBitVec_inj.mp
      simp)
  | double =>
    exact fixed_reads (UInt64.toNat_lt (Binary64.bits value)) _ (by
      rw [UInt64.ofNat_toNat])
  | bytes => exact Payload.reads_encode (fits value (List.mem_singleton_self _))
  | string => exact readString_reads (fits _ (List.mem_singleton_self _))

end ScalarType

end Protobuf

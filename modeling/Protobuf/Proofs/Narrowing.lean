/-
**Numbers of 32 bits travel as numbers of 64 bits.**

A field of 32 bits and one of 64 can be exchanged: what the one writes the other reads.

* `Encoder.writeScalar_uint32`, `Encoder.writeScalar_int32`, `Encoder.writeScalar_sint32`: a number of 32
  bits is written as the same number of 64 bits;
* `Varint.read_narrow_iff`: a reader of 32 bits takes what a reader of 64 bits takes, as long as it has 32
  bits and five bytes;
* `widths_agree`: both directions. A decoder has no reader of 32 bits: the types of 32 bits keep what they
  have room for of a number of 64.
-/

import Protobuf.Encoder
import Protobuf.Proofs.Alike

namespace Protobuf

/-! ### Writing -/

namespace Encoder

variable (encoder : Encoder)

theorem writeScalar_uint32 (value : UInt32) :
    encoder.writeScalar ⟨.uint32, value⟩ = encoder.writeScalar ⟨.uint64, value.toUInt64⟩ := by
  have same : value.toNat = value.toUInt64.toNat := (UInt32.toNat_toUInt64 value).symm
  exact congrArg (fun n => encoder.append (Varint.encode n)) same

theorem writeScalar_int32 (value : Int32) :
    encoder.writeScalar ⟨.int32, value⟩ = encoder.writeScalar ⟨.int64, value.toInt64⟩ := rfl

/-- Folding is the same at both widths. -/
theorem writeScalar_sint32 (value : Int32) :
    encoder.writeScalar ⟨.sint32, value⟩ = encoder.writeScalar ⟨.sint64, value.toInt64⟩ := by
  have same : (ZigZag.encode32 value).toNat = (ZigZag.encode64 value.toInt64).toNat := by
    rw [ZigZag.toNat_encode32, ZigZag.toNat_encode64, Int32.toInt_toInt64]
  exact congrArg (fun n => encoder.append (Varint.encode n)) same

end Encoder

/-! ### Reading -/

/-- **A reader of 32 bits takes what a reader of 64 bits takes**, up to 32 bits and five bytes. -/
theorem Varint.read_narrow_iff {n : Nat} {bytes rest : Bytes} :
    read 32 bytes = .ok n rest ↔
      read 64 bytes = .ok n rest ∧ n < 2 ^ 32 ∧ bytes.length ≤ rest.length + 5 := by
  simp only [read_eq_ok_iff]
  constructor
  · rintro ⟨taken, rfl, digits, fits, short⟩
    refine ⟨⟨taken, rfl, digits, by omega, by omega⟩, fits, ?_⟩
    rw [List.length_append]
    omega
  · rintro ⟨⟨taken, rfl, digits, -, -⟩, fits, few⟩
    rw [List.length_append] at few
    exact ⟨taken, rfl, digits, fits, by omega⟩

/-! ### Both -/

namespace IntegerType

theorem encode_uint32 (value : UInt32) :
    encode .uint32 value = encode .uint64 value.toUInt64 ∧
      size .uint32 value = size .uint64 value.toUInt64 := by
  have same : number .uint32 value = number .uint64 value.toUInt64 :=
    (UInt32.toNat_toUInt64 value).symm
  rw [encode_eq, encode_eq, size_eq, size_eq, same]
  exact ⟨rfl, rfl⟩

theorem read_uint32_iff {value : UInt64} {bytes rest : Bytes} :
    (∃ narrow : UInt32, narrow.toUInt64 = value ∧ read .uint32 bytes = .ok narrow rest) ↔
      read .uint64 bytes = .ok value rest ∧ value.toNat < 2 ^ 32 ∧
        bytes.length ≤ rest.length + 5 := by
  have wide : read .uint64 bytes = .ok value rest ↔ Varint.read 64 bytes = .ok value.toNat rest :=
    read_eq_ok
  have narrow (word : UInt32) :
      read .uint32 bytes = .ok word rest ↔ Varint.read 32 bytes = .ok word.toNat rest :=
    read_eq_ok
  rw [wide, ← Varint.read_narrow_iff]
  constructor
  · rintro ⟨word, rfl, taken⟩
    rw [UInt32.toNat_toUInt64]
    exact (narrow word).mp taken
  · intro taken
    obtain ⟨-, fits, -⟩ := Varint.read_narrow_iff.mp taken
    have back : value.toUInt32.toNat = value.toNat := by
      rw [UInt64.toNat_toUInt32]
      exact Nat.mod_eq_of_lt fits
    refine ⟨value.toUInt32, ?_, (narrow _).mpr (back.symm ▸ taken)⟩
    apply UInt64.toNat_inj.mp
    rw [UInt32.toNat_toUInt64, back]

end IntegerType

/-- **Numbers of 32 bits travel as numbers of 64 bits**, whichever of the two is written or read. -/
theorem widths_agree :
    (∀ (encoder : Encoder) (value : UInt32),
      encoder.writeScalar ⟨.uint32, value⟩ = encoder.writeScalar ⟨.uint64, value.toUInt64⟩ ∧
      IntegerType.encode .uint32 value = IntegerType.encode .uint64 value.toUInt64 ∧
      IntegerType.size .uint32 value = IntegerType.size .uint64 value.toUInt64) ∧
    (∀ (encoder : Encoder) (value : Int32),
      encoder.writeScalar ⟨.int32, value⟩ = encoder.writeScalar ⟨.int64, value.toInt64⟩ ∧
      encoder.writeScalar ⟨.sint32, value⟩ = encoder.writeScalar ⟨.sint64, value.toInt64⟩) ∧
    (∀ (decoder : Decoder) (type : ScalarType), type.wireType = .varint →
      Decoder.Alike (fun (x : UInt64) value => type.OfVarint x.toNat value)
        (decoder.read (ScalarType.read .uint64)) (decoder.read type.read)) ∧
    ∀ (bytes rest : Bytes) (value : UInt64),
      (∃ narrow : UInt32, narrow.toUInt64 = value ∧
        IntegerType.read .uint32 bytes = .ok narrow rest) ↔
      IntegerType.read .uint64 bytes = .ok value rest ∧ value.toNat < 2 ^ 32 ∧
        bytes.length ≤ rest.length + 5 := by
  refine ⟨fun encoder value => ?_, fun encoder value => ?_, fun decoder type framed => ?_,
    fun bytes rest value => IntegerType.read_uint32_iff⟩
  · exact ⟨encoder.writeScalar_uint32 value, IntegerType.encode_uint32 value⟩
  · exact ⟨encoder.writeScalar_int32 value, encoder.writeScalar_sint32 value⟩
  · exact Decoder.alike_of_varint framed decoder

/-- A number of 33 bits, of which a reader of 32 bits keeps the sign. -/
theorem widths_agree_sign :
    ScalarType.int32.wireType = .varint ∧
      (Decoder.ofBytes [0x80, 0x80, 0x80, 0x80, 0x18]).read (ScalarType.read .int32)
        = (.ok (-0x80000000), ⟨[0x80, 0x80, 0x80, 0x80, 0x18], []⟩) ∧
      Decoder.Alike (fun (x : UInt64) value => ScalarType.OfVarint .int32 x.toNat value)
        ((Decoder.ofBytes [0x80, 0x80, 0x80, 0x80, 0x18]).read (ScalarType.read .uint64))
        ((Decoder.ofBytes [0x80, 0x80, 0x80, 0x80, 0x18]).read (ScalarType.read .int32)) :=
  ⟨rfl, rfl, widths_agree.2.2.1 _ .int32 rfl⟩

end Protobuf

/-
**A scalar has one shortest payload.**

The shortest payloads of a type, as `ScalarType.CanonicalForm` describes them without a writer, are
those that are written.

* `ScalarType.exists_varint`, `ScalarType.exists_fixed`: where every admitted number is the word of some
  value, the payloads of a framing are those of the values;
* `ScalarType.canonicalForm_iff`: so the shortest payloads of a type are the payloads of its values, as
  far as these may be written at all;
* `ScalarType.isZero_iff`: a payload of zero bytes is that of the default;
* `WireField.heads_iff`, `WireField.holds_iff`: a field with the shortest tag is one that is written.
-/

import Protobuf.CanonicalForm
import Protobuf.Proofs.Spelling
import Protobuf.Proofs.Tables

namespace Protobuf

/-! ### Numbers of fixed width -/

namespace Bytes

theorem ofLittleEndian_lt (bytes : Bytes) : ofLittleEndian bytes < 256 ^ bytes.length := by
  induction bytes with
  | nil => exact Nat.one_pos
  | cons byte rest ih =>
    have small := byte.toNat_lt
    rw [ofLittleEndian, List.length_cons, Nat.pow_succ]
    omega

/-- Bytes are spelled by the number that they spell. -/
theorem littleEndian_ofLittleEndian (bytes : Bytes) :
    littleEndian bytes.length (ofLittleEndian bytes) = bytes := by
  induction bytes with
  | nil => rfl
  | cons byte rest ih =>
    have small := byte.toNat_lt
    have low : UInt8.ofNat (byte.toNat + 256 * ofLittleEndian rest) = byte := by
      apply UInt8.toNat_inj.mp
      rw [UInt8.toNat_ofNat']
      omega
    have high : (byte.toNat + 256 * ofLittleEndian rest) / 256 = ofLittleEndian rest := by omega
    rw [ofLittleEndian, List.length_cons, littleEndian, low, high, ih]

end Bytes

/-! ### Lengths -/

namespace Payload

/-- A content behind its shortest length is a payload that is written. -/
theorem delimits_iff {payload content : Bytes} :
    Delimits payload content ↔ content.length ≤ maxLength ∧ encode content = payload := by
  constructor
  · rintro ⟨fits, head, shortest, rfl⟩
    rw [(Varint.shortest_iff.mp shortest).2]
    exact ⟨fits, rfl⟩
  · rintro ⟨fits, rfl⟩
    have small : content.length < UInt64.size := Nat.lt_of_le_of_lt fits (by decide)
    exact ⟨fits, _, Varint.shortest_iff.mpr ⟨small, rfl⟩, rfl⟩

/-- The content of a payload is the only one. -/
theorem encode_injective {one other : Bytes} (fits : one.length ≤ maxLength)
    (fitsOther : other.length ≤ maxLength) (same : encode one = encode other) : one = other := by
  have read := reads_encode fits []
  rw [same, reads_encode fitsOther []] at read
  cases read
  rfl

end Payload

theorem Varint.encode_zero : encode 0 = [0] := by
  unfold encode
  rfl

/-- A varint of zero bytes is the number zero. -/
theorem Varint.eq_zero_of_isZero {n : Nat} (zero : Payload.IsZero (encode n)) : n = 0 := by
  unfold encode at zero
  split at zero
  · next small =>
    have byte := congrArg UInt8.toNat (zero _ List.mem_cons_self)
    rw [UInt8.toNat_ofNat'] at byte
    have nothing : n % 2 ^ 8 = 0 := byte
    omega
  · -- the first byte has its high bit set
    have byte := congrArg UInt8.toNat (zero _ List.mem_cons_self)
    rw [UInt8.toNat_ofNat'] at byte
    have nothing : (n % 128 + 128) % 2 ^ 8 = 0 := byte
    omega

/-! ### Words -/

namespace ScalarType

variable {α : Type} {payload : Bytes}

/-- A varint of a type is the word of a value, if the type carries the words of its values. -/
theorem exists_varint {carries : Nat → Prop} {word : α → Nat}
    (small : ∀ value, word value < UInt64.size)
    (image : ∀ n, n < UInt64.size → (carries n ↔ ∃ value, word value = n)) :
    (∃ n, Varint.Shortest payload n ∧ carries n) ↔
      ∃ value, Varint.encode (word value) = payload := by
  constructor
  · rintro ⟨n, shortest, carried⟩
    obtain ⟨fits, rfl⟩ := Varint.shortest_iff.mp shortest
    obtain ⟨value, rfl⟩ := (image n fits).mp carried
    exact ⟨value, rfl⟩
  · rintro ⟨value, rfl⟩
    exact ⟨word value, Varint.shortest_iff.mpr ⟨small value, rfl⟩,
      (image _ (small value)).mpr ⟨value, rfl⟩⟩

theorem exists_fixed {width : Nat} {word : α → Nat}
    (image : ∀ n, n < 256 ^ width → ∃ value, word value = n) :
    payload.length = width ↔ ∃ value, Bytes.littleEndian width (word value) = payload := by
  constructor
  · rintro rfl
    obtain ⟨value, same⟩ := image _ (Bytes.ofLittleEndian_lt payload)
    exact ⟨value, by rw [same, Bytes.littleEndian_ofLittleEndian]⟩
  · rintro ⟨value, rfl⟩
    exact Bytes.length_littleEndian _ _

theorem exists_uint64 {n : Nat} (fits : n < UInt64.size) : ∃ value : UInt64, value.toNat = n :=
  ⟨UInt64.ofNat n, UInt64.toNat_ofNat_of_lt fits⟩

theorem exists_uint32 {n : Nat} (fits : n < UInt32.size) : ∃ value : UInt32, value.toNat = n :=
  ⟨UInt32.ofNat n, UInt32.toNat_ofNat_of_lt fits⟩

theorem exists_int64 {n : Nat} (fits : n < UInt64.size) :
    ∃ value : Int64, (Int64.toUInt64 value).toNat = n := by
  obtain ⟨word, rfl⟩ := exists_uint64 fits
  exact ⟨word.toInt64, rfl⟩

theorem exists_int32 {n : Nat} (fits : n < UInt32.size) :
    ∃ value : Int32, (Int32.toUInt32 value).toNat = n := by
  obtain ⟨word, rfl⟩ := exists_uint32 fits
  exact ⟨word.toInt32, rfl⟩

/-- The 64-bit two's complement of a signed 32-bit number. -/
theorem toNat_signExtended (value : Int32) :
    (Int32.toInt64 value).toUInt64.toNat
      = (Int32.toUInt32 value).toNat
        + if 0x80000000 ≤ (Int32.toUInt32 value).toNat then 0xFFFFFFFF00000000 else 0 := by
  have small : value.toBitVec.toNat < 2 ^ 64 := Nat.lt_trans value.toBitVec.isLt (by decide)
  have extended : (value.toBitVec.signExtend 64).toNat
      = value.toBitVec.toNat + if value.toBitVec.msb then 2 ^ 64 - 2 ^ 32 else 0 := by
    rw [BitVec.toNat_signExtend, BitVec.toNat_setWidth, Nat.mod_eq_of_lt small]
  have sign : value.toBitVec.msb = decide (0x80000000 ≤ value.toBitVec.toNat) := BitVec.msb_eq_decide _
  rw [sign] at extended
  simp only [decide_eq_true_eq] at extended
  exact extended

/-- The words of signed 32-bit numbers are those next to zero, from above and from below. -/
theorem exists_signExtended {n : Nat} (fits : n < UInt64.size) :
    (n < 0x80000000 ∨ 0xFFFFFFFF80000000 ≤ n) ↔
      ∃ value : Int32, (Int32.toInt64 value).toUInt64.toNat = n := by
  have top : UInt64.size = 0x10000000000000000 := rfl
  constructor
  · rintro (low | high)
    · obtain ⟨value, rfl⟩ := exists_int32 (Nat.lt_trans low (by decide))
      exact ⟨value, by rw [toNat_signExtended, if_neg (Nat.not_le_of_lt low)]; rfl⟩
    · obtain ⟨value, same⟩ := exists_int32 (n := n - 0xFFFFFFFF00000000) (by
        show n - 0xFFFFFFFF00000000 < 0x100000000
        omega)
      refine ⟨value, ?_⟩
      rw [toNat_signExtended, same, if_pos (by omega)]
      omega
  · rintro ⟨value, rfl⟩
    have small := UInt32.toNat_lt (Int32.toUInt32 value)
    rw [toNat_signExtended]
    split <;> omega

/-! ### Payloads -/

theorem canonicalForm_iff_of_bare {type : ScalarType} (bare : type.wireType ≠ .lengthDelimited) :
    type.CanonicalForm payload ↔ ∃ value : type.Value, type.encode value = payload := by
  cases type with
  | uint64 =>
    exact exists_varint UInt64.toNat_lt fun n fits => iff_of_true trivial (exists_uint64 fits)
  | int64 =>
    exact exists_varint (fun value => UInt64.toNat_lt (Int64.toUInt64 value))
      fun n fits => iff_of_true trivial (exists_int64 fits)
  | uint32 =>
    refine exists_varint (fun value => Nat.lt_trans (UInt32.toNat_lt value) (by decide))
      fun n _ => ⟨exists_uint32, ?_⟩
    rintro ⟨value, rfl⟩
    exact UInt32.toNat_lt value
  | int32 =>
    exact exists_varint (fun value => UInt64.toNat_lt (Int32.toInt64 value).toUInt64)
      fun n fits => exists_signExtended fits
  | sint32 =>
    refine exists_varint
      (fun value => Nat.lt_trans (UInt32.toNat_lt (ZigZag.encode32 value)) (by decide))
      fun n _ => ⟨fun small => ?_, ?_⟩
    · obtain ⟨folded, rfl⟩ := exists_uint32 small
      exact ⟨ZigZag.decode32 folded, by rw [ZigZag.encode32_decode32]⟩
    · rintro ⟨value, rfl⟩
      exact UInt32.toNat_lt (ZigZag.encode32 value)
  | sint64 =>
    refine exists_varint (fun value => UInt64.toNat_lt (ZigZag.encode64 value))
      fun n fits => iff_of_true trivial ?_
    obtain ⟨folded, rfl⟩ := exists_uint64 fits
    exact ⟨ZigZag.decode64 folded, by rw [ZigZag.encode64_decode64]⟩
  | bool =>
    refine exists_varint (fun value => Nat.lt_of_le_of_lt (Bool.toNat_le value) (by decide))
      fun n _ => ⟨fun small => ?_, ?_⟩
    · have zero_or_one : n = 0 ∨ n = 1 := by
        have : n < 2 := small
        omega
      rcases zero_or_one with rfl | rfl
      · exact ⟨false, rfl⟩
      · exact ⟨true, rfl⟩
    · rintro ⟨value, rfl⟩
      exact Nat.lt_succ_of_le (Bool.toNat_le value)
  | fixed32 => exact exists_fixed fun n fits => exists_uint32 fits
  | sfixed32 => exact exists_fixed fun n fits => exists_int32 fits
  | float =>
    refine exists_fixed fun n fits => ?_
    obtain ⟨bits, rfl⟩ := exists_uint32 fits
    exact ⟨⟨bits⟩, rfl⟩
  | fixed64 => exact exists_fixed fun n fits => exists_uint64 fits
  | sfixed64 => exact exists_fixed fun n fits => exists_int64 fits
  | double =>
    refine exists_fixed fun n fits => ?_
    obtain ⟨bits, rfl⟩ := exists_uint64 fits
    exact ⟨⟨bits⟩, rfl⟩
  | bytes => exact absurd rfl bare
  | string => exact absurd rfl bare

/-- **The shortest payloads of a type are those of its values.** -/
theorem canonicalForm_iff (type : ScalarType) :
    type.CanonicalForm payload ↔ ∃ value : type.Value,
      type.encode value = payload ∧ ∀ inner ∈ type.payloads value, inner.length ≤ maxLength := by
  by_cases framed : type.wireType = .lengthDelimited
  · cases type with
    | bytes =>
      show (∃ content, Payload.Delimits payload content ∧ True) ↔ _
      simp only [Payload.delimits_iff, payloads, List.forall_mem_singleton, encode, and_true]
      exact exists_congr fun _ => And.comm
    | string =>
      show (∃ content, Payload.Delimits payload content ∧ ∃ text, Utf8.encode text = content) ↔ _
      simp only [Payload.delimits_iff, payloads, List.forall_mem_singleton, encode]
      constructor
      · rintro ⟨_, ⟨fits, rfl⟩, text, rfl⟩
        exact ⟨text, rfl, fits⟩
      · rintro ⟨text, rfl, fits⟩
        exact ⟨_, ⟨fits, rfl⟩, text, rfl⟩
    | _ => cases framed
  · rw [canonicalForm_iff_of_bare framed]
    exact exists_congr fun value => (and_iff_left (Kind.fits_of_bare framed value)).symm

/-- Values with the same payload are the same. -/
theorem encode_injective {type : ScalarType} {one other : type.Value}
    (fits : ∀ inner ∈ type.payloads one, inner.length ≤ maxLength)
    (fitsOther : ∀ inner ∈ type.payloads other, inner.length ≤ maxLength)
    (same : type.encode one = type.encode other) : one = other := by
  have read := type.reads_encode one fits []
  rw [same, type.reads_encode other fitsOther []] at read
  cases read
  rfl

/-- The payload of the default, by the framing of the type. -/
theorem encode_default (type : ScalarType) :
    type.encode type.default = match type.wireType with
      | .varint => [0]
      | .fixed64 => List.replicate 8 0
      | .lengthDelimited => [0]
      | .fixed32 => List.replicate 4 0 := by
  cases type <;> decide +kernel

theorem eq_encode_default {type : ScalarType} (zero : Payload.IsZero payload)
    (form : type.CanonicalForm payload) : payload = type.encode type.default := by
  rw [encode_default]
  unfold CanonicalForm at form
  cases framed : type.wireType with
  | varint =>
    rw [framed] at form
    obtain ⟨n, shortest, -⟩ := form
    obtain ⟨-, rfl⟩ := Varint.shortest_iff.mp shortest
    rw [Varint.eq_zero_of_isZero zero, Varint.encode_zero]
  | fixed64 =>
    rw [framed] at form
    exact List.eq_replicate_iff.mpr ⟨form, zero⟩
  | lengthDelimited =>
    rw [framed] at form
    obtain ⟨content, delimits, -⟩ := form
    obtain ⟨-, rfl⟩ := Payload.delimits_iff.mp delimits
    have nothing : content = [] := List.length_eq_zero_iff.mp
      (Varint.eq_zero_of_isZero fun byte member => zero byte (List.mem_append_left _ member))
    rw [nothing]
    show Varint.encode 0 ++ [] = [0]
    rw [Varint.encode_zero]
    rfl
  | fixed32 =>
    rw [framed] at form
    exact List.eq_replicate_iff.mpr ⟨form, zero⟩

/-- **A payload of zero bytes is that of the default.** -/
theorem isZero_iff {type : ScalarType} {value : type.Value}
    (fits : ∀ inner ∈ type.payloads value, inner.length ≤ maxLength) :
    Payload.IsZero (type.encode value) ↔ value = type.default := by
  constructor
  · intro zero
    have same := eq_encode_default zero (type.canonicalForm_iff.mpr ⟨value, rfl, fits⟩)
    refine encode_injective fits (fun inner member => ?_) same
    rw [length_of_mem_payloads_default member]
    exact Nat.zero_le _
  · rintro rfl
    rw [encode_default]
    cases type.wireType with
    | varint => exact fun byte member => List.mem_singleton.mp member
    | fixed64 => exact fun byte member => List.eq_of_mem_replicate member
    | lengthDelimited => exact fun byte member => List.mem_singleton.mp member
    | fixed32 => exact fun byte member => List.eq_of_mem_replicate member

end ScalarType

/-! ### Fields -/

/-- The field that holds a scalar. -/
def Scalar.wireField (number : Nat) (scalar : Scalar) : WireField :=
  ⟨Tag.encode number scalar.type.wireType, ⟨number, scalar.type.wireType.id⟩, scalar.encode⟩

namespace WireField

variable {field : WireField} {number : Nat}

/-- The shortest tag is the one that is written. -/
theorem heads_iff {wire : WireType} (most : number ≤ maxFieldNumber) :
    field.Heads number wire ↔
      field.tag = ⟨number, wire.id⟩ ∧ field.head = Tag.encode number wire := by
  have bits : wire.id < 8 := by cases wire <;> decide
  have small : Tag.raw number wire < UInt64.size := by
    have top : UInt64.size = 0x10000000000000000 := rfl
    unfold maxFieldNumber at most
    unfold Tag.raw
    omega
  constructor
  · rintro ⟨tag, head⟩
    exact ⟨tag, (Varint.shortest_iff.mp head).2⟩
  · rintro ⟨tag, head⟩
    exact ⟨tag, Varint.shortest_iff.mpr ⟨small, head⟩⟩

/-- **A field that holds a scalar is the field of a value.** -/
theorem holds_iff {type : ScalarType} (most : number ≤ maxFieldNumber) :
    field.Holds number type ↔ ∃ value : type.Value, Scalar.wireField number ⟨type, value⟩ = field ∧
      ∀ inner ∈ type.payloads value, inner.length ≤ maxLength := by
  constructor
  · rintro ⟨heads, payload⟩
    obtain ⟨tag, head⟩ := (heads_iff most).mp heads
    obtain ⟨value, body, fits⟩ := type.canonicalForm_iff.mp payload
    refine ⟨value, ?_, fits⟩
    obtain ⟨_, _, _⟩ := field
    cases tag
    cases head
    cases body
    rfl
  · rintro ⟨value, rfl, fits⟩
    exact ⟨(heads_iff most).mpr ⟨rfl, rfl⟩, type.canonicalForm_iff.mpr ⟨value, rfl, fits⟩⟩

end WireField

end Protobuf

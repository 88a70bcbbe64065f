/-
**How many bytes a number takes, and a value that was read.**

Varints are longer the larger the number, and a value is written in no more bytes than it was read off.
The one exception are negative numbers of 32 bits, which are read off five bytes or more and take ten.

* `Varint.length_encode_mono`, `Varint.length_encode_add_le`: the length of a varint grows with the
  number, and the length for a sum is at most the sum of the lengths;
* `Varint.spells_of_read`, `Varint.length_encode_le_of_read`: a number is read off nothing but its
  spellings, so off as many bytes as it is written in, at least;
* `Tag.width`: the number of bytes of a tag, in which the framing has no part;
* `ScalarType.length_encode_le_of_read`: three bytes of a value that is written again are paid for by
  seven of the bytes that it was read off.
-/

import Protobuf.Proofs.CanonicalScalar
import Protobuf.Proofs.Safety
import Protobuf.Proofs.Skipping

namespace Protobuf

/-! ### Varints -/

namespace Varint

theorem length_encode_pos (n : Nat) : 1 ≤ (encode n).length := by
  unfold encode
  split
  · exact Nat.le_refl 1
  · exact Nat.le_add_left _ _

theorem lt_pow_length_encode (n : Nat) : n < 128 ^ (encode n).length := by
  fun_induction encode n with
  | case1 n small => simpa using small
  | case2 n large ih =>
    rw [List.length_cons, Nat.pow_succ]
    exact (Nat.div_lt_iff_lt_mul (by decide)).mp ih

theorem length_encode_le_of_lt_pow {n digits : Nat} (positive : 1 ≤ digits) (fits : n < 128 ^ digits) :
    (encode n).length ≤ digits := by
  obtain ⟨fewer, rfl⟩ := Nat.exists_eq_add_of_le' positive
  exact length_encode_le fits

theorem length_encode_mono {m n : Nat} (le : m ≤ n) : (encode m).length ≤ (encode n).length :=
  length_encode_le_of_lt_pow (length_encode_pos n) (Nat.lt_of_le_of_lt le (lt_pow_length_encode n))

/-- **The length of a sum is at most the sum of the lengths.** -/
theorem length_encode_add_le (m n : Nat) :
    (encode (m + n)).length ≤ (encode m).length + (encode n).length := by
  refine length_encode_le_of_lt_pow (Nat.le_add_right_of_le (length_encode_pos m)) ?_
  have one := lt_pow_length_encode m
  have two := lt_pow_length_encode n
  have base : (128 : Nat) ≤ 128 ^ (encode m).length := Nat.le_pow (length_encode_pos m)
  have other : (128 : Nat) ≤ 128 ^ (encode n).length := Nat.le_pow (length_encode_pos n)
  calc m + n < 128 ^ (encode m).length + 128 ^ (encode n).length := Nat.add_lt_add one two
    _ ≤ 128 ^ (encode m).length * 128 ^ (encode n).length :=
      Nat.add_le_mul (Nat.le_trans (by decide) base) (Nat.le_trans (by decide) other)
    _ = 128 ^ ((encode m).length + (encode n).length) := (Nat.pow_add _ _ _).symm

/-- Seven more bits take one more byte. -/
theorem length_encode_le_succ {m n : Nat} (le : m ≤ 128 * n) :
    (encode m).length ≤ (encode n).length + 1 := by
  refine length_encode_le_of_lt_pow (Nat.le_add_left 1 _) ?_
  have bound := lt_pow_length_encode n
  rw [Nat.pow_succ]
  omega

/-- What is read on is spelled by the bytes that are taken, and fits the width that is left. -/
theorem spelled_of_readFrom {width shift value result : Nat} {bytes unread : Bytes}
    (read : readFrom width shift value bytes = .ok result unread) :
    ∃ taken n, bytes = taken ++ unread ∧ spelled taken = some n ∧ n < 2 ^ (width - shift) ∧
      shift + 7 * taken.length < width + 7 ∧ result = value + n <<< shift := by
  induction bytes generalizing shift value with
  | nil => cases read
  | cons byte rest ih =>
    simp only [readFrom] at read
    split at read
    · cases read
    next room =>
    split at read
    · cases read
    next admitted =>
    split at read
    · next last =>
      cases read
      refine ⟨[byte], byte.toNat, rfl, spelled_last last, ?_, ?_, rfl⟩
      · by_cases few : width - shift ≤ 7
        · exact bitLength_le_iff.mp (Nat.le_of_not_lt fun long => admitted ⟨few, long⟩)
        · exact Nat.lt_of_lt_of_le last (Nat.pow_le_pow_right Nat.two_pos (Nat.le_of_not_le few))
      · rw [List.length_singleton]
        omega
    · next goes_on =>
      obtain ⟨taken, high, rfl, upper, small, short, rfl⟩ := ih read
      -- a byte with its high bit set has more digits than the last byte may have
      have digits := le_bitLength (Nat.le_of_not_lt goes_on)
      have more_bits : width - shift = 7 + (width - (shift + 7)) := by omega
      refine ⟨byte :: taken, byte.toNat % 128 + 128 * high, rfl, ?_, ?_, ?_, ?_⟩
      · exact spelled_digit goes_on upper
      · rw [more_bits, Nat.pow_add]
        omega
      · rw [List.length_cons]
        omega
      · rw [Nat.shiftLeft_eq, Nat.shiftLeft_eq, Nat.shiftLeft_eq, Nat.pow_add, Nat.add_mul,
          Nat.mul_comm 128, Nat.mul_assoc, Nat.mul_comm (2 ^ shift), Nat.add_assoc]

/-- **A number is read off its spellings alone.** -/
theorem spells_of_read {n : Nat} {bytes unread : Bytes} (taken : read 64 bytes = .ok n unread) :
    ∃ front, bytes = front ++ unread ∧ Spells front n := by
  obtain ⟨front, digits, same, spells, fits, short, rfl⟩ := spelled_of_readFrom taken
  rw [Nat.zero_add, Nat.shiftLeft_zero]
  exact ⟨front, same, spells, fits, by omega⟩

/-- It is read off as many bytes as it is written in, at least. -/
theorem length_encode_le_of_read {n : Nat} {bytes unread : Bytes}
    (taken : read 64 bytes = .ok n unread) : (encode n).length + unread.length ≤ bytes.length := by
  obtain ⟨front, rfl, spells⟩ := spells_of_read taken
  rw [List.length_append]
  exact Nat.add_le_add_right (length_encode_of_spelled spells.digits).1 _

end Varint

/-! ### Tags -/

namespace Tag

/-- The number of bytes of the tag of a field. -/
def width (number : Nat) : Nat := (Varint.encode (number * 8)).length

theorem width_pos (number : Nat) : 1 ≤ width number :=
  Varint.length_encode_pos _

/-- The framing has no part in it. -/
theorem length_encode (number : Nat) (wire : WireType) : (encode number wire).length = width number := by
  refine Nat.le_antisymm ?_ (Varint.length_encode_mono (Nat.le_add_right _ _))
  refine Varint.length_encode_le_of_lt_pow (width_pos number) ?_
  have bits : wire.id < 8 := by cases wire <;> decide
  have below : number * 8 < 128 ^ width number := Varint.lt_pow_length_encode _
  obtain ⟨digits, more⟩ := Nat.exists_eq_add_of_le' (width_pos number)
  rw [more, Nat.pow_succ] at below ⊢
  unfold raw
  omega

/-- A number of more than four bits does not fit the first byte. -/
theorem two_le_width {number : Nat} (large : 16 ≤ number) : 2 ≤ width number := by
  have below : number * 8 < 128 ^ width number := Varint.lt_pow_length_encode _
  have positive := width_pos number
  refine Nat.le_of_not_lt fun short => ?_
  rw [show width number = 1 by omega] at below
  omega

/-- No tag is read off fewer bytes. -/
theorem width_le_of_read {bytes unread : Bytes} {tag : Tag} (taken : read bytes = .ok tag unread) :
    width tag.number + unread.length ≤ bytes.length := by
  obtain ⟨raw, between, one, two⟩ := Reader.bind_eq_ok.mp taken
  have whole := Varint.length_encode_le_of_read one
  unfold ofRaw at two
  split at two
  · cases two
  · cases two
    have shorter : width (raw / 8) ≤ (Varint.encode raw).length :=
      Varint.length_encode_mono (Nat.div_mul_le_self raw 8)
    show width (raw / 8) + _ ≤ _
    omega

end Tag

/-! ### Payloads -/

/-- A payload is read off its bytes and the bytes of their number, at least. -/
theorem Payload.length_encode_le_of_read {bytes payload unread : Bytes}
    (taken : read bytes = .ok payload unread) :
    (encode payload).length + unread.length ≤ bytes.length := by
  obtain ⟨header, announces, rfl⟩ := announces_of_read taken
  have length := announces.length []
  rw [List.append_nil] at length
  have shorter := Varint.length_encode_le_of_read length
  simp only [encode, List.length_append, List.length_nil] at shorter ⊢
  omega

/-! ### Values -/

namespace ScalarType

variable {α : Type} {bytes unread : Bytes}

/-- A number is written again in no more bytes, if its word is not larger than what was read. -/
theorem length_le_of_varint {convert : Nat → α} (word : α → Nat) (small : ∀ n, word (convert n) ≤ n)
    {value : α} (taken : (convert <$> Varint.read 64) bytes = .ok value unread) :
    (Varint.encode (word value)).length + unread.length ≤ bytes.length := by
  obtain ⟨n, read, rfl⟩ := Reader.map_eq_ok.mp taken
  have shorter := Varint.length_encode_mono (small n)
  have whole := Varint.length_encode_le_of_read read
  omega

/-- A number of fixed width is read off that many bytes. -/
theorem length_of_fixed {width : Nat} {convert : Nat → α} {value : α}
    (taken : (convert <$> Payload.readFixed width) bytes = .ok value unread) :
    width + unread.length = bytes.length := by
  obtain ⟨n, read, -⟩ := Reader.map_eq_ok.mp taken
  obtain ⟨front, between, found, rest⟩ := Reader.bind_eq_ok.mp read
  cases rest
  obtain ⟨rfl, rfl⟩ := Reader.exactly_eq_ok.mp found
  rw [List.length_append]

/-- A negative number of 32 bits takes ten bytes, and is read off five at least. -/
theorem length_of_int32 {value : Int32} (taken : read .int32 bytes = .ok value unread) :
    (encode .int32 value).length + unread.length ≤ bytes.length ∨
      (encode .int32 value).length ≤ 10 ∧ 5 + unread.length ≤ bytes.length := by
  obtain ⟨n, read, rfl⟩ := Reader.map_eq_ok.mp taken
  have whole := Varint.length_encode_le_of_read read
  have low : (Int32.toUInt32 (Int32.ofNat n)).toNat = n % 2 ^ 32 := rfl
  have word := toNat_signExtended (Int32.ofNat n)
  rw [low] at word
  simp only [encode]
  by_cases negative : 0x80000000 ≤ n % 2 ^ 32
  · right
    have large : 128 ^ 4 < 128 ^ (Varint.encode n).length := by
      have := Varint.lt_pow_length_encode n
      omega
    have five : 4 < (Varint.encode n).length := (Nat.pow_lt_pow_iff_right (by decide)).mp large
    refine ⟨Varint.length_encode_le ?_, by omega⟩
    exact Nat.lt_trans (UInt64.toNat_lt _) (by decide)
  · left
    rw [if_neg negative] at word
    have shorter := Varint.length_encode_mono
      (show (Int32.toInt64 (Int32.ofNat n)).toUInt64.toNat ≤ n by omega)
    omega

/-- **A value is written again in at most seven thirds of the bytes that it was read off.** -/
theorem length_encode_le_of_read (type : ScalarType) {value : type.Value}
    (taken : type.read bytes = .ok value unread) :
    3 * (type.encode value).length + 7 * unread.length ≤ 7 * bytes.length := by
  have enough {length : Nat} (le : length + unread.length ≤ bytes.length) :
      3 * length + 7 * unread.length ≤ 7 * bytes.length := by
    omega
  have fixed {width : Nat} (same : width + unread.length = bytes.length) (n : Nat) :
      3 * (Bytes.littleEndian width n).length + 7 * unread.length ≤ 7 * bytes.length := by
    rw [Bytes.length_littleEndian]
    omega
  cases type with
  | uint64 => exact enough (length_le_of_varint UInt64.toNat (fun n => Nat.mod_le n _) taken)
  | int64 =>
    exact enough (length_le_of_varint (fun value => (Int64.toUInt64 value).toNat)
      (fun n => Nat.mod_le n _) taken)
  | uint32 => exact enough (length_le_of_varint UInt32.toNat (fun n => Nat.mod_le n _) taken)
  | int32 => rcases length_of_int32 taken with le | ⟨ten, five⟩ <;> omega
  | sint32 =>
    refine enough (length_le_of_varint (fun value => (ZigZag.encode32 value).toNat) (fun n => ?_) taken)
    rw [ZigZag.encode32_decode32]
    exact Nat.mod_le n _
  | sint64 =>
    refine enough (length_le_of_varint (fun value => (ZigZag.encode64 value).toNat) (fun n => ?_) taken)
    rw [ZigZag.encode64_decode64]
    exact Nat.mod_le n _
  | bool =>
    refine enough (length_le_of_varint Bool.toNat (fun n => ?_) taken)
    cases n <;> simp
  | fixed32 => exact fixed (length_of_fixed taken) _
  | sfixed32 => exact fixed (length_of_fixed taken) _
  | float => exact fixed (length_of_fixed taken) _
  | fixed64 => exact fixed (length_of_fixed taken) _
  | sfixed64 => exact fixed (length_of_fixed taken) _
  | double => exact fixed (length_of_fixed taken) _
  | bytes => exact enough (Payload.length_encode_le_of_read taken)
  | string => exact enough (Payload.length_encode_le_of_read (readString_eq_ok.mp taken))

/-- Without a length before it, a value takes ten bytes at most. -/
theorem length_encode_le_of_bare {type : ScalarType} (bare : type.wireType ≠ .lengthDelimited)
    (value : type.Value) : (type.encode value).length ≤ 10 := by
  have varint {n : Nat} (fits : n < 2 ^ 64) : (Varint.encode n).length ≤ 10 :=
    Varint.length_encode_le (Nat.lt_trans fits (by decide))
  have fixed {width : Nat} (small : width ≤ 10) (n : Nat) :
      (Bytes.littleEndian width n).length ≤ 10 := by
    rwa [Bytes.length_littleEndian]
  cases type with
  | uint64 => exact varint (UInt64.toNat_lt value)
  | int64 => exact varint (UInt64.toNat_lt (Int64.toUInt64 value))
  | uint32 => exact varint (Nat.lt_trans (UInt32.toNat_lt value) (by decide))
  | int32 => exact varint (UInt64.toNat_lt (Int32.toInt64 value).toUInt64)
  | sint32 => exact varint (Nat.lt_trans (UInt32.toNat_lt (ZigZag.encode32 value)) (by decide))
  | sint64 => exact varint (UInt64.toNat_lt (ZigZag.encode64 value))
  | bool => exact varint (Nat.lt_of_le_of_lt (Bool.toNat_le value) (by decide))
  | fixed32 => exact fixed (by decide) _
  | sfixed32 => exact fixed (by decide) _
  | float => exact fixed (by decide) _
  | fixed64 => exact fixed (by decide) _
  | sfixed64 => exact fixed (by decide) _
  | double => exact fixed (by decide) _
  | bytes => exact absurd rfl bare
  | string => exact absurd rfl bare

end ScalarType

end Protobuf

/-
**Every spelling of a number is read as that number.**

* `Varint.spelled_induction`: a spelling is a last byte, behind digits that have their high bit set;
* `Varint.Spells.reads`: a varint in any spelling is read as its number, whatever follows it;
* `Varint.shortest_iff`: the shortest spelling of a number is the one that is written;
* `Tag.reads_spelled`, `Payload.reads_spelled`: so are tags, and the lengths of payloads;
* `WireField.Complete.reads`, `WireField.Complete.skips`: the tag of a complete field is read, and its
  payload is skipped, to their ends.
-/

import Protobuf.Spelling
import Protobuf.Proofs.ReadBack

namespace Protobuf

namespace Varint

/-! ### The shortest spelling -/

theorem spelled_encode (n : Nat) : spelled (encode n) = some n := by
  fun_induction encode n with
  | case1 n small =>
    have byte : (UInt8.ofNat n).toNat = n := by
      rw [UInt8.toNat_ofNat']
      omega
    simp only [spelled, byte, if_pos small, if_true]
  | case2 n large ih =>
    have byte : (UInt8.ofNat (n % 128 + 128)).toNat = n % 128 + 128 := by
      rw [UInt8.toNat_ofNat']
      omega
    have whole : (n % 128 + 128) % 128 + 128 * (n / 128) = n := by omega
    simp only [spelled, byte, ih, if_neg (show ¬ n % 128 + 128 < 128 by omega), Option.map_some, whole]

theorem length_encode_le {n digits : Nat} (fits : n < 128 ^ (digits + 1)) :
    (encode n).length ≤ digits + 1 := by
  induction digits generalizing n with
  | zero =>
    rw [encode, if_pos (by simpa using fits)]
    exact Nat.le_refl 1
  | succ digits ih =>
    rw [encode]
    split
    · exact Nat.le_add_left _ _
    · have rest : n / 128 < 128 ^ (digits + 1) := by
        rw [Nat.pow_succ] at fits
        exact Nat.div_lt_of_lt_mul (by omega)
      exact Nat.succ_le_succ (ih rest)

theorem Spells.encode {n : Nat} (fits : n < UInt64.size) : Spells (encode n) n where
  digits := spelled_encode n
  fits := fits
  short := length_encode_le (Nat.lt_trans fits (by decide))

theorem spelled_last {byte : UInt8} (last : byte.toNat < 128) : spelled [byte] = some byte.toNat := by
  rw [spelled, if_pos last, if_pos rfl]

theorem spelled_digit {byte : UInt8} {rest : Bytes} {high : Nat} (goes_on : ¬ byte.toNat < 128)
    (upper : spelled rest = some high) :
    spelled (byte :: rest) = some (byte.toNat % 128 + 128 * high) := by
  rw [spelled, if_neg goes_on, upper, Option.map_some]

/-- **Induction on a spelling**, from its last byte on. -/
@[elab_as_elim]
theorem spelled_induction {motive : (bytes : Bytes) → (n : Nat) → spelled bytes = some n → Prop}
    (last : ∀ (byte : UInt8) (last : byte.toNat < 128), motive [byte] byte.toNat (spelled_last last))
    (digit : ∀ (byte : UInt8) (rest : Bytes) (high : Nat) (goes_on : ¬ byte.toNat < 128)
      (upper : spelled rest = some high), motive rest high upper →
        motive (byte :: rest) (byte.toNat % 128 + 128 * high) (spelled_digit goes_on upper))
    {bytes : Bytes} {n : Nat} (digits : spelled bytes = some n) : motive bytes n digits := by
  induction bytes generalizing n with
  | nil => cases digits
  | cons byte rest ih =>
    have spells := digits
    rw [spelled] at spells
    split at spells
    · next small =>
      split at spells
      · next nothing =>
        cases spells
        subst nothing
        exact last byte small
      · cases spells
    · next goes_on =>
      obtain ⟨high, upper, rfl⟩ := Option.map_eq_some_iff.mp spells
      exact digit byte rest high goes_on upper (ih upper)

theorem length_pos_of_spelled {bytes : Bytes} {n : Nat} (digits : spelled bytes = some n) :
    0 < bytes.length := by
  cases bytes with
  | nil => cases digits
  | cons _ _ => exact Nat.succ_pos _

/-- A digit is written before digits that are not all zero. -/
theorem encode_digit {byte : UInt8} {high : Nat} (goes_on : ¬ byte.toNat < 128) (more : high ≠ 0) :
    encode (byte.toNat % 128 + 128 * high) = byte :: encode high := by
  have small := byte.toNat_lt
  have low : (byte.toNat % 128 + 128 * high) % 128 + 128 = byte.toNat := by omega
  have div : (byte.toNat % 128 + 128 * high) / 128 = high := by omega
  rw [encode, if_neg (by omega), low, div, UInt8.ofNat_toNat]

/-- What is written is shorter than any other spelling. -/
theorem length_encode_of_spelled {bytes : Bytes} {n : Nat} (digits : spelled bytes = some n) :
    (encode n).length ≤ bytes.length ∧ (bytes.length ≤ (encode n).length → bytes = encode n) := by
  induction digits using spelled_induction with
  | last byte last =>
    rw [encode, if_pos last, UInt8.ofNat_toNat]
    exact ⟨Nat.le_refl _, fun _ => rfl⟩
  | digit byte rest high goes_on upper ih =>
    obtain ⟨least, unique⟩ := ih
    by_cases zero : high = 0
    · -- a highest digit of zero is left out
      have short : byte.toNat % 128 + 128 * high < 128 := by omega
      have longer := length_pos_of_spelled upper
      rw [encode, if_pos short]
      simp only [List.length_cons, List.length_nil]
      exact ⟨by omega, fun few => absurd few (by omega)⟩
    · rw [encode_digit goes_on zero]
      simp only [List.length_cons]
      exact ⟨Nat.succ_le_succ least, fun few => by rw [unique (Nat.le_of_succ_le_succ few)]⟩

/-- **The shortest spelling is the one that is written.** -/
theorem shortest_iff {bytes : Bytes} {n : Nat} :
    Shortest bytes n ↔ n < UInt64.size ∧ bytes = encode n := by
  constructor
  · rintro ⟨spells, least⟩
    exact ⟨spells.fits, (length_encode_of_spelled spells.digits).2 (least _ (.encode spells.fits))⟩
  · rintro ⟨fits, rfl⟩
    exact ⟨.encode fits, fun other spells => (length_encode_of_spelled spells.digits).1⟩

/-! ### Reading -/

/-- Reading goes on from a shift as if the digits below it were read already. -/
theorem readFrom_spelled {width shift value n : Nat} {bytes : Bytes}
    (digits : spelled bytes = some n) (fits : n < 2 ^ (width - shift))
    (short : shift + 7 * bytes.length < width + 7) (more : Bytes) :
    readFrom width shift value (bytes ++ more) = .ok (value + n <<< shift) more := by
  induction digits using spelled_induction generalizing shift value with
  | last byte last =>
    rw [List.length_singleton] at short
    have room : ¬ width ≤ shift := by omega
    have admitted : ¬ (width - shift ≤ 7 ∧ width - shift < bitLength byte.toNat) :=
      fun ⟨_, long⟩ => Nat.not_le_of_lt long (bitLength_le_iff.mpr fits)
    simp only [List.singleton_append, readFrom, if_neg room, if_neg admitted, if_pos last]
  | digit byte rest high goes_on upper ih =>
    rw [List.length_cons] at short
    have room : ¬ width ≤ shift := by omega
    -- digits follow, so that there is room for more than seven bits
    have longer := length_pos_of_spelled upper
    have more_bits : 7 < width - shift := by omega
    have small : high < 2 ^ (width - (shift + 7)) := by
      have scaled : 128 * high < 128 * 2 ^ (width - (shift + 7)) := calc
        128 * high ≤ byte.toNat % 128 + 128 * high := Nat.le_add_left _ _
        _ < 2 ^ (width - shift) := fits
        _ = 2 ^ (7 + (width - (shift + 7))) := by congr 1; omega
        _ = 128 * 2 ^ (width - (shift + 7)) := by rw [Nat.pow_add]
      exact Nat.lt_of_mul_lt_mul_left scaled
    simp only [List.cons_append, readFrom, if_neg room, if_neg goes_on,
      if_neg fun both : width - shift ≤ 7 ∧ _ => Nat.not_lt_of_le both.1 more_bits]
    rw [ih small (by omega)]
    have weight : (byte.toNat % 128) <<< shift + high <<< (shift + 7)
        = (byte.toNat % 128 + 128 * high) <<< shift := by
      rw [Nat.shiftLeft_eq, Nat.shiftLeft_eq, Nat.shiftLeft_eq, Nat.pow_add, Nat.add_mul,
        Nat.mul_comm 128, Nat.mul_assoc, Nat.mul_comm (2 ^ shift)]
    rw [Nat.add_assoc, weight]

/-- **A number is read from any spelling.** -/
theorem Spells.reads {bytes : Bytes} {n : Nat} (spells : Spells bytes n) :
    (read 64).Reads bytes n := by
  intro more
  have short : 0 + 7 * bytes.length < 64 + 7 := by
    have := spells.short
    omega
  rw [read, readFrom_spelled spells.digits spells.fits short]
  simp

end Varint

theorem Tag.reads_spelled {head : Bytes} {number wire : Nat} (bits : wire < 8)
    (least : 1 ≤ number) (most : number ≤ maxFieldNumber)
    (spells : Varint.Spells head (number * 8 + wire)) : Tag.read.Reads head ⟨number, wire⟩ := by
  refine spells.reads.bind_nil (.ofExcept ?_)
  have high : (number * 8 + wire) / 8 = number := by omega
  have low : (number * 8 + wire) % 8 = wire := by omega
  have admitted : ¬ (number = 0 ∨ maxFieldNumber < number) := by omega
  rw [Tag.ofRaw, high, low, if_neg admitted]

theorem Payload.reads_spelled {head content : Bytes} (spells : Varint.Spells head content.length)
    (fits : content.length ≤ maxLength) : Payload.read.Reads (head ++ content) content :=
  Announces.reads ⟨spells.reads, fits⟩

/-- A complete payload is skipped, and nothing behind it. -/
theorem Payload.Complete.skips {payload : Bytes} {wire : WireType}
    (complete : Payload.Complete payload wire) : (Payload.skip wire.id).Reads payload () := by
  cases wire with
  | varint =>
    obtain ⟨n, spells⟩ := complete
    exact spells.reads.bind_nil (.pure ())
  | fixed64 =>
    show (discard 8).Reads payload ()
    rw [discard_eq, ← show payload.length = 8 from complete]
    exact (Reader.exactly_reads payload).map _
  | fixed32 =>
    show (discard 4).Reads payload ()
    rw [discard_eq, ← show payload.length = 4 from complete]
    exact (Reader.exactly_reads payload).map _
  | lengthDelimited =>
    obtain ⟨head, content, rfl, spells, fits⟩ := complete
    rw [skip_lengthDelimited]
    exact (Payload.reads_spelled spells fits).map _

namespace WireField

variable {field : WireField}

theorem Complete.reads (complete : field.Complete) : Tag.read.Reads field.head field.tag := by
  obtain ⟨wire, framed, spells, -⟩ := complete.framed
  have bits : wire.id < 8 := by cases wire <;> decide
  have tag : field.tag = ⟨field.number, wire.id⟩ := by rw [← framed]; rfl
  rw [tag]
  exact Tag.reads_spelled bits complete.least complete.most spells

theorem Complete.skips (complete : field.Complete) :
    (Payload.skip field.tag.wire).Reads field.payload () := by
  obtain ⟨wire, framed, -, payload⟩ := complete.framed
  rw [framed]
  exact payload.skips

end WireField

end Protobuf

/-
**Reads that end alike.**

Readers of one framing stop at the same byte with the same fault, and read the same payload; what they make of
it is another matter.

* `Decoder.Alike`: two reads fail alike, or leave the same bytes and related values;
* `Decoder.alike_map`: two changes of one read do so;
* `ScalarType.OfVarint`, `Decoder.alike_of_varint`: the types that travel as varints read the same number,
  and what each of them makes of it;
* `Decoder.alike_skip`: skipping is reading without the value;
* `Decoder.skip_other`: without a known framing nothing is skipped.
-/

import Protobuf.Decoder
import Protobuf.Proofs.ShortestVarint
import Protobuf.Proofs.Skipping

namespace Protobuf

variable {α β γ : Type}

namespace Decoder

/-- Whether two reads end alike: with related values or with the same fault, and with the same cursor. -/
inductive Alike (related : α → β → Prop) :
    Except Fault α × Decoder → Except Fault β × Decoder → Prop where
  /-- Both succeed. -/
  | values {one : α} {other : β} (are : related one other) (after : Decoder) :
      Alike related (.ok one, after) (.ok other, after)
  /-- Both fail. -/
  | faults (fault : Fault) (after : Decoder) : Alike related (.error fault, after) (.error fault, after)

/-- **Two changes of one read end alike.** -/
theorem alike_map {reader : Reader α} (one : α → β) (other : α → γ) {related : β → γ → Prop}
    (are : ∀ ⦃bytes value rest⦄, reader bytes = .ok value rest → related (one value) (other value))
    (decoder : Decoder) :
    Alike related (decoder.read (one <$> reader)) (decoder.read (other <$> reader)) := by
  unfold read
  simp only [Functor.map, EStateM.map]
  cases taken : reader decoder.unread with
  | ok value rest => exact .values (are taken) _
  | error fault rest => exact .faults fault _

end Decoder

/-! ### Varints -/

/-- What the value of a type is of a number of 64 bits that was read. -/
def ScalarType.OfVarint : (type : ScalarType) → (n : Nat) → type.Value → Prop
  | uint64, n, value => UInt64.toNat value = n
  | int64, n, value => Int64.toInt value = Int.bmod n (2 ^ 64)
  | uint32, n, value => UInt32.toNat value = n % 2 ^ 32
  | int32, n, value => Int32.toInt value = Int.bmod (n % 2 ^ 32 : Nat) (2 ^ 32)
  | sint32, n, value => Int32.toInt value = ZigZag.unfolded (n % 2 ^ 32) ∧
      value = ZigZag.decode32 (UInt32.ofNat (n % 2 ^ 32))
  | sint64, n, value => Int64.toInt value = ZigZag.unfolded n ∧
      value = ZigZag.decode64 (UInt64.ofNat n)
  | bool, n, value => value = decide (n ≠ 0)
  | _, _, _ => False

namespace Decoder

/-- A value made of a varint is read where the varint is. -/
theorem alike_of_convert (convert : Nat → α) {related : UInt64 → α → Prop}
    (are : ∀ x : UInt64, related x (convert x.toNat)) (decoder : Decoder) :
    Alike related (decoder.read (ScalarType.read .uint64))
      (decoder.read (convert <$> Varint.read 64)) := by
  refine alike_map UInt64.ofNat convert (fun bytes n rest taken => ?_) decoder
  obtain ⟨_, -, -, fits, -⟩ := Varint.read_eq_ok_iff.mp taken
  have whole : (UInt64.ofNat n).toNat = n := UInt64.toNat_ofNat_of_lt fits
  have converted := are (UInt64.ofNat n)
  rwa [whole] at converted

/-- **Every type that travels as a varint reads the same varint.** -/
theorem alike_of_varint {type : ScalarType} (framed : type.wireType = .varint) (decoder : Decoder) :
    Alike (fun (x : UInt64) value => type.OfVarint x.toNat value)
      (decoder.read (ScalarType.read .uint64)) (decoder.read type.read) := by
  cases type with
  | uint64 =>
    refine alike_of_convert UInt64.ofNat (fun x => ?_) decoder
    show UInt64.toNat _ = _
    rw [UInt64.ofNat_toNat]
  | int64 =>
    refine alike_of_convert Int64.ofNat (fun x => ?_) decoder
    show Int64.toInt _ = Int.bmod _ _
    rw [Int64.toInt_ofNat']
    rfl
  | uint32 => exact alike_of_convert UInt32.ofNat (fun x => UInt32.toNat_ofNat') decoder
  | int32 =>
    refine alike_of_convert Int32.ofNat (fun x => ?_) decoder
    show Int32.toInt _ = Int.bmod _ _
    rw [Int32.toInt_ofNat', Int.natCast_mod, Int.emod_bmod]
    rfl
  | sint32 =>
    refine alike_of_convert (fun n => ZigZag.decode32 (UInt32.ofNat n)) (fun x => ?_) decoder
    have word : UInt32.ofNat (x.toNat % 2 ^ 32) = UInt32.ofNat x.toNat := UInt32.ofNat_mod_size
    refine ⟨?_, congrArg ZigZag.decode32 word.symm⟩
    rw [ZigZag.toInt_decode32, UInt32.toNat_ofNat']
  | sint64 =>
    refine alike_of_convert (fun n => ZigZag.decode64 (UInt64.ofNat n)) (fun x => ⟨?_, rfl⟩) decoder
    rw [ZigZag.toInt_decode64, UInt64.ofNat_toNat]
  | bool =>
    refine alike_of_convert (fun n => decide (n ≠ 0)) (fun x => ?_) decoder
    exact Eq.refl (decide (x.toNat ≠ 0))
  | fixed32 => cases framed
  | sfixed32 => cases framed
  | float => cases framed
  | fixed64 => cases framed
  | sfixed64 => cases framed
  | double => cases framed
  | bytes => cases framed
  | string => cases framed

/-! ### Skipping -/

/-- **Skipping a framing ends like reading a value of it**, unless the value is checked. -/
theorem alike_skip {type : ScalarType} (unchecked : type ≠ .string) (decoder : Decoder) :
    Alike (fun _ _ => True) (decoder.read (Payload.skip type.wireType.id)) (decoder.read type.read) := by
  have alike : Alike (fun _ _ => True) (decoder.read ((fun _ => ()) <$> type.read))
      (decoder.read (id <$> type.read)) :=
    alike_map _ id (fun _ _ _ _ => trivial) decoder
  rwa [type.map_read unchecked, id_map] at alike

theorem skip_other {wire : Nat} (other : ∀ framing : WireType, wire ≠ framing.id) (decoder : Decoder) :
    decoder.read (Payload.skip wire) = (.error (.unknownWireType wire), decoder) := by
  rw [read, Payload.skip_other other]

end Decoder

end Protobuf

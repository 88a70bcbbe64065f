/-
**A write appends its bytes, whatever storage is set aside for them.**

`Encoder.Appends write chunk` says that a write succeeds on every encoder and appends exactly these
bytes to what is written already. It is the counterpart of `Reader.Reads`:

* `Encoder.Appends.bind`: writes one after the other append their bytes one after the other;
* `Encoder.writeTag_appends`, `Encoder.splice_appends`: a field number that a tag can carry is not
  refused.
-/

import Protobuf.Encoder

namespace Protobuf.Encoder

@[simp] theorem reserve_bytes (additional : Nat) (encoder : Encoder) :
    (encoder.reserve additional).bytes = encoder.bytes := by
  unfold reserve
  split <;> rfl

@[simp] theorem append_bytes (chunk : Bytes) (encoder : Encoder) :
    (encoder.append chunk).bytes = encoder.bytes ++ chunk := by
  show (encoder.reserve chunk.length).bytes ++ chunk = _
  rw [reserve_bytes]

@[simp] theorem writePayload_bytes (payload : Bytes) (encoder : Encoder) :
    (encoder.writePayload payload).bytes = encoder.bytes ++ Payload.encode payload := by
  unfold writePayload
  rw [append_bytes, append_bytes, List.append_assoc]
  rfl

@[simp] theorem writeScalar_bytes (scalar : Scalar) (encoder : Encoder) :
    (encoder.writeScalar scalar).bytes = encoder.bytes ++ scalar.encode := by
  obtain ⟨type, value⟩ := scalar
  cases type with
  | bytes => exact writePayload_bytes value encoder
  | string => exact writePayload_bytes (Utf8.encode value) encoder
  | _ => exact append_bytes _ encoder

/-- Succeeds on every encoder and appends exactly these bytes. -/
def Appends (write : Encoder → Except Refusal Encoder) (chunk : Bytes) : Prop :=
  ∀ encoder, ∃ after, write encoder = .ok after ∧ after.bytes = encoder.bytes ++ chunk

theorem Appends.done : Appends .ok [] :=
  fun encoder => ⟨encoder, rfl, (List.append_nil encoder.bytes).symm⟩

theorem Appends.bind {first second : Encoder → Except Refusal Encoder} {head tail : Bytes}
    (one : Appends first head) (two : Appends second tail) :
    Appends (fun encoder => first encoder >>= second) (head ++ tail) := by
  intro encoder
  obtain ⟨middle, writtenFirst, head_bytes⟩ := one encoder
  obtain ⟨after, writtenSecond, tail_bytes⟩ := two middle
  refine ⟨after, ?_, ?_⟩
  · show first encoder >>= second = _
    rw [writtenFirst]
    exact writtenSecond
  · rw [tail_bytes, head_bytes, List.append_assoc]

theorem writeScalar_appends (scalar : Scalar) :
    Appends (fun encoder => .ok (encoder.writeScalar scalar)) scalar.encode :=
  fun encoder => ⟨_, rfl, writeScalar_bytes scalar encoder⟩

theorem writePayload_appends (payload : Bytes) :
    Appends (fun encoder => .ok (encoder.writePayload payload)) (Payload.encode payload) :=
  fun encoder => ⟨_, rfl, writePayload_bytes payload encoder⟩

variable {number : Nat}

theorem writeTag_appends (wire : WireType) (least : 1 ≤ number) (most : number ≤ maxFieldNumber) :
    Appends (writeTag number wire) (Tag.encode number wire) := by
  intro encoder
  refine ⟨encoder.append (Tag.encode number wire), ?_, append_bytes _ encoder⟩
  unfold writeTag
  rw [if_pos ⟨least, most⟩]

theorem splice_appends (payload : Bytes) (least : 1 ≤ number) (most : number ≤ maxFieldNumber) :
    Appends (splice number payload)
      (Tag.encode number .lengthDelimited ++ Payload.encode payload) :=
  (writeTag_appends .lengthDelimited least most).bind (writePayload_appends payload)

end Protobuf.Encoder

/-
**The testee answers with a normal form.**

Whatever spelling of a message a payload is, its answer is the one spelling that `Message.encode` has
for it:

* `LawfulMessage.isCanonical_of_decode`: a message that was read is canonical, since every edit keeps it
  so and the empty message is;
* `LawfulMessage.fits_of_length_le`: a message that is written in at most `maxLength` bytes has no
  payload longer than that;
* `LawfulMessage.decode_encode_of_decode`: so a message that was read is read back;
* `Message.encode_inj`: and two such messages are told apart by what they are written as;
* `Conformance.Testee.handle_normal_form`: the testee sends its own answers back unchanged, and gives
  two payloads the same answer exactly if they are spellings of one message.
-/

import Protobuf.Proofs.RoundTrip
import Protobuf.Conformance.Testee

namespace Protobuf

variable {M : Type} [Message M]

theorem Message.isCanonical_all {edits : List (Edit M)}
    (keep : ∀ edit ∈ edits, ∀ message, IsCanonical message → IsCanonical (edit message))
    {message : M} (canonical : IsCanonical message) : IsCanonical (Edit.all edits message) := by
  induction edits generalizing message with
  | nil => exact canonical
  | cons edit edits ih =>
    obtain ⟨first, rest⟩ := List.forall_mem_cons.mp keep
    exact ih rest (first message canonical)

/-- Messages that are read back are told apart by what they are written as. -/
theorem Message.encode_inj {first second : M} (readFirst : decode (encode first) = .ok first)
    (readSecond : decode (encode second) = .ok second) :
    encode first = encode second ↔ first = second := by
  constructor
  · intro same
    rw [same, readSecond] at readFirst
    exact (Except.ok.inj readFirst).symm
  · exact congrArg encode

namespace LawfulMessage

variable [LawfulMessage M]

theorem isCanonical_of_decode {bytes : Bytes} {message : M}
    (accepted : Message.decode bytes = .ok message) : Message.IsCanonical message := by
  unfold Message.decode at accepted
  dsimp only at accepted
  split at accepted
  · cases accepted
    exact Message.isCanonical_all (isCanonical_of_edit bytes) isCanonical_empty
  · cases accepted

theorem fits_of_length_le {message : M} (short : (Message.encode message).length ≤ maxLength) :
    Message.Fits message :=
  fun payload member => Nat.le_trans (length_le_of_mem_payloads message payload member) short

/-- **A message that was read is read back**, if what it is written as is short enough. -/
theorem decode_encode_of_decode {bytes : Bytes} {message : M}
    (accepted : Message.decode bytes = .ok message)
    (short : (Message.encode message).length ≤ maxLength) :
    Message.decode (Message.encode message) = .ok message :=
  decode_encode (isCanonical_of_decode accepted) (fits_of_length_le short)

end LawfulMessage

namespace Conformance

/-- A response that may be written is read back, since there is no enumeration in it. -/
theorem Response.decode_encode {response : Response} (fits : Message.Fits response) :
    Message.decode (Message.encode response) = .ok response := by
  refine LawfulMessage.decode_encode ?_ fits
  simp [Message.IsCanonical, fields, case, Kind.IsCanonical]

theorem Response.decode_encode_payload {bytes : Bytes} (short : bytes.length ≤ maxLength) :
    Message.decode (Message.encode (⟨some (.protobufPayload bytes)⟩ : Response))
      = .ok (⟨some (.protobufPayload bytes)⟩ : Response) := by
  refine decode_encode fun payload member => ?_
  have same : payload = bytes := List.mem_singleton.mp member
  rw [same]
  exact short

namespace Testee

/-- A request that is processed: a binary payload of the supported type, with binary output. -/
structure Processes (request : Request) (payload : Bytes) : Prop where
  messageType : request.messageType = supportedMessageType
  payload : request.payload = some (.protobuf payload)
  output : request.requestedOutputFormat = .protobuf

variable {request : Request} {payload : Bytes}

theorem Processes.handle_eq (processes : Processes request payload) {message : FooBar.Example1}
    (accepted : Message.decode payload = .ok message) :
    handle request = ⟨some (.protobufPayload (Message.encode message))⟩ := by
  have other : supportedMessageType ≠ failureSetMessageType := by decide
  simp only [handle, outcome, processes.messageType, processes.payload, processes.output,
    if_neg other, ne_eq, not_true_eq_false, if_false, if_true, rewritten, accepted]

/-- **The answer is a normal form of the payload.** It is read as the message that the payload was read
as, and is written again as it is; the testee answers it with itself; and two payloads have the same
answer, byte for byte, exactly if they were read as the same message. -/
theorem handle_normal_form {message : FooBar.Example1}
    (accepted : Message.decode payload = .ok message)
    (short : (Message.encode message).length ≤ maxLength) :
    Message.decode (Message.encode message) = .ok message ∧
      (Message.decode (Message.encode message) : Except Fault FooBar.Example1).map Message.encode
        = .ok (Message.encode message) ∧
      (∀ request, Processes request payload →
        handle request = ⟨some (.protobufPayload (Message.encode message))⟩ ∧
        ∀ again, Processes again (Message.encode message) → handle again = handle request) ∧
      ∀ (otherPayload : Bytes) (other : FooBar.Example1), Message.decode otherPayload = .ok other →
        (Message.encode other).length ≤ maxLength →
        ∀ request otherRequest, Processes request payload → Processes otherRequest otherPayload →
          (Message.encode (handle request) = Message.encode (handle otherRequest)
            ↔ message = other) := by
  have readBack := LawfulMessage.decode_encode_of_decode accepted short
  refine ⟨readBack, by rw [readBack]; rfl, fun request processes => ?_, ?_⟩
  · have first := processes.handle_eq accepted
    exact ⟨first, fun again same => (same.handle_eq readBack).trans first.symm⟩
  · intro otherPayload other otherAccepted otherShort request otherRequest processes otherProcesses
    have otherReadBack := LawfulMessage.decode_encode_of_decode otherAccepted otherShort
    rw [processes.handle_eq accepted, otherProcesses.handle_eq otherAccepted,
      Message.encode_inj (Response.decode_encode_payload short)
        (Response.decode_encode_payload otherShort),
      ← Message.encode_inj readBack otherReadBack]
    simp only [Response.mk.injEq, Option.some.injEq, Outcome.protobufPayload.injEq]

/-- Elements one by one, an undeclared field and a scalar given twice; and the same message with its
elements in a packed run and a length that is spelled in two bytes. -/
theorem handle_normal_form_spellings :
    Message.encode (handle (debugRequest supportedMessageType
        [0xA0, 0x01, 0x05, 0xA0, 0x01, 0x06, 0xC0, 0x3E, 0x01, 0x18, 0x01, 0x18, 0x02]))
      = Message.encode (handle (debugRequest supportedMessageType
        [0x18, 0x02, 0xA2, 0x01, 0x82, 0x00, 0x05, 0x06])) := by
  have first : Message.decode
      [0xA0, 0x01, 0x05, 0xA0, 0x01, 0x06, 0xC0, 0x3E, 0x01, 0x18, 0x01, 0x18, 0x02]
      = .ok ({ aint32 := 2, manyint64 := [5, 6] } : FooBar.Example1) := by cbv
  have second : Message.decode [0x18, 0x02, 0xA2, 0x01, 0x82, 0x00, 0x05, 0x06]
      = .ok ({ aint32 := 2, manyint64 := [5, 6] } : FooBar.Example1) := by cbv
  have short : (Message.encode ({ aint32 := 2, manyint64 := [5, 6] } : FooBar.Example1)).length
      ≤ maxLength := by decide +kernel
  exact ((handle_normal_form first short).2.2.2 _ _ second short _ _ ⟨rfl, rfl, rfl⟩
    ⟨rfl, rfl, rfl⟩).mpr rfl

end Testee

end Conformance

end Protobuf

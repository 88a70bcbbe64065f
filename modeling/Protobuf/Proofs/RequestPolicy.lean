/-
**What the testee answers to the bytes of a request.**

The policy is said here without the order in which the testee asks its questions: which outcomes a
request may have (`Testee.Policy`), and which bytes differ in unknown fields only (`Request.OneMore`).

* `Testee.outcome_policy`: the outcome of every request is one that the policy has for it;
* `Testee.handle_congr`: it depends on the message type, the payload and the output format;
* `Request.decode_of_unknown`: unknown fields do not change what request some bytes are, nor why they
  are none;
* `Testee.handleRaw_policy`: so bytes that are a request are answered with the bytes of a response that
  has such an outcome, and other bytes fail as reading them fails.
-/

import Mathlib.Logic.Relation
import Protobuf.Proofs.NormalForm
import Protobuf.Proofs.UnknownFields

namespace Protobuf.Conformance

/-! ### The policy -/

namespace Testee

/-- The outcomes that a request may have. -/
inductive Policy (request : Request) : Outcome → Prop where
  /-- The failure set is asked for, whatever the rest of the request, and has no entry. -/
  | failureSet : request.messageType = failureSetMessageType → Policy request (.protobufPayload [])
  /-- A payload that is parsed is written again. -/
  | rewritten {payload : Bytes} {message : FooBar.Example1} : Processes request payload →
    Message.decode payload = .ok message →
    Policy request (.protobufPayload (Message.encode message))
  /-- A payload that is not parsed is answered with the text of the fault. -/
  | refused {payload : Bytes} {fault : Fault} : Processes request payload →
    (Message.decode payload : Except Fault FooBar.Example1) = .error fault →
    Policy request (.parseError fault.message)
  /-- Every other request is skipped. -/
  | skipped {reason : String} : request.messageType ≠ failureSetMessageType →
    (∀ payload, ¬ Processes request payload) → Policy request (.skipped reason)

/-- **The outcome of a request is one that the policy has for it.** -/
theorem outcome_policy (request : Request) : Policy request (outcome request) := by
  unfold outcome
  split
  · next failures => exact .failureSet failures
  next other =>
  split
  · next unsupported => exact .skipped other fun payload processes => unsupported processes.messageType
  next supported =>
  split
  · next missing =>
    refine .skipped other fun payload processes => ?_
    rw [processes.payload] at missing
    cases missing
  · next payload given =>
    split
    · next output =>
      have processes : Processes request payload := ⟨Classical.not_not.mp supported, given, output⟩
      unfold Testee.rewritten
      split
      · next message accepted => exact .rewritten processes accepted
      · next fault failed => exact .refused processes failed
    · next output => exact .skipped other fun payload processes => output processes.output
  · next payload textual given =>
    refine .skipped other fun bytes processes => ?_
    rw [processes.payload] at given
    cases given
    exact textual bytes rfl

/-- The category of a test and the wish to see unknown fields do not matter. -/
theorem handle_congr (request : Request) (category : TestCategory) (print : Bool) :
    handle { request with testCategory := category, printUnknownFields := print }
      = handle request :=
  rfl

/-! ### Bytes -/

theorem handleRaw_eq (bytes : Bytes) :
    handleRaw bytes = (Message.decode bytes : Except Fault Request).map fun request =>
      Message.encode (handle request) := by
  unfold handleRaw
  cases (Message.decode bytes : Except Fault Request) <;> rfl

end Testee

/-- Some bytes, and the same with one more field where a field begins, under a number that no request
has. -/
inductive Request.OneMore : (bytes longer : Bytes) → Prop where
  | intro {before : Bytes} {unknown : WireField} (request : Request) (after : Bytes) :
    Message.decode before = .ok request → unknown.Complete →
    unknown.number ∉ Request.fields.map Field.number →
    OneMore (before ++ after) (before ++ unknown.bytes ++ after)

theorem Request.decode_of_oneMore {bytes longer : Bytes} (more : OneMore bytes longer) :
    (Message.decode longer : Except Fault Request) = Message.decode bytes := by
  cases more with
  | @intro before unknown request after read complete fresh =>
    have ended : (Message.scan MessageType.conformanceRequest.Value before).fault = none :=
      Message.decode_isOk.mp ⟨request, read⟩
    have undeclared : unknown.number ∉ MessageType.conformanceRequest.fields.map Field.number := fresh
    have same := complete.scan_insert undeclared ended after
    show (Message.decode _ : Except Fault MessageType.conformanceRequest.Value) = Message.decode _
    simp only [Message.decode, Message.merge, same]

/-- **Unknown fields that are put in or left out make no other request.** -/
theorem Request.decode_of_unknown {bytes others : Bytes}
    (differ : Relation.EqvGen OneMore bytes others) :
    (Message.decode others : Except Fault Request) = Message.decode bytes := by
  induction differ with
  | rel bytes longer more => exact decode_of_oneMore more
  | refl bytes => rfl
  | symm bytes others _ ih => exact ih.symm
  | trans first second third _ _ one two => exact two.trans one

namespace Testee

/-- **What the bytes of a request are answered with.** Bytes that are no request fail with the fault of
reading them. All others, if their response may be written, are answered with bytes that are read as a
response whose outcome is there and is one of the policy. Requests that differ in the category of their
test and in the wish to see unknown fields, and bytes that differ in unknown fields, have the same
answer. -/
theorem handleRaw_policy (raw : Bytes)
    (writable : ∀ request : Request, Message.decode raw = .ok request →
      Message.Fits (handle request)) :
    (∀ fault, handleRaw raw = .error fault ↔
      (Message.decode raw : Except Fault Request) = .error fault) ∧
    (∀ request : Request, Message.decode raw = .ok request → ∃ answer outcome,
      handleRaw raw = .ok answer ∧ Message.decode answer = .ok (⟨some outcome⟩ : Response) ∧
        Policy request outcome) ∧
    (∀ (request : Request) (others : Bytes) (category : TestCategory) (print : Bool),
      Message.decode raw = .ok request →
      Message.decode others
        = .ok { request with testCategory := category, printUnknownFields := print } →
      handleRaw others = handleRaw raw) ∧
    ∀ others, Relation.EqvGen Request.OneMore raw others → handleRaw others = handleRaw raw := by
  simp only [handleRaw_eq]
  refine ⟨fun fault => ?_, fun request read => ?_, fun request others category print read other => ?_,
    fun others differ => ?_⟩
  · cases (Message.decode raw : Except Fault Request) <;> simp [Except.map]
  · rw [read]
    exact ⟨_, outcome request, rfl, Response.decode_encode (writable request read),
      outcome_policy request⟩
  · rw [read, other]
    simp only [Except.map, handle_congr]
  · rw [Request.decode_of_unknown differ]

/-- A request whose payload is given as JSON first and in binary format then, with an output format, a
message type and a field that no request has behind it. -/
def reordered : Bytes :=
  [0x12, 0x02, 0x7B, 0x7D, 0x18, 0x01, 0x0A, 0x02, 0x18, 0x07, 0x22, 0x10] ++
    Utf8.encode supportedMessageType ++ [0x50, 0x05]

/-- The binary payload is parsed and written again. -/
theorem handleRaw_policy_reordered :
    (∀ request : Request, Message.decode reordered = .ok request → Message.Fits (handle request)) ∧
      ∃ answer, handleRaw reordered = .ok answer ∧
        Message.decode answer = .ok (⟨some (.protobufPayload [0x18, 0x07])⟩ : Response) := by
  have ended : (Message.merge reordered (Message.empty : Request)).fault = none := by decide +kernel
  have made : (Message.merge reordered (Message.empty : Request)).message = {
      payload := some (.protobuf [0x18, 0x07])
      requestedOutputFormat := .protobuf
      messageType := supportedMessageType } := by decide +kernel
  have read : Message.decode reordered = .ok ({
      payload := some (.protobuf [0x18, 0x07])
      requestedOutputFormat := .protobuf
      messageType := supportedMessageType } : Request) := by
    simp only [Message.decode, ended, made]
  have parsed : Message.decode [0x18, 0x07] = .ok ({ aint32 := 7 } : FooBar.Example1) := by cbv
  have written : Message.encode ({ aint32 := 7 } : FooBar.Example1) = [0x18, 0x07] := by
    decide +kernel
  have writable : ∀ request : Request, Message.decode reordered = .ok request →
      Message.Fits (handle request) := by
    intro request same
    rw [read] at same
    cases same
    decide +kernel
  refine ⟨writable, ?_⟩
  obtain ⟨answer, outcome, answered, decoded, policy⟩ :=
    (handleRaw_policy reordered writable).2.1 _ read
  refine ⟨answer, answered, ?_⟩
  cases policy with
  | failureSet other => exact absurd other (by decide)
  | rewritten processes accepted =>
    cases processes.payload
    rw [parsed] at accepted
    cases accepted
    rwa [written] at decoded
  | refused processes failed =>
    cases processes.payload
    rw [parsed] at failed
    cases failed
  | skipped _ unprocessed => exact absurd ⟨rfl, rfl, rfl⟩ (unprocessed [0x18, 0x07])

end Testee

end Protobuf.Conformance

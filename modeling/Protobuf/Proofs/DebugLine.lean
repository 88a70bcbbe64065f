/-
**A debug line says what the stream would.**

A debug line takes one escaped payload the way of a framed request. What is written on that way is read
back, so that nothing on it can fail but the escapes of the text:

* `Testee.handleRaw_encode`: a request that is read back is answered with its response;
* `Response.length_encode_le`: what is written for a response has a length that a frame can announce;
* `serve_encode`: so a framed request alone on a stream is answered with one frame;
* `Testee.line_ne_empty`: no outcome is shown as an empty response;
* `Testee.debugLine_stream`: the line is that of the outcome which the response frame carries, and its
  bytes are those of the payload in it.
-/

import Protobuf.Proofs.Batch
import Protobuf.Proofs.Escape
import Protobuf.Proofs.NormalForm
import Protobuf.Proofs.Spelling

namespace Protobuf.Conformance

/-! ### What a response is written as -/

/-- An outcome is written as one field, with its text or bytes as the payload. -/
theorem Response.encode_outcome (outcome : Outcome) : ∃ number payload, number ≤ 9 ∧
    Message.encode (⟨some outcome⟩ : Response)
      = Tag.encode number .lengthDelimited ++ Payload.encode payload ∧
    payload ∈ Message.payloads (⟨some outcome⟩ : Response) := by
  have field (number : Nat) (payload : Bytes) (small : number ≤ 9)
      (written : Message.encode (⟨some outcome⟩ : Response)
        = Tag.encode number .lengthDelimited ++ Payload.encode payload)
      (payloads : Message.payloads (⟨some outcome⟩ : Response) = [payload]) :
      ∃ number payload, number ≤ 9 ∧
        Message.encode (⟨some outcome⟩ : Response)
          = Tag.encode number .lengthDelimited ++ Payload.encode payload ∧
        payload ∈ Message.payloads (⟨some outcome⟩ : Response) :=
    ⟨number, payload, small, written, payloads ▸ List.mem_singleton_self payload⟩
  cases outcome with
  | parseError text => exact field 1 (Utf8.encode text) (by decide) (List.append_nil _) rfl
  | runtimeError text => exact field 2 (Utf8.encode text) (by decide) (List.append_nil _) rfl
  | protobufPayload bytes => exact field 3 bytes (by decide) (List.append_nil _) rfl
  | jsonPayload text => exact field 4 (Utf8.encode text) (by decide) (List.append_nil _) rfl
  | skipped text => exact field 5 (Utf8.encode text) (by decide) (List.append_nil _) rfl
  | serializeError text => exact field 6 (Utf8.encode text) (by decide) (List.append_nil _) rfl
  | jspbPayload text => exact field 7 (Utf8.encode text) (by decide) (List.append_nil _) rfl
  | textPayload text => exact field 8 (Utf8.encode text) (by decide) (List.append_nil _) rfl
  | timeoutError text => exact field 9 (Utf8.encode text) (by decide) (List.append_nil _) rfl

/-- The tag of an outcome has one byte. -/
theorem Response.length_encode (outcome : Outcome) :
    ∃ payload ∈ Message.payloads (⟨some outcome⟩ : Response),
      (Message.encode (⟨some outcome⟩ : Response)).length
        ≤ 1 + (Varint.encode payload.length).length + payload.length := by
  obtain ⟨number, payload, small, written, member⟩ := encode_outcome outcome
  have tag : (Tag.encode number .lengthDelimited).length ≤ 1 := by
    refine Varint.length_encode_le ?_
    simp only [Tag.raw, WireType.id]
    omega
  refine ⟨payload, member, ?_⟩
  rw [written, Payload.encode, List.length_append, List.length_append]
  omega

theorem Response.length_encode_le {outcome : Outcome}
    (fits : Message.Fits (⟨some outcome⟩ : Response)) :
    (Message.encode (⟨some outcome⟩ : Response)).length ≤ Frame.maxLength := by
  obtain ⟨payload, member, whole⟩ := length_encode outcome
  have short := fits payload member
  have length : (Varint.encode payload.length).length ≤ 10 :=
    Varint.length_encode_le (Nat.lt_of_le_of_lt short (by decide))
  unfold maxLength at short
  rw [show Frame.maxLength = 0xFFFFFFFF from rfl]
  omega

/-! ### One request on a stream -/

theorem Frame.answered_encode {limit : Nat} {message response : Bytes}
    (announced : message.length ≤ maxLength) (admitted : message.length ≤ limit)
    (handled : Testee.handleRaw message = .ok response) :
    Answered limit (encode message) response := by
  have same : Bytes.ofLittleEndian (Bytes.littleEndian prefixLength message.length)
      = message.length :=
    Bytes.ofLittleEndian_littleEndian _ _ (Nat.lt_of_le_of_lt announced (by decide))
  exact .intro (Bytes.length_littleEndian _ _) (same.symm ▸ admitted) same.symm handled

/-- **A framed request alone on a stream is answered with one frame.** -/
theorem serve_encode {limit : Nat} {source : Source} {message response : Bytes}
    (delivers : source.Delivers (Frame.encode message)) (announced : message.length ≤ Frame.maxLength)
    (admitted : message.length ≤ limit) (handled : Testee.handleRaw message = .ok response)
    (short : response.length ≤ Frame.maxLength) :
    serve limit source {} 0 = ⟨.ok 1, { accepted := Frame.encode response, flushes := 1 }⟩ := by
  rw [← List.append_nil (Frame.encode message)] at delivers
  obtain ⟨remaining, delivered, round⟩ :=
    serve_frame (Frame.answered_encode announced admitted handled) short delivers
  have answered := round [] {} 0 rfl
  rw [List.append_nil, List.append_nil] at answered
  rw [answered, serve_eq, delivered.fill_end (by decide)]
  simp [Frame.announced, Sink.after]

namespace Testee

/-! ### The way of a debug line -/

theorem handleRaw_encode {request : Request} (canonical : Message.IsCanonical request)
    (fits : Message.Fits request) :
    handleRaw (Message.encode request) = .ok (Message.encode (handle request)) := by
  unfold handleRaw
  rw [LawfulMessage.decode_encode canonical fits]
  rfl

theorem isCanonical_debugRequest (messageType : String) (payload : Bytes) :
    Message.IsCanonical (debugRequest messageType payload) :=
  (Request.isCanonical_iff _).mpr ⟨rfl, rfl⟩

/-- No outcome is shown as an empty response. -/
theorem line_ne_empty (outcome : Outcome) :
    line ⟨some outcome⟩ ≠ "empty response" := by
  intro same
  have first := congrArg (fun text => text.toList.head?) same
  cases outcome <;> simp [line, Outcome.kind, String.toList_append] at first

/-- What a text without escapes that fail is shown as. -/
theorem debugLine_of_unescape {messageType text : String} {payload : Bytes}
    (read : Escape.unescape text = .ok payload)
    (asked : Message.Fits (debugRequest messageType payload))
    (answered : Message.Fits (handle (debugRequest messageType payload))) :
    debugLine messageType text = .ok (line (handle (debugRequest messageType payload))) := by
  unfold debugLine
  rw [read]
  show ((handleRaw (Message.encode (debugRequest messageType payload)) >>=
    Message.decode).mapError Failure.codec >>= fun response => .ok (line response)) = _
  rw [handleRaw_encode (isCanonical_debugRequest messageType payload) asked]
  show ((Message.decode (Message.encode (handle (debugRequest messageType payload))) :
    Except Fault Response).mapError Failure.codec >>= fun response => .ok (line response)) = _
  rw [Response.decode_encode answered]
  rfl

theorem debugLine_of_fault {messageType text : String} {fault : Escape.Fault}
    (failed : Escape.unescape text = .error fault) :
    debugLine messageType text = .error (.invalidEscape fault) := by
  unfold debugLine
  rw [failed]
  rfl

/-- **A debug line is the answer of the stream.** Let what is written on the way be short enough. The
line fails exactly as reading the text fails, and never says that a response is empty. Otherwise there
is an outcome of the request, and the line shows its kind and what it says. A stream with the framed
request alone is answered with one frame, in which that outcome is read. And the bytes of a payload are
read back from the line. -/
theorem debugLine_stream (messageType text : String)
    (writable : ∀ payload, Escape.unescape text = .ok payload →
      Message.Fits (debugRequest messageType payload) ∧
        Message.Fits (handle (debugRequest messageType payload))) :
    (∀ failure, debugLine messageType text = .error failure ↔
      ∃ fault, Escape.unescape text = .error fault ∧ failure = .invalidEscape fault) ∧
    debugLine messageType text ≠ .ok "empty response" ∧
    ∀ payload, Escape.unescape text = .ok payload → ∃ outcome response,
      handle (debugRequest messageType payload) = ⟨some outcome⟩ ∧
      debugLine messageType text = .ok (outcome.kind ++ ": " ++ detail outcome) ∧
      Message.decode response = .ok (⟨some outcome⟩ : Response) ∧
      (∀ (limit : Nat) (source : Source),
        (Message.encode (debugRequest messageType payload)).length ≤ limit →
        (Message.encode (debugRequest messageType payload)).length ≤ Frame.maxLength →
        source.Delivers (Frame.encode (Message.encode (debugRequest messageType payload))) →
        serve limit source {} 0
          = ⟨.ok 1, { accepted := Frame.encode response, flushes := 1 }⟩) ∧
      ∀ bytes, outcome = .protobufPayload bytes → Escape.unescape (detail outcome) = .ok bytes := by
  cases read : Escape.unescape text with
  | error fault =>
    rw [debugLine_of_fault read]
    refine ⟨fun failure => by simp [eq_comm], nofun, nofun⟩
  | ok payload =>
    obtain ⟨asked, answered⟩ := writable payload read
    rw [debugLine_of_unescape read asked answered]
    refine ⟨fun failure => by simp, fun same => line_ne_empty _ (Except.ok.inj same), ?_⟩
    rintro _ ⟨⟩
    refine ⟨outcome (debugRequest messageType payload), _, rfl, rfl,
      Response.decode_encode answered, fun limit source admitted announced delivers => ?_, ?_⟩
    · exact serve_encode delivers announced admitted
        (handleRaw_encode (isCanonical_debugRequest messageType payload) asked)
        (Response.length_encode_le answered)
    · rintro bytes same
      rw [same]
      exact Escape.unescape_escape bytes

/-- A field of the example whose string begins with a quotation mark and an unprintable byte. A digit is
behind them. -/
def quotedBytes : Bytes := [0x72, 0x04, 0x22, 0x01, 0x30, 0x78]

/-- A text for it: escapes with a letter, with one octal digit, with a hexadecimal one and with three
octal ones. -/
def quotedText : String := "r\\4\\\"\\0010\\x78"

/-- The line writes the bytes with other escapes, and the stream answers with the same bytes. -/
theorem debugLine_stream_quoted :
    (∀ payload, Escape.unescape quotedText = .ok payload →
      Message.Fits (debugRequest supportedMessageType payload) ∧
        Message.Fits (handle (debugRequest supportedMessageType payload))) ∧
    debugLine supportedMessageType quotedText = .ok "protobuf_payload: r\\004\\\"\\0010x" ∧
    ∃ response,
      Message.decode response = .ok (⟨some (.protobufPayload quotedBytes)⟩ : Response) ∧
      serve 64 [.chunk (Frame.encode (Message.encode
          (debugRequest supportedMessageType quotedBytes)))] {} 0
        = ⟨.ok 1, { accepted := Frame.encode response, flushes := 1 }⟩ := by
  have read : Escape.unescape quotedText = .ok quotedBytes := by decide +kernel
  have handled : handle (debugRequest supportedMessageType quotedBytes)
      = ⟨some (.protobufPayload quotedBytes)⟩ := by decide +kernel
  have shown : detail (.protobufPayload quotedBytes) = "r\\004\\\"\\0010x" := by decide +kernel
  have writable : ∀ payload, Escape.unescape quotedText = .ok payload →
      Message.Fits (debugRequest supportedMessageType payload) ∧
        Message.Fits (handle (debugRequest supportedMessageType payload)) := by
    intro payload same
    rw [read] at same
    cases same
    rw [handled]
    decide +kernel
  obtain ⟨outcome, response, answered, line, decoded, served, -⟩ :=
    (debugLine_stream supportedMessageType quotedText writable).2.2 quotedBytes read
  rw [handled] at answered
  cases answered
  rw [shown] at line
  exact ⟨writable, line, response, decoded, served 64 _ (by decide +kernel) (by decide +kernel)
    (.single (by decide +kernel))⟩

end Testee

end Protobuf.Conformance

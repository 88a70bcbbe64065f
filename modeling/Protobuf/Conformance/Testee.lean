/-
**The testee of the conformance tests.**

* `handle`: the response to a request. Only binary payloads of `foo.bar.example1` with binary output
  are processed: parsed, and written again. A request for the failure set gets an empty one, and
  every other request is skipped with a reason;
* `handleRaw`: the same on bytes. Only a request that cannot be read fails;
* `debugLine`: the response to one escaped payload, as a line of text.
-/

import Protobuf.Conformance.Request
import Protobuf.Conformance.Response
import Protobuf.Example.FooBar
import Protobuf.Escape

namespace Protobuf.Conformance

/-- Why the testee stops. -/
inductive Failure where
  /-- Reading or writing failed. -/
  | io (text : String)
  /-- A request could not be read. -/
  | codec (fault : Fault)
  /-- A frame announces more bytes than are admitted. -/
  | frameTooLarge (length limit : Nat)
  /-- The input ends inside a frame. -/
  | truncatedFrame (expected got : Nat)
  /-- A payload is not escaped bytes. -/
  | invalidEscape (fault : Escape.Fault)
  deriving DecidableEq, Repr

/-- The text of a failure. -/
def Failure.message : Failure → String
  | io text => "io error: " ++ text
  | codec fault => "codec error: " ++ fault.message
  | frameTooLarge length limit => s!"frame too large: {length} bytes (max {limit})"
  | truncatedFrame expected got => s!"truncated frame: expected {expected} bytes, got {got}"
  | invalidEscape fault => "invalid escape: " ++ fault.message

namespace Testee

/-- The only message type that is parsed. -/
def supportedMessageType : String := "foo.bar.example1"

/-- The message type that asks for the failure set. -/
def failureSetMessageType : String := "conformance.FailureSet"

/-- The outcome of parsing a binary payload and writing it again. -/
def rewritten (payload : Bytes) : Outcome :=
  match (Message.decode payload : Except Fault FooBar.Example1) with
  | .ok message => .protobufPayload (Message.encode message)
  | .error fault => .parseError fault.message

/-- The outcome of a request. -/
def outcome (request : Request) : Outcome :=
  if request.messageType = failureSetMessageType then
    .protobufPayload (Message.encode ({} : FailureSet))
  else if request.messageType ≠ supportedMessageType then
    .skipped ("unsupported message type: " ++ request.messageType)
  else
    match request.payload with
    | none => .skipped "missing payload"
    | some (.protobuf payload) =>
      if request.requestedOutputFormat = .protobuf then rewritten payload
      else
        .skipped ("unsupported output format: " ++ OpenEnum.name request.requestedOutputFormat)
    | some other => .skipped ("unsupported input format: " ++ OpenEnum.name other.format)

/-- The response to a request. -/
def handle (request : Request) : Response := ⟨some (outcome request)⟩

/-- The response to the bytes of a request, as bytes. -/
def handleRaw (bytes : Bytes) : Except Fault Bytes := do
  let request ← (Message.decode bytes : Except Fault Request)
  return Message.encode (handle request)

/-- What an outcome says, bytes being escaped. -/
def detail : Outcome → String
  | .protobufPayload bytes => Escape.escape bytes
  | .parseError text | .runtimeError text | .jsonPayload text | .skipped text
  | .serializeError text | .jspbPayload text | .textPayload text | .timeoutError text => text

/-- A response as a line of text. -/
def line (response : Response) : String :=
  match response.result with
  | some outcome => outcome.kind ++ ": " ++ detail outcome
  | none => "empty response"

/-- The request that carries a payload of a message type. -/
def debugRequest (messageType : String) (payload : Bytes) : Request where
  payload := some (.protobuf payload)
  requestedOutputFormat := .protobuf
  messageType := messageType
  testCategory := .binaryTest

/-- The response to one escaped payload, as a line of text. It takes the way of a framed request:
the request and the response are written and read again. -/
def debugLine (messageType text : String) : Except Failure String := do
  let payload ← (Escape.unescape text).mapError .invalidEscape
  let request := Message.encode (debugRequest messageType payload)
  let response ← (handleRaw request >>= Message.decode).mapError .codec
  return line response

end Testee

end Protobuf.Conformance

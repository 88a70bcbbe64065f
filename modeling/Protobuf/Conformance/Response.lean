/-
**Conformance responses.**

A `Response` carries the `Outcome` of one test case: an error, a payload, or the reason why the test
was skipped. The `FailureSet` lists the tests that are expected to fail.
-/

import Protobuf.Field

namespace Protobuf.Conformance

/-- What became of a test case. -/
inductive Outcome where
  /-- The payload could not be parsed. -/
  | parseError (text : String)
  /-- Any failure that no other outcome describes. -/
  | runtimeError (text : String)
  /-- The message in binary format. -/
  | protobufPayload (bytes : Bytes)
  /-- The message as JSON. -/
  | jsonPayload (text : String)
  /-- The request is not supported. -/
  | skipped (text : String)
  /-- The parsed message could not be written. -/
  | serializeError (text : String)
  /-- The message as JSPB. -/
  | jspbPayload (text : String)
  /-- The message in text format. -/
  | textPayload (text : String)
  /-- The test took too long. -/
  | timeoutError (text : String)
  deriving DecidableEq, Repr

namespace Outcome

/-- The name of the case, as the schema has it. -/
def kind : Outcome → String
  | parseError _ => "parse_error"
  | runtimeError _ => "runtime_error"
  | protobufPayload _ => "protobuf_payload"
  | jsonPayload _ => "json_payload"
  | skipped _ => "skipped"
  | serializeError _ => "serialize_error"
  | jspbPayload _ => "jspb_payload"
  | textPayload _ => "text_payload"
  | timeoutError _ => "timeout_error"

/-- The text of a parse error. -/
def parseError? : Outcome → Option String
  | parseError text => some text
  | _ => none

/-- The text of a runtime error. -/
def runtimeError? : Outcome → Option String
  | runtimeError text => some text
  | _ => none

/-- The bytes of a binary payload. -/
def protobufPayload? : Outcome → Option Bytes
  | protobufPayload bytes => some bytes
  | _ => none

/-- The text of a JSON payload. -/
def jsonPayload? : Outcome → Option String
  | jsonPayload text => some text
  | _ => none

/-- The reason of a skipped test. -/
def skipped? : Outcome → Option String
  | skipped text => some text
  | _ => none

/-- The text of a serialization error. -/
def serializeError? : Outcome → Option String
  | serializeError text => some text
  | _ => none

/-- The text of a JSPB payload. -/
def jspbPayload? : Outcome → Option String
  | jspbPayload text => some text
  | _ => none

/-- The text of a payload in text format. -/
def textPayload? : Outcome → Option String
  | textPayload text => some text
  | _ => none

/-- The text of a timeout. -/
def timeoutError? : Outcome → Option String
  | timeoutError text => some text
  | _ => none

end Outcome

/-- The answer to one test case. -/
structure Response where
  result : Option Outcome := none
  deriving DecidableEq, Repr

namespace Response

/-- A field that holds one case of the result. -/
def case (number : Nat) (type : ScalarType) (choose : type.Value → Outcome)
    (chosen : Outcome → Option type.Value) : Field Response :=
  ⟨number, .alternative type choose chosen, result, fun value response =>
    { response with result := value }⟩

/-- The fields of a response. -/
def fields : List (Field Response) := [
  case 1 .string Outcome.parseError Outcome.parseError?,
  case 2 .string Outcome.runtimeError Outcome.runtimeError?,
  case 3 .bytes Outcome.protobufPayload Outcome.protobufPayload?,
  case 4 .string Outcome.jsonPayload Outcome.jsonPayload?,
  case 5 .string Outcome.skipped Outcome.skipped?,
  case 6 .string Outcome.serializeError Outcome.serializeError?,
  case 7 .string Outcome.jspbPayload Outcome.jspbPayload?,
  case 8 .string Outcome.textPayload Outcome.textPayload?,
  case 9 .string Outcome.timeoutError Outcome.timeoutError?]

instance : Message Response := .ofFields {} fields

end Response

/-- The tests that are expected to fail. -/
structure FailureSet where
  failure : List String := []
  deriving DecidableEq, Repr

namespace FailureSet

/-- The fields of a failure set. -/
def fields : List (Field FailureSet) := [
  ⟨1, .repeated .string, failure, fun value set => { set with failure := value }⟩]

instance : Message FailureSet := .ofFields {} fields

end FailureSet

end Protobuf.Conformance

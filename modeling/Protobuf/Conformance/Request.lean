/-
**Conformance requests.**

A test runner sends a `Request`: a payload in one of four formats, the format it wants back, and the
message type to parse it as.
-/

import Protobuf.Field

namespace Protobuf.Conformance

/-- The format of a payload. -/
inductive WireFormat where
  | unspecified
  | protobuf
  | json
  | jspb
  | textFormat
  | unknown (number : Int32)
  deriving DecidableEq, Repr

instance : OpenEnum WireFormat where
  number
    | .unspecified => 0
    | .protobuf => 1
    | .json => 2
    | .jspb => 3
    | .textFormat => 4
    | .unknown number => number
  ofNumber number :=
    if number = 0 then .unspecified
    else if number = 1 then .protobuf
    else if number = 2 then .json
    else if number = 3 then .jspb
    else if number = 4 then .textFormat
    else .unknown number
  name
    | .unspecified => "Unspecified"
    | .protobuf => "Protobuf"
    | .json => "Json"
    | .jspb => "Jspb"
    | .textFormat => "TextFormat"
    | .unknown number => unknownName number

/-- The kind of test a request belongs to. -/
inductive TestCategory where
  | unspecifiedTest
  | binaryTest
  | jsonTest
  | jsonIgnoreUnknownParsingTest
  | jspbTest
  | textFormatTest
  | unknown (number : Int32)
  deriving DecidableEq, Repr

instance : OpenEnum TestCategory where
  number
    | .unspecifiedTest => 0
    | .binaryTest => 1
    | .jsonTest => 2
    | .jsonIgnoreUnknownParsingTest => 3
    | .jspbTest => 4
    | .textFormatTest => 5
    | .unknown number => number
  ofNumber number :=
    if number = 0 then .unspecifiedTest
    else if number = 1 then .binaryTest
    else if number = 2 then .jsonTest
    else if number = 3 then .jsonIgnoreUnknownParsingTest
    else if number = 4 then .jspbTest
    else if number = 5 then .textFormatTest
    else .unknown number
  name
    | .unspecifiedTest => "UnspecifiedTest"
    | .binaryTest => "BinaryTest"
    | .jsonTest => "JsonTest"
    | .jsonIgnoreUnknownParsingTest => "JsonIgnoreUnknownParsingTest"
    | .jspbTest => "JspbTest"
    | .textFormatTest => "TextFormatTest"
    | .unknown number => unknownName number

/-- The payload of a request. -/
inductive RequestPayload where
  | protobuf (bytes : Bytes)
  | json (text : String)
  | jspb (text : String)
  | textFormat (text : String)
  deriving DecidableEq, Repr

namespace RequestPayload

/-- The format a payload is in. -/
def format : RequestPayload → WireFormat
  | protobuf _ => .protobuf
  | json _ => .json
  | jspb _ => .jspb
  | textFormat _ => .textFormat

/-- The bytes of a binary payload. -/
def protobuf? : RequestPayload → Option Bytes
  | protobuf bytes => some bytes
  | _ => none

/-- The text of a JSON payload. -/
def json? : RequestPayload → Option String
  | json text => some text
  | _ => none

/-- The text of a JSPB payload. -/
def jspb? : RequestPayload → Option String
  | jspb text => some text
  | _ => none

/-- The text of a payload in text format. -/
def textFormat? : RequestPayload → Option String
  | textFormat text => some text
  | _ => none

end RequestPayload

/-- One test case. -/
structure Request where
  payload : Option RequestPayload := none
  requestedOutputFormat : WireFormat := .unspecified
  messageType : String := ""
  testCategory : TestCategory := .unspecifiedTest
  printUnknownFields : Bool := false
  deriving DecidableEq, Repr

namespace Request

/-- The fields of a request. -/
def fields : List (Field Request) := [
  ⟨1, .alternative .bytes RequestPayload.protobuf RequestPayload.protobuf?, payload,
    fun value request => { request with payload := value }⟩,
  ⟨2, .alternative .string RequestPayload.json RequestPayload.json?, payload,
    fun value request => { request with payload := value }⟩,
  ⟨7, .alternative .string RequestPayload.jspb RequestPayload.jspb?, payload,
    fun value request => { request with payload := value }⟩,
  ⟨8, .alternative .string RequestPayload.textFormat RequestPayload.textFormat?, payload,
    fun value request => { request with payload := value }⟩,
  ⟨3, .enumeration WireFormat, requestedOutputFormat,
    fun value request => { request with requestedOutputFormat := value }⟩,
  ⟨4, .singular .string, messageType,
    fun value request => { request with messageType := value }⟩,
  ⟨5, .enumeration TestCategory, testCategory,
    fun value request => { request with testCategory := value }⟩,
  ⟨9, .singular .bool, printUnknownFields,
    fun value request => { request with printUnknownFields := value }⟩]

instance : Message Request := .ofFields {} fields

end Request

end Protobuf.Conformance

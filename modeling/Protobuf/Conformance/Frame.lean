/-
**Frames.**

On a stream every request and every response is preceded by its length, four bytes least significant
first.

* `Frame.announced`: what four bytes, or fewer at the end of the input, announce: the end, or the
  length of a request of at most `limit` bytes;
* `Frame.answer`: the framed response to a request of which so many bytes arrived.
-/

import Protobuf.Conformance.Testee

namespace Protobuf.Conformance.Frame

/-- The number of bytes of a length. -/
def prefixLength : Nat := 4

/-- The largest request that is admitted unless another limit is asked for. -/
def defaultLimit : Nat := 64 * 1024 * 1024

/-- The largest length that can be written. -/
def maxLength : Nat := UInt32.size - 1

/-- The length that the next frame announces; none at the end of the input. -/
def announced (limit : Nat) (bytes : Bytes) : Except Failure (Option Nat) :=
  if bytes.length = 0 then .ok none
  else if bytes.length = prefixLength then
    let length := Bytes.ofLittleEndian bytes
    if limit < length then .error (.frameTooLarge length limit) else .ok (some length)
  else .error (.truncatedFrame prefixLength bytes.length)

/-- A message with its length before it. -/
def encode (message : Bytes) : Bytes :=
  Bytes.littleEndian prefixLength message.length ++ message

/-- The framed response to a request that was announced with a length. -/
def answer (length : Nat) (body : Bytes) : Except Failure Bytes := do
  if body.length ≠ length then throw (.truncatedFrame length body.length)
  let response ← (Testee.handleRaw body).mapError .codec
  if maxLength < response.length then throw (.frameTooLarge response.length maxLength)
  return encode response

end Protobuf.Conformance.Frame

/-
**Encoder sessions.**

A session is a stack of encoders, never empty. Writes go to the top one; `nest` puts a fresh encoder
on top, and `splice` takes the top off and writes it as a field of the one below. A write that stops
leaves its encoder where it stopped; a child that `splice` took off is gone all the same.
-/

import Protobuf.Encoder.Stepwise

namespace Protobuf.Encoder

/-- What can be asked of a session. -/
inductive Operation where
  /-- Writes to the encoder on top. -/
  | write (write : Write)
  /-- Puts a fresh encoder on top. -/
  | nest
  /-- Writes the top as a field of the encoder below, unless it is the only one. -/
  | splice (number : Nat)

/-- The answer to an operation. -/
structure Reply where
  /-- Whether there was something to do. -/
  done : Bool := true
  /-- Why writing stopped. -/
  refusal : Option Stop := none
  /-- The bytes added to the encoder now on top. -/
  added : Bytes := []

/-- A stack of encoders. -/
structure Session where
  /-- The encoder that writes go to. -/
  top : Encoder
  /-- The encoders below it. -/
  below : List Encoder := []

namespace Session

/-- The answer of a writer on an encoder, and the encoder after it. -/
def reply (before : Encoder) (writer : Writer) : Reply × Encoder :=
  match writer before with
  | .ok _ after => ({ added := after.bytes.drop before.size }, after)
  | .error stop after => ({ refusal := some stop, added := after.bytes.drop before.size }, after)

/-- Carries out one operation. -/
def step (session : Session) : Operation → Reply × Session
  | .write write =>
    let (reply, top) := reply session.top (perform write)
    (reply, { session with top })
  | .nest => ({}, ⟨{}, session.top :: session.below⟩)
  | .splice number =>
    match session.below with
    | [] => ({ done := false }, session)
    | parent :: below =>
      let (reply, top) := reply parent (perform (.child number session.top))
      (reply, ⟨top, below⟩)

/-- Carries out some operations; gives each reply with the encoder then on top, and the session at
the end. -/
def run (session : Session) : List Operation → List (Reply × Encoder) × Session
  | [] => ([], session)
  | operation :: operations =>
    let (reply, session) := session.step operation
    let (replies, last) := session.run operations
    ((reply, session.top) :: replies, last)

/-- What is written to the encoder at the bottom. -/
def finish (session : Session) : Bytes := (session.below.getLast?.getD session.top).bytes

end Session

end Protobuf.Encoder

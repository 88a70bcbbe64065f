/-
**Decoder sessions.**

A session is a stack of decoders, never empty, driven by operations on the top one. An operation may
fail; the session goes on with the cursor where the failure left it. `Session.run` gives the reply
to every operation together with the decoder then on top.
-/

import Protobuf.Decoder
import Protobuf.MessageType

namespace Protobuf.Decoder

/-- What can be asked of the decoder on top. -/
inductive Operation where
  /-- Reads a scalar. -/
  | scalar (type : ScalarType)
  /-- Reads a tag. -/
  | tag
  /-- Reads a payload and puts a decoder over it on top. -/
  | enter
  /-- Puts a copy on top. -/
  | fork
  /-- Drops the top, unless it is the only one. -/
  | leave
  /-- Skips a payload of the given framing. -/
  | skip (wire : Nat)
  /-- Skips a whole field. -/
  | skipField
  /-- Reads an occurrence of a repeated field whose elements have the given framing and type. -/
  | repeated (wire : Nat) (element : WireType) (type : ScalarType)
  /-- Reads a map entry. -/
  | entry (key value : ScalarType)
  /-- Merges an embedded message into an empty one. -/
  | message (type : MessageType)

/-- What an operation found. -/
inductive Finding where
  /-- A scalar. -/
  | scalar (scalar : Scalar)
  /-- A tag. -/
  | tag (tag : Tag)
  /-- Nothing but whether it was done. -/
  | done (done : Bool)
  /-- The values read, up to the fault if there is one. -/
  | elements (type : ScalarType) (values : List type.Value)
  /-- The members of an entry. -/
  | entry (key value : Scalar)
  /-- The message, merged up to the fault if there is one. -/
  | message (type : MessageType) (message : type.Value)

/-- The answer to an operation. -/
structure Reply where
  /-- What was found; a list or a message also if there is a fault. -/
  finding : Option Finding
  /-- What stopped the operation. -/
  fault : Option Fault

/-- A stack of decoders. -/
structure Session where
  /-- The decoder that operations act on. -/
  top : Decoder
  /-- The decoders below it. -/
  below : List Decoder := []

namespace Session

/-- Reads a value off the top. -/
def read {α : Type} (session : Session) (reader : Reader α) (finding : α → Finding) :
    Reply × Session :=
  match session.top.read reader with
  | (.ok value, top) => (⟨some (finding value), none⟩, { session with top })
  | (.error fault, top) => (⟨none, some fault⟩, { session with top })

/-- Scans items off the top. -/
def scan {α : Type} (session : Session) (scanner : Scanner α) (finding : List α → Finding) :
    Reply × Session :=
  let (items, fault, top) := session.top.scan scanner
  (⟨some (finding items), fault⟩, { session with top })

/-- Carries out one operation. -/
def step (session : Session) : Operation → Reply × Session
  | .scalar type => session.read type.read fun value => .scalar ⟨type, value⟩
  | .tag => session.read Tag.read .tag
  | .enter =>
    match session.top.read Payload.read with
    | (.ok payload, top) =>
      (⟨some (.done true), none⟩, ⟨Decoder.ofBytes payload, top :: session.below⟩)
    | (.error fault, top) => (⟨none, some fault⟩, { session with top })
  | .fork => (⟨some (.done true), none⟩, ⟨session.top, session.top :: session.below⟩)
  | .leave =>
    match session.below with
    | [] => (⟨some (.done false), none⟩, session)
    | next :: below => (⟨some (.done true), none⟩, ⟨next, below⟩)
  | .skip wire => session.read (Payload.skip wire) fun _ => .done true
  | .skipField =>
    session.read (do let tag ← Tag.read; Payload.skip tag.wire) fun _ => .done true
  | .repeated wire element type =>
    session.scan (Repeated.scan wire element type) (.elements type)
  | .entry key value =>
    session.read (Entry.read key value) fun entry => .entry ⟨key, entry.1⟩ ⟨value, entry.2⟩
  | .message type =>
    session.scan (Scanner.within (Message.scan type.Value)) fun edits =>
      .message type (Edit.all edits Message.empty)

/-- Carries out some operations; gives each reply with the decoder then on top. -/
def run (session : Session) : List Operation → List (Reply × Decoder)
  | [] => []
  | operation :: operations =>
    let (reply, session) := session.step operation
    (reply, session.top) :: session.run operations

end Session

end Protobuf.Decoder

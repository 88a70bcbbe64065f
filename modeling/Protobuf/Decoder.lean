/-
**Decoders: a cursor over a span.**

A `Decoder` is a span and the part of it not read yet. Readers and scanners move the cursor; a fault
leaves it where the reader stopped.
-/

import Protobuf.Scan

namespace Protobuf

/-- A cursor over a span. -/
structure Decoder where
  /-- The bytes the decoder was made of. -/
  span : Bytes
  /-- The bytes not consumed yet. -/
  unread : Bytes
  deriving DecidableEq, Repr

namespace Decoder

variable {α : Type}

/-- A decoder at the beginning of a span. -/
def ofBytes (bytes : Bytes) : Decoder := ⟨bytes, bytes⟩

/-- The number of bytes not consumed yet. -/
def remaining (decoder : Decoder) : Nat := decoder.unread.length

/-- The number of bytes consumed. -/
def position (decoder : Decoder) : Nat := decoder.span.length - decoder.remaining

/-- Whether everything is consumed. -/
def isAtEnd (decoder : Decoder) : Bool := decoder.unread.isEmpty

/-- Reads a value, or meets a fault, and moves the cursor. -/
def read (reader : Reader α) (decoder : Decoder) : Except Fault α × Decoder :=
  match reader decoder.unread with
  | .ok value unread => (.ok value, { decoder with unread })
  | .error fault unread => (.error fault, { decoder with unread })

/-- Reads items, up to a fault, and moves the cursor. -/
def scan (scanner : Scanner α) (decoder : Decoder) : List α × Option Fault × Decoder :=
  let scan := scanner decoder.unread
  (scan.items, scan.fault, { decoder with unread := scan.unread })

end Decoder

end Protobuf

/-
**Extents: where the fields of a byte string lie.**

Framing alone is enough to find the fields of a byte string. `Extent.walk` reads tag after tag and
skips the payloads, until the end or the first fault.
-/

import Protobuf.Scan

namespace Protobuf

/-- Where a field lies. -/
structure Extent where
  /-- The position of its tag. -/
  start : Nat
  /-- Its tag. -/
  tag : Tag
  /-- The number of bytes after its tag. -/
  size : Nat
  deriving DecidableEq, Repr

namespace Extent

/-- Reads the extent of one field, in a span of so many bytes. -/
def read (total : Nat) : Reader Extent := do
  let whole ← get
  let tag ← Tag.read
  let payload ← get
  Payload.skip tag.wire
  let rest ← get
  return ⟨total - whole.length, tag, payload.length - rest.length⟩

theorem read_consuming (total : Nat) : (read total).Consuming := by
  intro bytes extent unread taken
  refine Tag.read_consuming.bind (fun tag => ?_) taken
  intro payload extent unread taken
  exact (Payload.skip_consuming tag.wire).bind (fun _ _ _ _ last => by cases last; simp) taken
    |> Nat.le_of_lt

/-- The extents of the fields of a byte string. -/
def walk (bytes : Bytes) : Scan Extent :=
  Scanner.untilEnd (Scanner.ofReader (read bytes.length))
    (Scanner.ofReader_consuming (read_consuming bytes.length)) bytes

end Extent

end Protobuf

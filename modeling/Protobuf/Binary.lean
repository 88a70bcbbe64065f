/-
**Floating-point numbers as bits.**

The wire carries floats by their IEEE bit patterns and never computes with them. A `Binary32` or a
`Binary64` is its bits: two values are equal only if their bits are, so that `-0.0` differs from
`0.0` and every NaN keeps its payload.
-/

namespace Protobuf

/-- A single-precision number, by its bits. -/
structure Binary32 where
  /-- Sign, exponent and fraction. -/
  bits : UInt32
  deriving DecidableEq, Repr, Inhabited

/-- A double-precision number, by its bits. -/
structure Binary64 where
  /-- Sign, exponent and fraction. -/
  bits : UInt64
  deriving DecidableEq, Repr, Inhabited

end Protobuf

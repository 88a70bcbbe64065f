/-
**ZigZag: signed numbers as unsigned ones of the same width.**

The sign moves to the lowest bit, so that numbers near zero stay small whatever their sign:
`0, -1, 1, -2, 2, …` become `0, 1, 2, 3, 4, …`. Both directions work on the bits of a word: a signed
number is shifted left and inverted if it is negative; an unsigned one is shifted right and inverted
if it is odd.
-/

namespace Protobuf.ZigZag

/-- A signed 32-bit number, folded. -/
def encode32 (value : Int32) : UInt32 := ((value <<< 1) ^^^ (value >>> 31)).toUInt32

/-- The signed 32-bit number a folded one stands for. -/
def decode32 (folded : UInt32) : Int32 := (folded >>> 1).toInt32 ^^^ -(folded &&& 1).toInt32

/-- A signed 64-bit number, folded. -/
def encode64 (value : Int64) : UInt64 := ((value <<< 1) ^^^ (value >>> 63)).toUInt64

/-- The signed 64-bit number a folded one stands for. -/
def decode64 (folded : UInt64) : Int64 := (folded >>> 1).toInt64 ^^^ -(folded &&& 1).toInt64

end Protobuf.ZigZag

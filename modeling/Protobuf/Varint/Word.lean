/-
**Varints of machine words.**

`Varint` computes with numbers. A word has a width, and is spelled, measured and read by what is done to
its bits: masks, shifts, and the zeros in front of the highest set bit.

* `Varint.encodeWord`, `Varint.sizeWord`, `Varint.readWord`: words of any width;
* `IntegerType`: the integers of 32 and of 64 bits, with and without a sign. One with a sign travels
  folded (`ZigZag`), as a word of its own width.
-/

import Protobuf.Varint
import Protobuf.ZigZag

namespace Protobuf

namespace Varint

/-- The shortest spelling of a word. -/
def encodeWord {width : Nat} (word : BitVec width) : Bytes :=
  if word.toNat < 0x80 then [UInt8.ofBitVec (word.setWidth 8)]
  else UInt8.ofBitVec (word.setWidth 8 ||| 0x80) :: encodeWord (word >>> 7)
termination_by word.toNat
decreasing_by
  rw [BitVec.toNat_ushiftRight, Nat.shiftRight_eq_div_pow]
  omega

/-- The number of bytes of the shortest spelling. -/
def sizeWord {width : Nat} (word : BitVec width) : Nat :=
  max 1 ((width - word.clz.toNat + 6) / 7)

/-- Reads on with the digit at bit `shift`, with the bits of `word` read so far. -/
def readWordFrom {width : Nat} (shift : Nat) (word : BitVec width) :
    Bytes → Reader.Result (BitVec width)
  | [] => .error (.bufferOverrun 1 0) []
  | byte :: rest =>
    if width ≤ shift then .error (.misuse (.overshift shift width)) rest
    else if width - shift ≤ 7 ∧ width - shift < 8 - byte.toBitVec.clz.toNat then
      .error .invalidVarint rest
    else
      let word := word ||| (byte.toBitVec &&& 0x7F).setWidth width <<< shift
      if byte.toBitVec &&& 0x80 = 0 then .ok word rest else readWordFrom (shift + 7) word rest

/-- Reads a word. The bytes looked at are consumed also on failure. -/
def readWord (width : Nat) : Reader (BitVec width) := readWordFrom 0 0

end Varint

/-- An integer with varints of its own width. -/
inductive IntegerType where
  | uint32 | uint64 | int32 | int64
  deriving DecidableEq, Repr

namespace IntegerType

/-- The integers of a type. -/
abbrev Value : IntegerType → Type
  | uint32 => UInt32
  | uint64 => UInt64
  | int32 => Int32
  | int64 => Int64

/-- The number of bits of an integer. -/
abbrev width : IntegerType → Nat
  | uint32 | int32 => 32
  | uint64 | int64 => 64

/-- The word that travels for an integer. -/
def toWord : (type : IntegerType) → type.Value → BitVec type.width
  | uint32, value => UInt32.toBitVec value
  | uint64, value => UInt64.toBitVec value
  | int32, value => (ZigZag.encode32 value).toBitVec
  | int64, value => (ZigZag.encode64 value).toBitVec

/-- The integer that a word travels for. -/
def ofWord : (type : IntegerType) → BitVec type.width → type.Value
  | uint32, word => UInt32.ofBitVec word
  | uint64, word => UInt64.ofBitVec word
  | int32, word => ZigZag.decode32 (UInt32.ofBitVec word)
  | int64, word => ZigZag.decode64 (UInt64.ofBitVec word)

/-- The varint of an integer. -/
def encode (type : IntegerType) (value : type.Value) : Bytes :=
  Varint.encodeWord (type.toWord value)

/-- The number of bytes of the varint of an integer. -/
def size (type : IntegerType) (value : type.Value) : Nat := Varint.sizeWord (type.toWord value)

/-- Reads an integer of at most as many bits as its type has. -/
def read (type : IntegerType) : Reader type.Value := type.ofWord <$> Varint.readWord type.width

end IntegerType

end Protobuf

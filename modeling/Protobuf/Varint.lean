/-
**Varints: numbers in base 128.**

A varint spells a number in groups of seven bits, least significant first; every byte but the last
has its high bit set.

* `encode`: the shortest spelling;
* `size`: its length, computed from the bit length alone;
* `read width`: a number of at most `width` bits. Longer spellings than the shortest are accepted
  as long as they fit: the byte that reaches the width may carry only the bits that are left, so
  that neither a set bit nor a continuation beyond them passes.
-/

import Protobuf.Reader

namespace Protobuf.Varint

/-- The shortest spelling of a number. -/
def encode (n : Nat) : Bytes :=
  if n < 128 then [UInt8.ofNat n] else UInt8.ofNat (n % 128 + 128) :: encode (n / 128)

/-- The number of bits up to the highest set one. -/
def bitLength (n : Nat) : Nat := if n = 0 then 0 else n.log2 + 1

/-- The number of bytes of the shortest spelling. -/
def size (n : Nat) : Nat := max 1 ((bitLength n + 6) / 7)

/-- Reads on with the digit at bit `shift`, with `value` spelled so far. -/
def readFrom (width shift value : Nat) : Bytes → Reader.Result Nat
  | [] => .error (.bufferOverrun 1 0) []
  | byte :: rest =>
    if width ≤ shift then .error (.misuse (.overshift shift width)) rest
    else if width - shift ≤ 7 ∧ width - shift < bitLength byte.toNat then .error .invalidVarint rest
    else if byte.toNat < 128 then .ok (value + byte.toNat <<< shift) rest
    else readFrom width (shift + 7) (value + (byte.toNat % 128) <<< shift) rest

/-- Reads a number of at most `width` bits. The bytes looked at are consumed also on failure. -/
def read (width : Nat) : Reader Nat := readFrom width 0 0

theorem readFrom_consuming (width shift value : Nat) {bytes unread : Bytes} {result : Nat}
    (taken : readFrom width shift value bytes = .ok result unread) :
    unread.length < bytes.length := by
  induction bytes generalizing shift value with
  | nil => cases taken
  | cons byte rest ih =>
    simp only [readFrom] at taken
    split at taken
    · cases taken
    · split at taken
      · cases taken
      · split at taken
        · cases taken
          simp
        · exact Nat.lt_succ_of_lt (ih _ _ taken)

theorem read_consuming (width : Nat) : (read width).Consuming :=
  fun _ _ _ taken => readFrom_consuming width 0 0 taken

end Protobuf.Varint

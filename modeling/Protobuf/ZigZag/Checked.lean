/-
**ZigZag with every step checked.**

A step of `ZigZag` can go wrong on words of a fixed width: no word can be shifted by as many bits as it
has, and the least signed number has no opposite. Here a step that goes wrong ends the computation.

* `ZigZag.Overflow`: the step that went wrong;
* `ZigZag.shiftLeft`, `ZigZag.shiftRight`, `ZigZag.shiftSign`, `ZigZag.negate`: the steps;
* `ZigZag.fold`, `ZigZag.unfold`: both directions, at any width.
-/

import Protobuf.ZigZag

namespace Protobuf.ZigZag

/-- A step that a word has no room for. -/
inductive Overflow where
  /-- A word was to be shifted by all of its bits, or by more. -/
  | shift (count width : Nat)
  /-- The opposite of the least number was to be taken. -/
  | negation (width : Nat)
  deriving DecidableEq, Repr

variable {width : Nat}

/-- Shifts a word by less than its width. -/
def shifted (shift : BitVec width → Nat → BitVec width) (word : BitVec width) (count : Nat) :
    Except Overflow (BitVec width) :=
  if width ≤ count then .error (.shift count width) else .ok (shift word count)

/-- A word shifted to the left. -/
def shiftLeft : BitVec width → Nat → Except Overflow (BitVec width) := shifted (· <<< ·)

/-- A word shifted to the right, zeros coming in. -/
def shiftRight : BitVec width → Nat → Except Overflow (BitVec width) := shifted (· >>> ·)

/-- A word shifted to the right, copies of its sign coming in. -/
def shiftSign : BitVec width → Nat → Except Overflow (BitVec width) := shifted BitVec.sshiftRight

/-- The opposite of a signed number. -/
def negate (word : BitVec width) : Except Overflow (BitVec width) :=
  if word = BitVec.intMin width then .error (.negation width) else .ok (-word)

/-- The bits of a signed number, folded. -/
def fold (value : BitVec width) : Except Overflow (BitVec width) := do
  let double ← shiftLeft value 1
  let signs ← shiftSign value (width - 1)
  return double ^^^ signs

/-- The bits of the signed number a folded one stands for. -/
def unfold (folded : BitVec width) : Except Overflow (BitVec width) := do
  let half ← shiftRight folded 1
  let signs ← negate (folded &&& BitVec.ofNat width 1)
  return half ^^^ signs

end Protobuf.ZigZag

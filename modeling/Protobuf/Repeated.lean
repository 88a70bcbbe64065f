/-
**Repeated scalars, packed or not.**

Elements of a fixed or varint framing may share one length-delimited payload, a packed run. Which
form an occurrence has is told by its tag alone:

* `Repeated.isPacked`: the tag says length-delimited and the elements are not;
* `Repeated.scan`: the elements of one occurrence. In a run they are kept up to the first fault, and
  the whole run is consumed whatever is in it;
* `Repeated.packed`: a field that holds all values in one run, or nothing if there are none.
-/

import Protobuf.Scan
import Protobuf.Scalar

namespace Protobuf.Repeated

/-- Whether an occurrence with these framing bits is a packed run of elements of this framing. -/
def isPacked (wire : Nat) (element : WireType) : Bool :=
  wire == WireType.lengthDelimited.id && element != .lengthDelimited

/-- Reads one value as an item. -/
def single (type : ScalarType) : Scanner type.Value := Scanner.ofReader type.read

theorem single_consuming (type : ScalarType) : (single type).Consuming :=
  Scanner.ofReader_consuming type.read_consuming

/-- Reads the values of a packed run. -/
def run (type : ScalarType) : Scanner type.Value :=
  Scanner.within (Scanner.untilEnd (single type) (single_consuming type))

/-- Reads the values of one occurrence of a repeated field. -/
def scan (wire : Nat) (element : WireType) (type : ScalarType) : Scanner type.Value :=
  if isPacked wire element then run type else single type

theorem scan_consuming (wire : Nat) (element : WireType) (type : ScalarType) :
    (scan wire element type).Consuming := by
  unfold scan
  split
  · exact Scanner.within_consuming _
  · exact single_consuming type

/-- A field that holds some values in one packed run. -/
def packed (number : Nat) (type : ScalarType) (values : List type.Value) : Bytes :=
  if values = [] then []
  else Tag.encode number .lengthDelimited ++ Payload.encode (values.flatMap type.encode)

/-- A field for every value, in order. -/
def unpacked (number : Nat) (type : ScalarType) (values : List type.Value) : Bytes :=
  values.flatMap fun value => Scalar.field number ⟨type, value⟩

end Protobuf.Repeated

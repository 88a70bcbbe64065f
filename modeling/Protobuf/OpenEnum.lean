/-
**Open enumerations.**

An enumeration is open if a number that it does not declare is kept as it is, so that it survives
being read and written again. Zero is always declared and is the default.
-/

namespace Protobuf

/-- An enumeration that has a value for every 32-bit number. -/
class OpenEnum (E : Type) where
  /-- The number of a value. -/
  number : E → Int32
  /-- The value of a number: the declared one, if there is one. -/
  ofNumber : Int32 → E
  /-- The name of a value; an undeclared one shows its number. -/
  name : E → String
  /-- Every number survives. -/
  number_ofNumber : ∀ value, number (ofNumber value) = value := by grind

namespace OpenEnum

variable {E : Type} [OpenEnum E]

/-- The value of a field that is not on the wire. -/
def default : E := ofNumber 0

/-- Whether a value is what its own number stands for: not an undeclared spelling of a declared
number. -/
def IsCanonical (value : E) : Prop := ofNumber (number value) = value

instance [DecidableEq E] (value : E) : Decidable (IsCanonical value) :=
  inferInstanceAs (Decidable (ofNumber (number value) = value))

end OpenEnum

/-- The name of an undeclared number. -/
def unknownName (number : Int32) : String := s!"Unknown({number.toInt})"

end Protobuf

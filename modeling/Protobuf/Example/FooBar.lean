/-
**Package `foo.bar`.**

`foo.bar.example1` has a member of every kind: each scalar type, open enumerations of three scopes,
a repeated string, a packed run, embedded messages of three scopes, a map and a choice.
-/

import Protobuf.Example.FizBaz

namespace Protobuf.FooBar

/-- `foo.bar.AEnum1` -/
inductive AEnum1 where
  | a
  | b
  | c
  | unknown (number : Int32)
  deriving DecidableEq, Repr

instance : OpenEnum AEnum1 where
  number
    | .a => 0
    | .b => 1
    | .c => 2
    | .unknown number => number
  ofNumber number :=
    if number = 0 then .a
    else if number = 1 then .b
    else if number = 2 then .c
    else .unknown number
  name
    | .a => "A"
    | .b => "B"
    | .c => "C"
    | .unknown number => unknownName number

/-- `foo.bar.example2` -/
structure Example2 where
  aint32 : Int32 := 0
  deriving DecidableEq, Repr

namespace Example2

/-- The fields of `foo.bar.example2`. -/
def fields : List (Field Example2) := [
  ⟨1, .singular .int32, Example2.aint32, fun value message => { message with aint32 := value }⟩]

instance : Message Example2 := .ofFields {} fields

end Example2

/-- `foo.bar.example1.AEnum2` -/
inductive Example1.AEnum2 where
  | c
  | d
  | unknown (number : Int32)
  deriving DecidableEq, Repr

instance : OpenEnum Example1.AEnum2 where
  number
    | .c => 0
    | .d => 1
    | .unknown number => number
  ofNumber number :=
    if number = 0 then .c else if number = 1 then .d else .unknown number
  name
    | .c => "C"
    | .d => "D"
    | .unknown number => unknownName number

/-- `foo.bar.example1.example2` -/
structure Example1.Example2 where
  astring : String := ""
  deriving DecidableEq, Repr

namespace Example1.Example2

/-- The fields of `foo.bar.example1.example2`. -/
def fields : List (Field Example1.Example2) := [
  ⟨1, .singular .string, Example2.astring, fun value message => { message with astring := value }⟩]

instance : Message Example1.Example2 := .ofFields {} fields

end Example1.Example2

/-- The choice `aoneof` of `foo.bar.example1`. -/
inductive Example1.Aoneof where
  | oostring (value : String)
  | ooint (value : Int32)
  deriving DecidableEq, Repr

namespace Example1.Aoneof

/-- The string of a choice, if it is one. -/
def oostring? : Aoneof → Option String
  | oostring value => some value
  | ooint _ => none

/-- The integer of a choice, if it is one. -/
def ooint? : Aoneof → Option Int32
  | oostring _ => none
  | ooint value => some value

end Example1.Aoneof

/-- `foo.bar.example1` -/
structure Example1 where
  adouble : Binary64 := ⟨0⟩
  afloat : Binary32 := ⟨0⟩
  aint32 : Int32 := 0
  aint64 : Int64 := 0
  auint32 : UInt32 := 0
  auint64 : UInt64 := 0
  asint32 : Int32 := 0
  asint64 : Int64 := 0
  afixed32 : UInt32 := 0
  afixed64 : UInt64 := 0
  asfixed32 : Int32 := 0
  asfixed64 : Int64 := 0
  abool : Bool := false
  astring : String := ""
  abytes : Bytes := []
  aenum1 : AEnum1 := .a
  aenum2 : Example1.AEnum2 := .c
  aenum22 : FizBaz.AEnum2 := .y
  manystring : List String := []
  manyint64 : List Int64 := []
  aexample2 : Option Example1.Example2 := none
  aexample22 : Option Example2 := none
  aexample23 : Option FizBaz.Example2 := none
  amap : TextMap := .empty
  outoforder : Int64 := 0
  aoneof : Option Example1.Aoneof := none
  deriving DecidableEq

namespace Example1

/-- The fields of `foo.bar.example1`. -/
def fields : List (Field Example1) := [
  ⟨1, .singular .double, adouble, fun value message => { message with adouble := value }⟩,
  ⟨2, .singular .float, afloat, fun value message => { message with afloat := value }⟩,
  ⟨3, .singular .int32, aint32, fun value message => { message with aint32 := value }⟩,
  ⟨4, .singular .int64, aint64, fun value message => { message with aint64 := value }⟩,
  ⟨5, .singular .uint32, auint32, fun value message => { message with auint32 := value }⟩,
  ⟨6, .singular .uint64, auint64, fun value message => { message with auint64 := value }⟩,
  ⟨7, .singular .sint32, asint32, fun value message => { message with asint32 := value }⟩,
  ⟨8, .singular .sint64, asint64, fun value message => { message with asint64 := value }⟩,
  ⟨9, .singular .fixed32, afixed32, fun value message => { message with afixed32 := value }⟩,
  ⟨10, .singular .fixed64, afixed64, fun value message => { message with afixed64 := value }⟩,
  ⟨11, .singular .sfixed32, asfixed32, fun value message => { message with asfixed32 := value }⟩,
  ⟨12, .singular .sfixed64, asfixed64, fun value message => { message with asfixed64 := value }⟩,
  ⟨13, .singular .bool, abool, fun value message => { message with abool := value }⟩,
  ⟨14, .singular .string, astring, fun value message => { message with astring := value }⟩,
  ⟨15, .singular .bytes, abytes, fun value message => { message with abytes := value }⟩,
  ⟨16, .enumeration AEnum1, aenum1, fun value message => { message with aenum1 := value }⟩,
  ⟨17, .enumeration AEnum2, aenum2, fun value message => { message with aenum2 := value }⟩,
  ⟨18, .enumeration FizBaz.AEnum2, aenum22,
    fun value message => { message with aenum22 := value }⟩,
  ⟨19, .repeated .string, manystring, fun value message => { message with manystring := value }⟩,
  ⟨20, .repeated .int64, manyint64, fun value message => { message with manyint64 := value }⟩,
  ⟨21, .embedded Example1.Example2, aexample2,
    fun value message => { message with aexample2 := value }⟩,
  ⟨22, .embedded FooBar.Example2, aexample22,
    fun value message => { message with aexample22 := value }⟩,
  ⟨23, .embedded FizBaz.Example2, aexample23,
    fun value message => { message with aexample23 := value }⟩,
  ⟨24, .textMap, amap, fun value message => { message with amap := value }⟩,
  ⟨50, .singular .int64, outoforder, fun value message => { message with outoforder := value }⟩,
  ⟨60, .alternative .string Aoneof.oostring Aoneof.oostring?, aoneof,
    fun value message => { message with aoneof := value }⟩,
  ⟨61, .alternative .int32 Aoneof.ooint Aoneof.ooint?, aoneof,
    fun value message => { message with aoneof := value }⟩]

instance : Message Example1 := .ofFields {} fields

end Example1

end Protobuf.FooBar

/-
**The messages of the example, laid over each other member by member.**

`Message.overlay` folds over the rows of a table. Here is what it comes to for the example messages,
one equation a member:

* `FooBar.Example1.overlay`: a scalar, an enumeration and a choice are the later one's if it has any; a
  list has the elements of both, the earlier ones first; an embedded message is there if it is in
  either, and is laid over the earlier one if it is in both; a map has the entries of both;
* `FooBar.Example1.overlay_eq`: it is what the table says. The rows of a choice come to one member;
* `FooBar.Example1.overlay_empty`: the empty message has nothing to be seen under a later one, so no
  member is missing from the table;
* the tables of the example pass the checks of `LawfulTable`, hence the instances of `LawfulMessage`.
-/

import Protobuf.Proofs.Tables
import Protobuf.Proofs.TextMap
import Protobuf.Example.FooBar

namespace Protobuf

/-! ### Enumerations -/

theorem OpenEnum.number_eq_zero_iff {E : Type} [OpenEnum E] {value : E}
    (canonical : IsCanonical value) : number value = 0 ↔ value = default := by
  constructor
  · intro zero
    rw [← canonical, zero]
    rfl
  · rintro rfl
    exact number_ofNumber 0

theorem OpenEnum.overlay_eq {E : Type} [OpenEnum E] [DecidableEq E] (earlier : E) {later : E}
    (canonical : IsCanonical later) :
    (if number later = 0 then earlier else later) = if later = default then earlier else later := by
  by_cases zero : number later = 0
  · rw [if_pos zero, if_pos ((number_eq_zero_iff canonical).mp zero)]
  · rw [if_neg zero, if_neg (zero ∘ (number_eq_zero_iff canonical).mpr)]

/-! ### Messages of one scalar -/

namespace FizBaz.Example2

/-- An earlier message with a later one laid over it. -/
def overlay (earlier later : Example2) : Example2 where
  zomg := if later.zomg = 0 then earlier.zomg else later.zomg

theorem lawfulTable : LawfulTable {} fields :=
  .singular ⟨fun _ _ => rfl, fun _ => rfl, fun _ _ _ => rfl, trivial, by decide, by decide⟩ rfl
    fun _ => rfl

instance : LawfulMessage Example2 := lawfulTable.lawfulMessage

/-- There is no enumeration in it. -/
@[simp] theorem isCanonical (message : Example2) : Message.IsCanonical message := by
  simp [Message.IsCanonical, fields, Kind.IsCanonical]

end FizBaz.Example2

namespace FooBar.Example2

/-- An earlier message with a later one laid over it. -/
def overlay (earlier later : Example2) : Example2 where
  aint32 := if later.aint32 = 0 then earlier.aint32 else later.aint32

theorem lawfulTable : LawfulTable {} fields :=
  .singular ⟨fun _ _ => rfl, fun _ => rfl, fun _ _ _ => rfl, trivial, by decide, by decide⟩ rfl
    fun _ => rfl

instance : LawfulMessage Example2 := lawfulTable.lawfulMessage

/-- There is no enumeration in it. -/
@[simp] theorem isCanonical (message : Example2) : Message.IsCanonical message := by
  simp [Message.IsCanonical, fields, Kind.IsCanonical]

end FooBar.Example2

namespace FooBar.Example1.Example2

/-- An earlier message with a later one laid over it. -/
def overlay (earlier later : Example1.Example2) : Example1.Example2 where
  astring := if later.astring = "" then earlier.astring else later.astring

theorem lawfulTable : LawfulTable {} fields :=
  .singular ⟨fun _ _ => rfl, fun _ => rfl, fun _ _ _ => rfl, trivial, by decide, by decide⟩ rfl
    fun _ => rfl

instance : LawfulMessage Example1.Example2 := lawfulTable.lawfulMessage

/-- There is no enumeration in it. -/
@[simp] theorem isCanonical (message : Example1.Example2) : Message.IsCanonical message := by
  simp [Message.IsCanonical, fields, Kind.IsCanonical]

end FooBar.Example1.Example2

/-! ### The message of every kind -/

namespace FooBar.Example1

attribute [ext] Example1

/-- An earlier message with a later one laid over it. -/
def overlay (earlier later : Example1) : Example1 where
  adouble := if later.adouble = ⟨0⟩ then earlier.adouble else later.adouble
  afloat := if later.afloat = ⟨0⟩ then earlier.afloat else later.afloat
  aint32 := if later.aint32 = 0 then earlier.aint32 else later.aint32
  aint64 := if later.aint64 = 0 then earlier.aint64 else later.aint64
  auint32 := if later.auint32 = 0 then earlier.auint32 else later.auint32
  auint64 := if later.auint64 = 0 then earlier.auint64 else later.auint64
  asint32 := if later.asint32 = 0 then earlier.asint32 else later.asint32
  asint64 := if later.asint64 = 0 then earlier.asint64 else later.asint64
  afixed32 := if later.afixed32 = 0 then earlier.afixed32 else later.afixed32
  afixed64 := if later.afixed64 = 0 then earlier.afixed64 else later.afixed64
  asfixed32 := if later.asfixed32 = 0 then earlier.asfixed32 else later.asfixed32
  asfixed64 := if later.asfixed64 = 0 then earlier.asfixed64 else later.asfixed64
  abool := if later.abool = false then earlier.abool else later.abool
  astring := if later.astring = "" then earlier.astring else later.astring
  abytes := if later.abytes = [] then earlier.abytes else later.abytes
  aenum1 := if later.aenum1 = .a then earlier.aenum1 else later.aenum1
  aenum2 := if later.aenum2 = .c then earlier.aenum2 else later.aenum2
  aenum22 := if later.aenum22 = .y then earlier.aenum22 else later.aenum22
  manystring := earlier.manystring ++ later.manystring
  manyint64 := earlier.manyint64 ++ later.manyint64
  aexample2 := earlier.aexample2.merge Example1.Example2.overlay later.aexample2
  aexample22 := earlier.aexample22.merge FooBar.Example2.overlay later.aexample22
  aexample23 := earlier.aexample23.merge FizBaz.Example2.overlay later.aexample23
  amap := earlier.amap.union later.amap
  outoforder := if later.outoforder = 0 then earlier.outoforder else later.outoforder
  aoneof := later.aoneof.or earlier.aoneof

/-- Only the enumerations of a message can fail to be canonical. -/
theorem isCanonical_iff (message : Example1) :
    (∀ field ∈ fields, field.kind.IsCanonical (field.get message))
      ↔ OpenEnum.IsCanonical message.aenum1 ∧ OpenEnum.IsCanonical message.aenum2
        ∧ OpenEnum.IsCanonical message.aenum22 := by
  simp [fields, Kind.IsCanonical]

/-- **Row by row is member by member.** -/
theorem overlay_eq (earlier : Example1) {later : Example1}
    (canonical : ∀ field ∈ fields, field.kind.IsCanonical (field.get later)) :
    Message.overlay earlier later = overlay earlier later := by
  obtain ⟨enum1, enum2, enum22⟩ := (isCanonical_iff later).mp canonical
  apply Example1.ext
  case aenum1 => exact OpenEnum.overlay_eq earlier.aenum1 enum1
  case aenum2 => exact OpenEnum.overlay_eq earlier.aenum2 enum2
  case aenum22 => exact OpenEnum.overlay_eq earlier.aenum22 enum22
  case aoneof =>
    -- two rows change the choice, and at most one of them is the case that was chosen
    show _ = later.aoneof.or earlier.aoneof
    cases chosen : later.aoneof with
    | none => simp [Message.overlay, fields, Field.overlay, Field.update, Kind.overlay, chosen]
    | some choice =>
      cases choice <;>
        simp [Message.overlay, fields, Field.overlay, Field.update, Kind.overlay, chosen,
          Aoneof.oostring?, Aoneof.ooint?]
  all_goals rfl

theorem overlay_empty (message : Example1) : overlay {} message = message := by
  apply Example1.ext
  case manystring => rfl
  case manyint64 => rfl
  case aexample2 => exact Option.merge_none_left
  case aexample22 => exact Option.merge_none_left
  case aexample23 => exact Option.merge_none_left
  case amap => exact TextMap.union_empty message.amap
  case aoneof => exact Option.or_none
  all_goals exact ite_default _ _

theorem lawfulTable : LawfulTable {} fields where
  distinct := by decide
  lawful := by
    simp only [fields, List.forall_mem_cons, List.not_mem_nil, false_implies, implies_true, and_true]
    repeat' apply And.intro
    all_goals refine ⟨fun _ _ => rfl, fun _ => rfl, fun _ _ _ => rfl, ?_, by decide, by decide⟩
    all_goals first | trivial | exact Kind.lawful_embedded _
  isCanonical_empty := (isCanonical_iff {}).mpr ⟨rfl, rfl, rfl⟩
  isCanonical_set := by
    simp only [isCanonical_iff]
    simp +contextual [fields, Kind.IsCanonical]
  complete message canonical := (overlay_eq {} canonical).trans (overlay_empty message)

instance : LawfulMessage Example1 := lawfulTable.lawfulMessage

end FooBar.Example1

end Protobuf

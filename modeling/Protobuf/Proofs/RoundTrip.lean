/-
**Every message survives being written and read.**

* the messages of the conformance protocol pass the checks of `LawfulTable`, as those of the example
  do; what needs thought is only that the rows of a choice restore it (`complete`);
* `LawfulMessage.decode_encode`: a lawful message is read back. It is laid over the empty message,
  which shows nothing under it;
* `MessageType.round_trip`: so all seven message types are read back.

A message whose enumerations are not canonical is read back with the declared value in place of the
undeclared spelling. A payload of more than `maxLength` bytes is not read at all.
-/

import Protobuf.Proofs.Overlay
import Protobuf.MessageType

namespace Protobuf

/-! ### The conformance protocol -/

namespace Conformance.Request

attribute [ext] Request

theorem isCanonical_iff (request : Request) :
    (∀ field ∈ fields, field.kind.IsCanonical (field.get request))
      ↔ OpenEnum.IsCanonical request.requestedOutputFormat
        ∧ OpenEnum.IsCanonical request.testCategory := by
  simp [fields, Kind.IsCanonical]

theorem lawfulTable : LawfulTable {} fields where
  distinct := by decide
  lawful := by
    simp only [fields, List.forall_mem_cons, List.not_mem_nil, false_implies, implies_true, and_true]
    repeat' apply And.intro
    all_goals exact ⟨fun _ _ => rfl, fun _ => rfl, fun _ _ _ => rfl, trivial, by decide, by decide⟩
  isCanonical_empty := (isCanonical_iff {}).mpr ⟨rfl, rfl⟩
  isCanonical_set := by
    simp only [isCanonical_iff]
    simp +contextual [fields, Kind.IsCanonical]
  complete := by
    intro request canonical
    obtain ⟨format, category⟩ := (isCanonical_iff request).mp canonical
    apply Request.ext
    case payload =>
      cases chosen : request.payload with
      | none => simp [fields, Field.overlay, Field.update, Kind.overlay, chosen]
      | some payload =>
        cases payload <;>
          simp [fields, Field.overlay, Field.update, Kind.overlay, chosen, RequestPayload.protobuf?,
            RequestPayload.json?, RequestPayload.jspb?, RequestPayload.textFormat?]
    case requestedOutputFormat => exact (OpenEnum.overlay_eq _ format).trans (ite_default _ _)
    case testCategory => exact (OpenEnum.overlay_eq _ category).trans (ite_default _ _)
    case messageType => exact ite_default request.messageType ""
    case printUnknownFields => exact ite_default request.printUnknownFields false

instance : LawfulMessage Request := lawfulTable.lawfulMessage

end Conformance.Request

namespace Conformance.Response

theorem lawfulTable : LawfulTable {} fields where
  distinct := by decide
  lawful := by
    simp only [fields, List.forall_mem_cons, List.not_mem_nil, false_implies, implies_true, and_true]
    repeat' apply And.intro
    all_goals exact ⟨fun _ _ => rfl, fun _ => rfl, fun _ _ _ => rfl, trivial, by decide, by decide⟩
  isCanonical_empty := by simp [fields, case, Kind.IsCanonical]
  isCanonical_set := by simp [fields, case, Kind.IsCanonical]
  complete := by
    intro response _
    obtain ⟨result⟩ := response
    cases result with
    | none => rfl
    | some outcome => cases outcome <;> rfl

instance : LawfulMessage Response := lawfulTable.lawfulMessage

end Conformance.Response

namespace Conformance.FailureSet

theorem lawfulTable : LawfulTable {} fields where
  distinct := by decide
  lawful := by
    simp only [fields, List.forall_mem_singleton]
    exact ⟨fun _ _ => rfl, fun _ => rfl, fun _ _ _ => rfl, trivial, by decide, by decide⟩
  isCanonical_empty := by simp [fields, Kind.IsCanonical]
  isCanonical_set := by simp [fields, Kind.IsCanonical]
  complete _ _ := rfl

instance : LawfulMessage FailureSet := lawfulTable.lawfulMessage

end Conformance.FailureSet

instance MessageType.lawful (type : MessageType) : LawfulMessage type.Value := by
  cases type
  case example1 => exact inferInstanceAs (LawfulMessage FooBar.Example1)
  case example1Example2 => exact inferInstanceAs (LawfulMessage FooBar.Example1.Example2)
  case example2 => exact inferInstanceAs (LawfulMessage FooBar.Example2)
  case fizBazExample2 => exact inferInstanceAs (LawfulMessage FizBaz.Example2)
  case conformanceRequest => exact inferInstanceAs (LawfulMessage Conformance.Request)
  case conformanceResponse => exact inferInstanceAs (LawfulMessage Conformance.Response)
  case failureSet => exact inferInstanceAs (LawfulMessage Conformance.FailureSet)

/-! ### Reading back -/

theorem LawfulMessage.decode_encode {M : Type} [Message M] [LawfulMessage M] {message : M}
    (canonical : Message.IsCanonical message) (fits : Message.Fits message) :
    Message.decode (Message.encode message) = .ok message := by
  rw [(makes_encode message canonical fits).decode_eq, overlay_empty message canonical]

/-- **Every message is read back as it was**, member by member and bit by bit. -/
theorem MessageType.round_trip (type : MessageType) (message : type.Value)
    (canonical : Message.IsCanonical message) (fits : Message.Fits message) :
    Message.decode (Message.encode message) = .ok message :=
  LawfulMessage.decode_encode canonical fits

/-- A message of values that are easily lost: a NaN with a payload, a negative zero, an undeclared
number, empty elements, an empty message that is there, and a case chosen with its default. -/
def FooBar.Example1.fragile : FooBar.Example1 where
  adouble := ⟨0x7FF8000000000001⟩
  afloat := ⟨0x80000000⟩
  aint32 := -1
  aenum1 := .unknown 7
  manystring := ["", "b", ""]
  manyint64 := [0, -1]
  aexample2 := some {}
  amap := .ofList [("key", ""), ("", "value")]
  aoneof := some (.ooint 0)

theorem MessageType.round_trip_fragile :
    Message.IsCanonical FooBar.Example1.fragile ∧ Message.Fits FooBar.Example1.fragile ∧
      Message.decode (Message.encode FooBar.Example1.fragile) = .ok FooBar.Example1.fragile := by
  have canonical : Message.IsCanonical FooBar.Example1.fragile :=
    (FooBar.Example1.isCanonical_iff _).mpr (by decide)
  have fits : Message.Fits FooBar.Example1.fragile := by decide +kernel
  exact ⟨canonical, fits, MessageType.round_trip .example1 FooBar.Example1.fragile canonical fits⟩

end Protobuf

/-
**Fields do not interfere.**

A field changes one member and looks at no other: two numbers are `linked` if they are equal or both
among the cases of a choice, and a member sees the fields with a linked number only.

* `Field.Coupled`: two rows with linked numbers act on the member of either; others leave it;
* `Message.Separate`: a table all rows of which are so. `MessageType.separate`: every message type has
  such a table;
* `Message.Separate.get_edit`: one field, in two messages that agree on a member, leaves them in
  agreement, and may be left out of one of them if it is not linked;
* `Message.Separate.get_edits`: so a member depends on its own fields, whatever stands between them;
* `MessageType.merge_select`: merging the fields of some numbers sets their members and no others; the
  order of fields that are not linked does not matter; and the last field of a single value counts.
-/

import Protobuf.Proofs.RoundTrip
import Protobuf.Proofs.UnknownFields
import Protobuf.Proofs.WireFields

namespace Protobuf

/-! ### Members and numbers -/

/-- Whether fields with these numbers change one and the same member, given the cases of a choice. -/
def linked (choice : List Nat) (one other : Nat) : Bool :=
  other == one || (choice.contains one && choice.contains other)

theorem linked_eq_of_mem {choice : List Nat} {one : Nat} (member : one ∈ choice) (other : Nat) :
    linked choice one other = choice.contains other := by
  by_cases same : other = one
  · subst same
    simp [linked, member]
  · simp [linked, member, same]

theorem linked_eq_of_not_mem {choice : List Nat} {one : Nat} (apart : one ∉ choice) (other : Nat) :
    linked choice one other = (other == one) := by
  simp [linked, apart]

/-- Linked numbers are both among some numbers, or neither is, if these have all cases of a choice or
none. -/
theorem selected_eq_of_linked {choice : List Nat} {selected : Nat → Bool}
    (closed : (∀ number ∈ choice, selected number = true) ∨ ∀ number ∈ choice, selected number = false)
    {one other : Nat} (together : linked choice one other = true) : selected other = selected one := by
  simp only [linked, Bool.or_eq_true, beq_iff_eq, Bool.and_eq_true, List.contains_iff_mem] at together
  rcases together with rfl | ⟨here, there⟩
  · rfl
  · rcases closed with all | none
    · rw [all one here, all other there]
    · rw [none one here, none other there]

/-- The reader of a member of a single value, which the last occurrence decides. -/
def Kind.single? : {V : Type} → Kind V → Option (Reader V)
  | _, singular type => some type.read
  | _, enumeration _ => some (OpenEnum.ofNumber <$> ScalarType.read .int32)
  | _, _ => none

theorem Kind.scan_single {V : Type} {kind : Kind V} {reader : Reader V}
    (single : kind.single? = some reader) (wire : Nat) :
    kind.scan wire = (Scanner.ofReader reader).map fun value _ => value := by
  cases kind with
  | singular type =>
    cases single
    rfl
  | enumeration E =>
    cases single
    funext bytes
    simp only [scan, Scanner.map, Scanner.ofReader, Functor.map, EStateM.map]
    cases ScalarType.read .int32 bytes <;> rfl
  | «repeated» => cases single
  | embedded => cases single
  | textMap => cases single
  | alternative => cases single

variable {M : Type}

/-- Whether two rows with linked numbers act on the member of the first, and others leave it. -/
def Field.Coupled (choice : List Nat) (one other : Field M) : Prop :=
  if linked choice one.number other.number then
    ∀ change message message', one.get message = one.get message' →
      one.get (other.update change message) = one.get (other.update change message')
  else ∀ value message, one.get (other.set value message) = one.get message

namespace Message

/-- The laws of a table whose rows are apart but for the cases of a choice. -/
structure Separate [Message M] (fields : List (Field M)) (choice : List Nat) : Prop where
  /-- The table is the message type. -/
  table : ∀ tag, (payload tag : Scanner (Edit M)) = payloadOf fields tag
  /-- No number is given twice. -/
  distinct : (fields.map Field.number).Nodup
  /-- Its rows are lenses. -/
  lawful : ∀ row ∈ fields, row.Lawful
  /-- Rows are apart, or linked. -/
  coupled : ∀ one ∈ fields, ∀ other ∈ fields, one.Coupled choice other
  /-- A member of a single value is no case of a choice. -/
  single : ∀ row ∈ fields, ∀ reader ∈ row.kind.single?, row.number ∉ choice
  /-- A message is its members. -/
  whole : ∀ one other : M, (∀ row ∈ fields, row.get one = row.get other) → one = other

variable [Message M] {fields : List (Field M)} {choice : List Nat}

/-! ### One field -/

/-- A field with a row changes the member of that row, and one without changes nothing. -/
theorem Separate.edit_eq (separate : Separate fields choice) {row : Field M} (member : row ∈ fields)
    {field : WireField} (number : field.number = row.number) :
    field.edit M = row.update (Edit.all (row.kind.scan field.tag.wire field.payload).items) := by
  have tag : field.tag = ⟨row.number, field.tag.wire⟩ := by rw [← number]; rfl
  have scan : (payload field.tag : Scanner (Edit M)) = row.scan field.tag.wire := by
    rw [tag, separate.table, payloadOf_row separate.distinct member]
  funext message
  unfold WireField.edit
  rw [scan]
  exact (separate.lawful row member).all_update _ message

theorem Separate.edit_unknown (separate : Separate fields choice) {field : WireField}
    (unknown : field.number ∉ fields.map Field.number) : field.edit M = id := by
  unfold WireField.edit
  rw [separate.table, payloadOf_unknown unknown]
  simp only [Scanner.silent]
  split <;> rfl

variable {row : Field M} (member : row ∈ fields)

include member

/-- A field that is not linked to a member leaves it. -/
theorem Separate.get_edit_apart (separate : Separate fields choice) {field : WireField}
    (apart : linked choice row.number field.number = false) (message : M) :
    row.get (field.edit M message) = row.get message := by
  by_cases known : field.number ∈ fields.map Field.number
  · obtain ⟨other, inside, number⟩ := List.mem_map.mp known
    have coupled := separate.coupled row member other inside
    rw [Field.Coupled, number, apart] at coupled
    rw [separate.edit_eq inside number.symm]
    exact coupled _ message
  · rw [separate.edit_unknown known]
    rfl

/-- One that is linked looks at no other member. -/
theorem Separate.get_edit_linked (separate : Separate fields choice) {field : WireField}
    (together : linked choice row.number field.number = true) {message message' : M}
    (same : row.get message = row.get message') :
    row.get (field.edit M message) = row.get (field.edit M message') := by
  by_cases known : field.number ∈ fields.map Field.number
  · obtain ⟨other, inside, number⟩ := List.mem_map.mp known
    have coupled := separate.coupled row member other inside
    rw [Field.Coupled, number, together] at coupled
    rw [separate.edit_eq inside number.symm]
    exact coupled _ message message' same
  · rw [separate.edit_unknown known]
    exact same

/-- **The last field of a single value replaces it.** -/
theorem Separate.get_edit_single (separate : Separate fields choice) {reader : Reader row.Value}
    (single : row.kind.single? = some reader) {field : WireField} (number : field.number = row.number)
    (whole : field.Whole M) (message : M) :
    reader field.payload = .ok (row.get (field.edit M message)) [] := by
  have tag : field.tag = ⟨row.number, field.tag.wire⟩ := by rw [← number]; rfl
  have scan : (payload field.tag : Scanner (Edit M))
      = ((Scanner.ofReader reader).map fun value _ => value).map row.update := by
    rw [tag, separate.table, payloadOf_row separate.distinct member, Field.scan,
      Kind.scan_single single]
  have alone := whole.payload []
  rw [List.append_nil, scan] at alone
  rw [separate.edit_eq member number, Kind.scan_single single]
  simp only [Scanner.map, Scanner.ofReader] at alone ⊢
  cases read : reader field.payload with
  | error fault unread =>
    rw [read] at alone
    cases congrArg Scan.fault alone
  | ok value unread =>
    rw [read] at alone
    have nothing : unread = [] := congrArg Scan.unread alone
    rw [nothing]
    congr 1
    exact ((separate.lawful row member).get_set value message).symm

/-! ### All fields -/

/-- **A member depends on its own fields.** The others may be left out. -/
theorem Separate.get_edits (separate : Separate fields choice) (list : List WireField)
    {message message' : M} (same : row.get message = row.get message') :
    row.get (Edit.all (list.map (WireField.edit M)) message)
      = row.get (Edit.all ((list.filter fun field =>
          linked choice row.number field.number).map (WireField.edit M)) message') := by
  induction list generalizing message message' with
  | nil => exact same
  | cons field list ih =>
    cases together : linked choice row.number field.number with
    | true =>
      simp only [List.filter_cons, together, if_true, List.map_cons, Edit.all_cons]
      exact ih (separate.get_edit_linked member together same)
    | false =>
      simp only [List.filter_cons, together, Bool.false_eq_true, if_false, List.map_cons,
        Edit.all_cons]
      exact ih ((separate.get_edit_apart member together message).trans same)

theorem Separate.get_edits_single (separate : Separate fields choice) {reader : Reader row.Value}
    (single : row.kind.single? = some reader) {list : List WireField}
    (whole : ∀ field ∈ list, field.Whole M) (message : M) :
    match (list.filter fun field => field.number == row.number).getLast? with
    | none => row.get (Edit.all (list.map (WireField.edit M)) message) = row.get message
    | some field => reader field.payload
        = .ok (row.get (Edit.all (list.map (WireField.edit M)) message)) [] := by
  have apart := separate.single row member reader single
  have projected := separate.get_edits member list (Eq.refl (row.get message))
  simp only [linked_eq_of_not_mem apart] at projected
  rw [projected]
  rcases List.eq_nil_or_concat (list.filter fun field => field.number == row.number)
    with nothing | ⟨front, last, own⟩
  · rw [nothing]
    rfl
  · have inside : last ∈ list.filter fun field => field.number == row.number := by
      rw [own, List.concat_eq_append]
      exact List.mem_append_right _ (List.mem_singleton_self last)
    obtain ⟨present, number⟩ := List.mem_filter.mp inside
    rw [own, List.concat_eq_append, List.getLast?_append]
    simp only [List.getLast?_singleton, Option.some_or, List.map_append, Edit.all_append]
    exact separate.get_edit_single member single (beq_iff_eq.mp number) (whole last present) _

/-- The fields of some numbers set the members of these numbers. -/
theorem Separate.get_edits_select (separate : Separate fields choice) {selected : Nat → Bool}
    (closed : (∀ number ∈ choice, selected number = true) ∨ ∀ number ∈ choice, selected number = false)
    (list : List WireField) (message : M) :
    row.get (Edit.all ((list.filter fun field =>
        selected field.number).map (WireField.edit M)) message)
      = if selected row.number then row.get (Edit.all (list.map (WireField.edit M)) message)
        else row.get message := by
  rw [separate.get_edits member (list.filter fun field => selected field.number)
      (Eq.refl (row.get message)), List.filter_filter]
  by_cases chosen : selected row.number = true
  · have same : (list.filter fun field =>
        linked choice row.number field.number && selected field.number)
        = list.filter fun field => linked choice row.number field.number := by
      refine List.filter_congr fun field _ => ?_
      cases together : linked choice row.number field.number with
      | true => rw [selected_eq_of_linked closed together, chosen]; rfl
      | false => rfl
    rw [same, if_pos chosen]
    exact (separate.get_edits member list rfl).symm
  · have nothing : (list.filter fun field =>
        linked choice row.number field.number && selected field.number) = [] := by
      refine List.filter_eq_nil_iff.mpr fun field _ both => ?_
      obtain ⟨together, here⟩ := Bool.and_eq_true_iff.mp both
      exact chosen ((selected_eq_of_linked closed together).symm.trans here)
    rw [nothing, if_neg chosen]
    rfl

omit member in
/-- **Fields that are not linked may change places.** -/
theorem Separate.edits_congr (separate : Separate fields choice) {list other : List WireField}
    (numbers : ∀ number, (other.filter fun field => field.number == number)
      = list.filter fun field => field.number == number)
    (cases_of_choice : (other.filter fun field => choice.contains field.number)
      = list.filter fun field => choice.contains field.number) (message : M) :
    Edit.all (other.map (WireField.edit M)) message
      = Edit.all (list.map (WireField.edit M)) message := by
  refine separate.whole _ _ fun row member => ?_
  rw [separate.get_edits member other (Eq.refl (row.get message)),
    separate.get_edits member list (Eq.refl (row.get message))]
  by_cases alternative : row.number ∈ choice
  · simp only [linked_eq_of_mem alternative, cases_of_choice]
  · simp only [linked_eq_of_not_mem alternative, numbers]

end Message

/-! ### Every message type -/

namespace MessageType

theorem coupled (type : MessageType) :
    ∀ one ∈ type.fields, ∀ other ∈ type.fields, one.Coupled type.choice other := by
  cases type
  all_goals
    simp only [fields, FooBar.Example1.fields, FooBar.Example1.Example2.fields, FooBar.Example2.fields,
      FizBaz.Example2.fields, Conformance.Request.fields, Conformance.Response.fields,
      Conformance.FailureSet.fields, List.forall_mem_cons, List.not_mem_nil, false_implies,
      implies_true, and_true]
    repeat' apply And.intro
  all_goals first
    | exact fun _ _ => rfl
    | exact fun change _ _ same => congrArg change same

theorem single (type : MessageType) :
    ∀ row ∈ type.fields, ∀ reader ∈ row.kind.single?, row.number ∉ type.choice := by
  cases type
  all_goals
    simp only [fields, FooBar.Example1.fields, FooBar.Example1.Example2.fields, FooBar.Example2.fields,
      FizBaz.Example2.fields, Conformance.Request.fields, Conformance.Response.fields,
      Conformance.FailureSet.fields, List.forall_mem_cons, List.not_mem_nil, false_implies,
      implies_true, and_true]
    repeat' apply And.intro
  all_goals first
    | exact fun _ _ => by decide
    | exact fun reader nothing => absurd nothing (Option.not_mem_none reader)

theorem whole (type : MessageType) (one other : type.Value)
    (same : ∀ row ∈ type.fields, row.get one = row.get other) : one = other := by
  cases type
  all_goals
    simp only [fields, FooBar.Example1.fields, FooBar.Example1.Example2.fields, FooBar.Example2.fields,
      FizBaz.Example2.fields, Conformance.Request.fields, Conformance.Response.fields,
      Conformance.Response.case, Conformance.FailureSet.fields, List.forall_mem_cons, List.not_mem_nil,
      false_implies, implies_true, and_true] at same
    cases one
    cases other
    simp_all

/-- The table of every type is lawful. -/
theorem lawfulTable (type : MessageType) : LawfulTable (Message.empty : type.Value) type.fields := by
  cases type
  case example1 => exact FooBar.Example1.lawfulTable
  case example1Example2 => exact FooBar.Example1.Example2.lawfulTable
  case example2 => exact FooBar.Example2.lawfulTable
  case fizBazExample2 => exact FizBaz.Example2.lawfulTable
  case conformanceRequest => exact Conformance.Request.lawfulTable
  case conformanceResponse => exact Conformance.Response.lawfulTable
  case failureSet => exact Conformance.FailureSet.lawfulTable

theorem separate (type : MessageType) : Message.Separate type.fields type.choice where
  table := type.payload_eq
  distinct := type.lawfulTable.distinct
  lawful := type.lawfulTable.lawful
  coupled := type.coupled
  single := type.single
  whole := type.whole

/-- **Fields do not interfere.** Let bytes be merged without a fault. Then the fields of some numbers,
which have all cases of a choice or none, are merged without a fault; the members of these numbers
become what they become in the whole, and the others stay. The fields may be merged in any order that
keeps those of each number and those of the choice in order. A member of a single value is what the last
of its fields says. -/
theorem merge_select (type : MessageType) (target : type.Value) {bytes : Bytes}
    (complete : (Message.merge bytes target).fault = none) :
    (∀ selected : Nat → Bool,
      ((∀ number ∈ type.choice, selected number = true) ∨
        ∀ number ∈ type.choice, selected number = false) →
      ∃ part, Message.merge (WireField.join ((Message.wireFields type.Value bytes).filter
          fun field => selected field.number)) target = ⟨part, none⟩ ∧
        ∀ row ∈ type.fields, row.get part =
          if selected row.number then row.get (Message.merge bytes target).message
          else row.get target) ∧
    (∀ others : List WireField,
      (∀ number, (others.filter fun field => field.number == number)
        = (Message.wireFields type.Value bytes).filter fun field => field.number == number) →
      ((others.filter fun field => type.choice.contains field.number)
        = (Message.wireFields type.Value bytes).filter fun field => type.choice.contains field.number) →
      Message.merge (WireField.join others) target = Message.merge bytes target) ∧
    ∀ row ∈ type.fields, ∀ reader ∈ row.kind.single?,
      match ((Message.wireFields type.Value bytes).filter fun field =>
          field.number == row.number).getLast? with
      | none => row.get (Message.merge bytes target).message = row.get target
      | some field =>
        reader field.payload = .ok (row.get (Message.merge bytes target).message) [] := by
  obtain ⟨-, whole⟩ := Message.join_wireFields complete
  rw [Message.merge_eq_edits complete]
  refine ⟨fun selected closed => ?_, fun others numbers alternatives => ?_,
    fun row member reader single => type.separate.get_edits_single member single whole target⟩
  · have wholePart : ∀ field ∈ (Message.wireFields type.Value bytes).filter
        fun field => selected field.number, field.Whole type.Value :=
      fun field inside => whole field (List.mem_filter.mp inside).1
    exact ⟨_, (Message.makes_join wholePart).merge_eq target,
      fun row member => type.separate.get_edits_select member closed _ target⟩
  · have wholeOthers : ∀ field ∈ others, field.Whole type.Value := by
      intro field inside
      have own : field ∈ others.filter fun other => other.number == field.number :=
        List.mem_filter.mpr ⟨inside, beq_self_eq_true _⟩
      rw [numbers] at own
      exact whole field (List.mem_filter.mp own).1
    rw [(Message.makes_join wholeOthers).merge_eq target,
      type.separate.edits_congr numbers alternatives]

end MessageType

/-- An integer given twice, and both cases of the choice between and behind. -/
def FooBar.Example1.interleaved : Bytes :=
  [0x18, 0x05, 0xE2, 0x03, 0x01, 0x61, 0x18, 0x06, 0xE8, 0x03, 0x07]

/-- The choice alone leaves the integer and is what it is in the whole; the last integer counts. -/
theorem MessageType.merge_select_interleaved :
    (Message.merge (M := MessageType.example1.Value) FooBar.Example1.interleaved {}).fault = none ∧
    (Message.merge (M := MessageType.example1.Value) (WireField.join ((Message.wireFields
      MessageType.example1.Value FooBar.Example1.interleaved).filter
        fun field => [60, 61].contains field.number)) {}).message.aint32 = 0 ∧
    (Message.merge (M := MessageType.example1.Value) (WireField.join ((Message.wireFields
      MessageType.example1.Value FooBar.Example1.interleaved).filter
        fun field => [60, 61].contains field.number)) {}).message.aoneof = some (.ooint 7) ∧
    ScalarType.read .int32 [0x06] = .ok (Message.merge (M := MessageType.example1.Value)
      FooBar.Example1.interleaved {}).message.aint32 [] := by
  have complete : (Message.merge (M := MessageType.example1.Value)
      FooBar.Example1.interleaved {}).fault = none := by decide +kernel
  have chosen : (Message.merge (M := MessageType.example1.Value)
      FooBar.Example1.interleaved {}).message.aoneof = some (.ooint 7) := by decide +kernel
  have last : ((Message.wireFields MessageType.example1.Value FooBar.Example1.interleaved).filter
      fun field => field.number == 3).getLast? = some ⟨[0x18], ⟨3, 0⟩, [0x06]⟩ := by decide +kernel
  obtain ⟨part, merged, members⟩ := (MessageType.merge_select .example1 {} complete).1
    (fun number => [60, 61].contains number) (.inl (by decide))
  have integer : part.aint32 = 0 := members FooBar.Example1.fields[2] (List.getElem_mem _)
  have choice : part.aoneof = (Message.merge (M := MessageType.example1.Value)
    FooBar.Example1.interleaved {}).message.aoneof :=
    members FooBar.Example1.fields[25] (List.getElem_mem _)
  have single := (MessageType.merge_select .example1 {} complete).2.2 FooBar.Example1.fields[2]
    (List.getElem_mem _) (ScalarType.read .int32) rfl
  have same : FooBar.Example1.fields[2].number = 3 := rfl
  rw [same, last] at single
  rw [merged]
  exact ⟨complete, integer, choice.trans chosen, single⟩

end Protobuf

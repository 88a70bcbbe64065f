/-
**What is written is in canonical form, and all of it is written.**

* `filter_flatMap_key`, `flatMap_filter_key`: a sequence of parts, each under a number of its own, has
  these parts for its fields of each number; and fields in the order of their numbers are the sequence
  of their parts;
* `Field.exists_members`: members that are apart have any values at once;
* `FooBar.Example1.canonicalForm_written`: the example is written in canonical form;
* `FooBar.Example1.exists_encode`: whatever is in canonical form is what some message is written as. No
  reader is needed for that: each segment is the writing of a value (`Kind.exists_written`), and the
  cases of the choice are never given both;
* `FooBar.Example1.encode_canonicalForm`: so the canonical form is exactly what is written, and it is
  read back and written again unchanged.
-/

import Protobuf.Proofs.CanonicalKind
import Protobuf.Proofs.Independence

namespace Protobuf

/-! ### Parts in order -/

section Parts

universe u

variable {α : Type u} {β : Type} {key : β → Nat} {number : α → Nat} {part : α → List β} {rows : List α}

/-- The items of a number are those of its part. -/
theorem filter_flatMap_key (distinct : (rows.map number).Nodup)
    (own : ∀ row ∈ rows, ∀ item ∈ part row, key item = number row) {row : α} (member : row ∈ rows) :
    (rows.flatMap part).filter (fun item => key item == number row) = part row := by
  have outside {rows : List α} (own : ∀ row ∈ rows, ∀ item ∈ part row, key item = number row)
      (absent : number row ∉ rows.map number) :
      (rows.flatMap part).filter (fun item => key item == number row) = [] := by
    refine List.filter_eq_nil_iff.mpr fun item inside same => ?_
    obtain ⟨other, there, here⟩ := List.mem_flatMap.mp inside
    have number_eq := (own other there item here).symm.trans (beq_iff_eq.mp same)
    exact absent (List.mem_map.mpr ⟨other, there, number_eq⟩)
  induction rows with
  | nil => cases member
  | cons head rest ih =>
    obtain ⟨fresh, distinct⟩ := List.nodup_cons.mp distinct
    obtain ⟨ownHead, ownRest⟩ := List.forall_mem_cons.mp own
    rw [List.flatMap_cons, List.filter_append]
    rcases List.mem_cons.mp member with rfl | inside
    · rw [outside ownRest fresh, List.append_nil]
      exact List.filter_eq_self.mpr fun item here => beq_iff_eq.mpr (ownHead item here)
    · rw [ih distinct ownRest inside]
      have other : number head ≠ number row :=
        fun same => fresh (same ▸ List.mem_map_of_mem inside)
      have nothing : (part head).filter (fun item => key item == number row) = [] :=
        List.filter_eq_nil_iff.mpr fun item here same =>
          other ((ownHead item here).symm.trans (beq_iff_eq.mp same))
      rw [nothing, List.nil_append]

/-- Sorted items begin with those of the least number. -/
theorem filter_append_filter_key {items : List β}
    (sorted : items.Pairwise fun one other => key one ≤ key other) {least : Nat}
    (bound : ∀ item ∈ items, least ≤ key item) :
    items.filter (fun item => key item == least) ++ items.filter (fun item => key item != least)
      = items := by
  induction items with
  | nil => rfl
  | cons head rest ih =>
    obtain ⟨below, sorted⟩ := List.pairwise_cons.mp sorted
    obtain ⟨boundHead, boundRest⟩ := List.forall_mem_cons.mp bound
    by_cases same : key head = least
    · simp only [List.filter_cons, same, beq_self_eq_true, bne_self_eq_false, if_true,
        Bool.false_eq_true, if_false, List.cons_append, ih sorted boundRest]
    · -- all others are greater too
      have greater : ∀ item ∈ head :: rest, key item ≠ least := by
        refine List.forall_mem_cons.mpr ⟨same, fun item member => ?_⟩
        have := below item member
        omega
      have none : (head :: rest).filter (fun item => key item == least) = [] :=
        List.filter_eq_nil_iff.mpr fun item member equal => greater item member (beq_iff_eq.mp equal)
      have all : (head :: rest).filter (fun item => key item != least) = head :: rest :=
        List.filter_eq_self.mpr fun item member => bne_iff_ne.mpr (greater item member)
      rw [none, all, List.nil_append]

/-- **Sorted items are the sequence of their parts.** -/
theorem flatMap_filter_key {items : List β}
    (sorted : items.Pairwise fun one other => key one ≤ key other)
    (increasing : rows.Pairwise fun one other => number one < number other)
    (known : ∀ item ∈ items, key item ∈ rows.map number) :
    rows.flatMap (fun row => items.filter fun item => key item == number row) = items := by
  induction rows generalizing items with
  | nil =>
    rw [List.eq_nil_iff_forall_not_mem.mpr fun item member => nomatch known item member]
    rfl
  | cons row rows ih =>
    obtain ⟨below, increasing⟩ := List.pairwise_cons.mp increasing
    have bound : ∀ item ∈ items, number row ≤ key item := by
      intro item member
      rcases List.mem_cons.mp (known item member) with same | later
      · exact Nat.le_of_eq same.symm
      · obtain ⟨other, inside, same⟩ := List.mem_map.mp later
        exact same ▸ Nat.le_of_lt (below other inside)
    have others : ∀ item ∈ items.filter (fun item => key item != number row),
        key item ∈ rows.map number := by
      intro item member
      obtain ⟨inside, other⟩ := List.mem_filter.mp member
      exact (List.mem_cons.mp (known item inside)).resolve_left (bne_iff_ne.mp other)
    have rest : rows.flatMap (fun other => items.filter fun item => key item == number other)
        = rows.flatMap fun other => (items.filter fun item => key item != number row).filter
            fun item => key item == number other := by
      rw [List.flatMap_def, List.flatMap_def]
      congr 1
      refine List.map_congr_left fun other inside => ?_
      rw [List.filter_filter]
      refine List.filter_congr fun item _ => ?_
      have apart := Nat.ne_of_gt (below other inside)
      by_cases same : key item = number other
      · simp [same, apart]
      · simp [same]
    rw [List.flatMap_cons, rest, ih (sorted.filter _) increasing others]
    exact filter_append_filter_key sorted bound

end Parts

theorem WireField.join_flatMap {M : Type} (rows : List (Field M)) (part : Field M → List WireField) :
    join (rows.flatMap part) = rows.flatMap fun row => join (part row) :=
  List.flatMap_assoc

/-- **Members that are apart have any values at once.** -/
theorem Field.exists_members {M : Type} {rows : List (Field M)} (lawful : ∀ row ∈ rows, row.Lawful)
    (apart : rows.Pairwise fun one other =>
      ∀ value message, other.get (one.set value message) = other.get message)
    {good : (row : Field M) → row.Value → Prop} (exist : ∀ row ∈ rows, ∃ value, good row value)
    (start : M) : ∃ message, ∀ row ∈ rows, good row (row.get message) := by
  induction rows with
  | nil => exact ⟨start, List.forall_mem_nil _⟩
  | cons row rows ih =>
    obtain ⟨lawfulRow, lawfulRest⟩ := List.forall_mem_cons.mp lawful
    obtain ⟨apartRow, apartRest⟩ := List.pairwise_cons.mp apart
    obtain ⟨⟨value, holds⟩, existRest⟩ := List.forall_mem_cons.mp exist
    obtain ⟨message, rest⟩ := ih lawfulRest apartRest existRest
    refine ⟨row.set value message, List.forall_mem_cons.mpr ⟨?_, fun other member => ?_⟩⟩
    · rwa [lawfulRow.get_set]
    · rw [apartRow other member]
      exact rest other member

/-! ### The example -/

theorem FizBaz.Example2.wraps : Message.Wraps Example2 .int32 :=
  ⟨Example2.mk, Example2.zomg, fun _ => rfl, fun _ => List.append_nil _, fun _ => List.append_nil _,
    isCanonical⟩

theorem FooBar.Example2.wraps : Message.Wraps Example2 .int32 :=
  ⟨Example2.mk, Example2.aint32, fun _ => rfl, fun _ => List.append_nil _, fun _ => List.append_nil _,
    isCanonical⟩

theorem FooBar.Example1.Example2.wraps : Message.Wraps Example1.Example2 .string :=
  ⟨Example2.mk, Example2.astring, fun _ => rfl, fun _ => List.append_nil _, fun _ => List.append_nil _,
    isCanonical⟩

namespace FooBar.Example1

/-- Every row has the shape of its number. -/
theorem hasShape : ∀ row ∈ fields,
    ∃ shape, shape? row.number = some shape ∧ row.kind.HasShape shape := by
  simp only [fields, List.forall_mem_cons, List.not_mem_nil, false_implies, implies_true, and_true]
  repeat' apply And.intro
  all_goals first
    | exact ⟨_, rfl, rfl⟩
    | exact ⟨_, rfl, if_pos rfl ▸ rfl⟩
    | exact ⟨_, rfl, _, rfl, Example1.Example2.wraps⟩
    | exact ⟨_, rfl, _, rfl, FooBar.Example2.wraps⟩
    | exact ⟨_, rfl, _, rfl, FizBaz.Example2.wraps⟩
    | exact ⟨_, rfl, rfl, fun _ => rfl⟩

theorem mem_numbers {number : Nat} (known : (shape? number).isSome) :
    number ∈ fields.map Field.number := by
  unfold shape? at known
  split at known <;> first | decide | cases known

theorem increasing : fields.Pairwise fun one other => one.number < other.number :=
  List.pairwise_map.mp (by decide : (fields.map Field.number).Pairwise (· < ·))

/-- The fields that a message is written as. -/
def written (message : Example1) : List WireField :=
  fields.flatMap fun row => row.kind.written row.number (row.get message)

theorem join_written (message : Example1) :
    WireField.join (written message) = Message.encode message := by
  unfold written
  rw [WireField.join_flatMap]
  simp only [Kind.join_written]
  rfl

/-- What is written of a row is a segment of its shape. -/
theorem segment_row {message : Example1} (fits : Message.Fits message) {row : Field Example1}
    (member : row ∈ fields) {shape : Shape} (named : shape? row.number = some shape) :
    shape.Segment row.number (row.kind.written row.number (row.get message)) := by
  obtain ⟨other, own, shaped⟩ := hasShape row member
  cases named.symm.trans own
  exact Kind.segment_written shaped (lawfulTable.lawful row member).most fun inner inside =>
    fits inner (List.mem_flatMap.mpr ⟨row, member, inside⟩)

theorem number_of_mem_written {message : Example1} (fits : Message.Fits message) {row : Field Example1}
    (member : row ∈ fields) {field : WireField}
    (inside : field ∈ row.kind.written row.number (row.get message)) : field.number = row.number := by
  obtain ⟨shape, named, -⟩ := hasShape row member
  have heads := (segment_row fits member named).heads field inside
  exact congrArg Tag.number heads.tag

/-- The fields of a number are what its row is written as. -/
theorem filter_written {message : Example1} (fits : Message.Fits message) {row : Field Example1}
    (member : row ∈ fields) : (written message).filter (fun field => field.number == row.number)
      = row.kind.written row.number (row.get message) :=
  filter_flatMap_key lawfulTable.distinct
    (fun _ inside _ => number_of_mem_written fits inside) member

/-- The choice is written as one of its cases. -/
theorem chosen_written {message : Example1} (fits : Message.Fits message) :
    ¬ ((∃ field ∈ written message, field.number = 60) ∧
      ∃ field ∈ written message, field.number = 61) := by
  have given {row : Field Example1} (member : row ∈ fields)
      (occurs : ∃ field ∈ written message, field.number = row.number) :
      row.kind.written row.number (row.get message) ≠ [] := by
    obtain ⟨field, inside, same⟩ := occurs
    rw [← filter_written fits member]
    exact List.ne_nil_of_mem (List.mem_filter.mpr ⟨inside, beq_iff_eq.mpr same⟩)
  rintro ⟨text, integer⟩
  have isText := given (List.getElem_mem (show 25 < fields.length by decide)) text
  have isInteger := given (List.getElem_mem (show 26 < fields.length by decide)) integer
  by_cases first : message.aoneof.bind Aoneof.oostring? = none
  · exact isText (Kind.written_of_none first)
  · refine isInteger (Kind.written_of_none (show message.aoneof.bind Aoneof.ooint? = none from ?_))
    cases chosen : message.aoneof with
    | none => rfl
    | some choice =>
      cases choice with
      | oostring value => rfl
      | ooint value => exact absurd (by rw [chosen]; rfl) first

/-- **The example is written in canonical form.** -/
theorem canonicalForm_written {message : Example1} (fits : Message.Fits message) :
    CanonicalForm (written message) (Message.encode message) where
  joined := join_written message
  known := by
    intro field inside
    obtain ⟨row, member, inside⟩ := List.mem_flatMap.mp inside
    obtain ⟨shape, named, -⟩ := hasShape row member
    rw [number_of_mem_written fits member inside, named]
    rfl
  ordered := by
    refine List.pairwise_flatMap.mpr ⟨fun row member => ?_, ?_⟩
    · refine List.pairwise_of_forall_mem_list fun one inside other there => ?_
      exact Nat.le_of_eq ((number_of_mem_written fits member inside).trans
        (number_of_mem_written fits member there).symm)
    · refine increasing.imp_of_mem fun {row later} member memberLater less one inside other there => ?_
      rw [number_of_mem_written fits member inside, number_of_mem_written fits memberLater there]
      exact Nat.le_of_lt less
  shaped := by
    intro number shape named
    have declared := mem_numbers (by rw [named]; rfl)
    obtain ⟨row, member, rfl⟩ := List.mem_map.mp declared
    rw [filter_written fits member]
    exact segment_row fits member named
  chosen := chosen_written fits

/-! ### All of it is written -/

/-- The rows of the members without a choice, and the row of each case. -/
theorem fields_eq : fields = fields.take 25 ++ [fields[25], fields[26]] := rfl

theorem alone : ∀ row ∈ fields.take 25, row.number ∉ [60, 61] := by decide

/-- A member without a choice is left by the rows of all others. -/
theorem get_set_of_ne {row other : Field Example1} (member : row ∈ fields.take 25)
    (memberOther : other ∈ fields) (apart : other.number ≠ row.number) (value : other.Value)
    (message : Example1) : row.get (other.set value message) = row.get message := by
  have coupled := MessageType.coupled .example1 row (List.mem_of_mem_take member) other memberOther
  have unlinked : linked [60, 61] row.number other.number = false := by
    rw [linked_eq_of_not_mem (alone row member)]
    exact beq_eq_false_iff_ne.mpr apart
  rw [Field.Coupled, show MessageType.example1.choice = [60, 61] from rfl, unlinked] at coupled
  exact coupled value message

/-- The segments of both cases are what one choice is written as. -/
theorem exists_choice {texts integers : List WireField}
    (text : (Shape.alternative .string).Segment 60 texts)
    (integer : (Shape.alternative .int32).Segment 61 integers) (chosen : texts = [] ∨ integers = []) :
    ∃ choice : Option Aoneof,
      (fields[25].kind.written 60 choice = texts ∧
        ∀ inner ∈ fields[25].kind.payloads choice, inner.length ≤ maxLength) ∧
      fields[26].kind.written 61 choice = integers ∧
        ∀ inner ∈ fields[26].kind.payloads choice, inner.length ≤ maxLength := by
  rcases text.cases_alternative (by decide) with rfl | ⟨value, rfl, fits⟩
  · rcases integer.cases_alternative (by decide) with rfl | ⟨value, rfl, fits⟩
    · exact ⟨none, ⟨rfl, List.forall_mem_nil _⟩, rfl, List.forall_mem_nil _⟩
    · exact ⟨some (.ooint value), ⟨rfl, List.forall_mem_nil _⟩, rfl, fits⟩
  · rcases chosen with nothing | rfl
    · cases nothing
    · exact ⟨some (.oostring value), ⟨rfl, fits⟩, rfl, List.forall_mem_nil _⟩

/-- **Every segment is what a member of one message is written as.** -/
theorem exists_members {list : List WireField} {bytes : Bytes} (form : CanonicalForm list bytes) :
    ∃ message : Example1, ∀ row ∈ fields, row.kind.WrittenAs row.number
      (list.filter fun field => field.number == row.number) (row.get message) := by
  have distinct := increasing.sublist (List.take_sublist 25 fields)
  have apart : (fields.take 25).Pairwise fun one other =>
      ∀ value message, other.get (one.set value message) = other.get message :=
    distinct.imp_of_mem fun member memberOther less =>
      get_set_of_ne memberOther (List.mem_of_mem_take member) (Nat.ne_of_lt less)
  have exist : ∀ row ∈ fields.take 25, row.kind.Writes row.number
      (list.filter fun field => field.number == row.number) := by
    intro row member
    have member := List.mem_of_mem_take member
    obtain ⟨shape, named, shaped⟩ := hasShape row member
    exact Kind.exists_written shaped (lawfulTable.lawful row member).most
      (form.shaped row.number shape named)
  have once : list.filter (fun field => field.number == 60) = [] ∨
      list.filter (fun field => field.number == 61) = [] := by
    by_cases text : ∃ field ∈ list, field.number = 60
    · refine .inr (List.filter_eq_nil_iff.mpr fun field member same => ?_)
      exact form.chosen ⟨text, field, member, beq_iff_eq.mp same⟩
    · refine .inl (List.filter_eq_nil_iff.mpr fun field member same => ?_)
      exact text ⟨field, member, beq_iff_eq.mp same⟩
  obtain ⟨others, written⟩ := Field.exists_members
    (fun row member => lawfulTable.lawful row (List.mem_of_mem_take member)) apart exist {}
  obtain ⟨choice, text, integer⟩ :=
    exists_choice (form.shaped 60 _ rfl) (form.shaped 61 _ rfl) once
  refine ⟨{ others with aoneof := choice }, ?_⟩
  rw [fields_eq, List.forall_mem_append]
  refine ⟨fun row member => ?_, List.forall_mem_cons.mpr
    ⟨⟨text.1, trivial, text.2⟩, List.forall_mem_singleton.mpr ⟨integer.1, trivial, integer.2⟩⟩⟩
  have other : row.number ≠ 60 := fun same => alone row member (same ▸ List.mem_cons_self)
  have kept : row.get { others with aoneof := choice } = row.get others :=
    get_set_of_ne member (List.getElem_mem (show 25 < fields.length by decide)) other.symm choice
      others
  rw [kept]
  exact written row member

/-- **Whatever is in canonical form is what some message is written as.** -/
theorem exists_encode {list : List WireField} {bytes : Bytes} (form : CanonicalForm list bytes) :
    ∃ message : Example1, Message.IsCanonical message ∧ Message.Fits message ∧
      Message.encode message = bytes := by
  obtain ⟨message, members⟩ := exists_members form
  refine ⟨message, fun row member => (members row member).2.1, ?_, ?_⟩
  · intro inner inside
    obtain ⟨row, member, here⟩ := List.mem_flatMap.mp inside
    exact (members row member).2.2 inner here
  · have parts : written message
        = fields.flatMap fun row => list.filter fun field => field.number == row.number := by
      rw [written, List.flatMap_def, List.flatMap_def]
      congr 1
      exact List.map_congr_left fun row member => (members row member).1
    rw [← join_written, parts, ← form.joined]
    congr 1
    exact flatMap_filter_key form.ordered increasing fun field member =>
      mem_numbers (form.known field member)

/-- **The canonical form is what is written, and it comes back.** Every message that may be written is
written in canonical form. Bytes in canonical form are read without a fault, as a message that is written
as these bytes. -/
theorem encode_canonicalForm :
    (∀ message : Example1, Message.Fits message →
      ∃ list, CanonicalForm list (Message.encode message)) ∧
    ∀ list bytes, CanonicalForm list bytes → ∃ message : Example1,
      Message.Fits message ∧ Message.decode bytes = .ok message ∧ Message.encode message = bytes := by
  refine ⟨fun message fits => ⟨written message, canonicalForm_written fits⟩, fun list bytes form => ?_⟩
  obtain ⟨message, canonical, fits, rfl⟩ := exists_encode form
  exact ⟨message, fits, LawfulMessage.decode_encode canonical fits, rfl⟩

/-- The number -1 in the third field, extended to 64 bits. -/
def negative : WireField :=
  ⟨[0x18], ⟨3, 0⟩, [0xFF, 0xFF, 0xFF, 0xFF, 0xFF, 0xFF, 0xFF, 0xFF, 0xFF, 0x01]⟩

/-- It is in canonical form and comes back, and so is a message with a member of almost every kind. -/
theorem encode_canonicalForm_negative :
    (∃ list, CanonicalForm list (Message.encode fragile)) ∧
    CanonicalForm [negative] negative.bytes ∧
    ∃ message : Example1, Message.Fits message ∧ Message.decode negative.bytes = .ok message ∧
      Message.encode message = negative.bytes := by
  have fits : Message.Fits fragile := by decide +kernel
  have heads : negative.Heads 3 .varint :=
    ⟨rfl, Varint.shortest_iff.mpr ⟨by decide, by decide +kernel⟩⟩
  have payload : ScalarType.int32.CanonicalForm negative.payload :=
    ⟨0xFFFFFFFFFFFFFFFF, Varint.shortest_iff.mpr ⟨by decide, by decide +kernel⟩, .inr (by decide)⟩
  have set : ¬ Payload.IsZero negative.payload :=
    fun zero => absurd (zero 0x01 (by decide)) (by decide)
  have form : CanonicalForm [negative] negative.bytes := {
    joined := List.append_nil _
    known := List.forall_mem_singleton.mpr rfl
    ordered := List.pairwise_singleton _ _
    shaped := by
      intro number shape named
      by_cases own : number = 3
      · subst own
        cases named
        exact .one nofun heads ⟨payload, set⟩
      · have other : (negative.number == number) = false := beq_eq_false_iff_ne.mpr (Ne.symm own)
        simp only [List.filter_cons, other, Bool.false_eq_true, if_false, List.filter_nil]
        exact .nil shape number
    chosen := by
      rintro ⟨⟨field, member, number⟩, -⟩
      rw [List.mem_singleton.mp member] at number
      cases number }
  exact ⟨encode_canonicalForm.1 fragile fits, form,
    encode_canonicalForm.2 [negative] negative.bytes form⟩

end FooBar.Example1

end Protobuf

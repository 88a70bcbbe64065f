/-
**What a failed merge leaves behind.**

A merge that fails has merged the whole fields in front of the one that failed, and of that one it keeps
what was read before the fault, if its kind is made of parts:

* `Message.Breaks`: some bytes as whole fields and a rest whose first field fails. Bytes break in one
  place (`Message.Breaks.unique`), and they do if they are merged with a fault (`Message.exists_breaks`);
* `Message.Breaks.merge_eq`: what the rest changes are the edits of its first field;
* `Kind.Residual`: the occurrences that may leave something, a packed run and an embedded message. Any
  other one that fails makes no edit (`Kind.items_of_fault`);
* `Repeated.Leaves`, `Message.Leaves`: what these two leave, in terms of their own payload;
* `FooBar.Example1.Leaves`: what a failing field of `foo.bar.example1` leaves. Its other members are
  as they were, and so are all members of the other types;
* `MessageType.merge_residue`: the residue of a failed merge.
-/

import Mathlib.Data.List.Forall2
import Protobuf.Proofs.Independence

namespace Protobuf

/-! ### Where a merge breaks off -/

namespace Message

variable {M : Type} [Message M]

/-- Whole fields, and behind them one that fails. -/
structure Breaks (M : Type) [Message M] (bytes : Bytes) (fields : List WireField) (rest : Bytes)
    (fault : Fault) : Prop where
  /-- They are the bytes. -/
  joined : WireField.join fields ++ rest = bytes
  /-- The fields in front are read to their ends. -/
  whole : ∀ field ∈ fields, field.Whole M
  /-- There is a field behind them. -/
  more : rest ≠ []
  /-- The first field behind them fails. -/
  stopped : (field M rest).fault = some fault

/-- A whole field is the one that its bytes are read as. -/
theorem wireField_of_whole {field : WireField} (whole : field.Whole M) (more : Bytes) :
    wireField M (field.bytes ++ more) = .ok field more := by
  have head : Tag.read.withBytes (field.head ++ (field.payload ++ more))
      = .ok (field.head, field.tag) (field.payload ++ more) :=
    Reader.withBytes_eq_ok.mpr ⟨by simp, whole.head _⟩
  have body : (payload field.tag : Scanner (Edit M)).collect.withBytes (field.payload ++ more)
      = .ok (field.payload, (payload field.tag field.payload).items) more :=
    Reader.withBytes_eq_ok.mpr ⟨by simp, Scanner.collect_eq_ok.mpr (whole.payload more)⟩
  rw [WireField.bytes, List.append_assoc]
  exact Reader.bind_eq_ok.mpr ⟨_, _, head, Reader.bind_eq_ok.mpr ⟨_, _, body, rfl⟩⟩

/-- A field that fails is not a whole one with something behind it. -/
theorem Breaks.not_whole {bytes rest : Bytes} {fields : List WireField} {fault : Fault}
    (breaks : Breaks M bytes fields rest fault) {field : WireField} (whole : field.Whole M)
    (more : Bytes) : rest ≠ field.bytes ++ more := by
  rintro rfl
  have stopped := breaks.stopped
  rw [whole.reads more] at stopped
  cases stopped

/-- **Bytes break in one place.** -/
theorem Breaks.unique {bytes rest rest' : Bytes} {fields fields' : List WireField}
    {fault fault' : Fault} (breaks : Breaks M bytes fields rest fault)
    (breaks' : Breaks M bytes fields' rest' fault') :
    fields' = fields ∧ rest' = rest ∧ fault' = fault := by
  induction fields generalizing bytes fields' with
  | nil =>
    cases fields' with
    | nil =>
      obtain rfl : rest' = rest := breaks'.joined.trans breaks.joined.symm
      exact ⟨rfl, rfl, Option.some.inj (breaks'.stopped.symm.trans breaks.stopped)⟩
    | cons field' fields' =>
      have same := breaks.joined.trans breaks'.joined.symm
      rw [WireField.join_cons, List.append_assoc] at same
      exact absurd same (breaks.not_whole (breaks'.whole field' List.mem_cons_self) _)
  | cons field fields ih =>
    obtain ⟨first, whole⟩ := List.forall_mem_cons.mp breaks.whole
    cases fields' with
    | nil =>
      have same := breaks'.joined.trans breaks.joined.symm
      rw [WireField.join_cons, List.append_assoc] at same
      exact absurd same (breaks'.not_whole first _)
    | cons field' fields' =>
      obtain ⟨first', whole'⟩ := List.forall_mem_cons.mp breaks'.whole
      have same := breaks'.joined.trans breaks.joined.symm
      rw [WireField.join_cons, WireField.join_cons, List.append_assoc, List.append_assoc] at same
      -- both first fields are read off the same bytes
      have read := wireField_of_whole first (WireField.join fields ++ rest)
      rw [← same, wireField_of_whole first'] at read
      obtain ⟨rfl, behind⟩ : field' = field ∧ _ = _ := by simpa using read
      obtain ⟨rfl, rest⟩ := ih ⟨rfl, whole, breaks.more, breaks.stopped⟩
        ⟨behind, whole', breaks'.more, breaks'.stopped⟩
      exact ⟨rfl, rest⟩

/-- **Bytes that are merged with a fault break.** -/
theorem exists_breaks [Delimited M] {bytes : Bytes} {fault : Fault}
    (failed : (scan M bytes).fault = some fault) :
    ∃ rest, Breaks M bytes (wireFields M bytes) rest fault := by
  unfold scan at failed
  fun_induction Scanner.untilEnd (field M) (field_consuming M) bytes with
  | case1 => cases failed
  | case2 bytes more first continues ih =>
    obtain ⟨read, taken⟩ := wireField_isOk continues
    obtain ⟨same, whole⟩ := wireField_eq_ok taken
    obtain ⟨rest, breaks⟩ := ih failed
    rw [wireFields_cons taken]
    refine ⟨rest, ?_, List.forall_mem_cons.mpr ⟨whole, breaks.whole⟩, breaks.more, breaks.stopped⟩
    rw [WireField.join_cons, List.append_assoc, breaks.joined]
    exact same.symm
  | case3 bytes more first stopped =>
    have nothing : wireFields M bytes = [] := by
      cases taken : wireField M bytes with
      | ok read rest =>
        obtain ⟨rfl, whole⟩ := wireField_eq_ok taken
        exact absurd (congrArg Scan.fault (whole.reads rest)) stopped
      | error other rest => simp only [wireFields, Scanner.untilEnd_ofReader_error more taken]
    rw [nothing]
    exact ⟨bytes, rfl, List.forall_mem_nil _, more, failed⟩

/-- **What the rest changes are the edits of its first field.** -/
theorem Breaks.merge_eq {bytes rest : Bytes} {fields : List WireField} {fault : Fault}
    (breaks : Breaks M bytes fields rest fault) (target : M) :
    merge bytes target
      = ⟨Edit.all (field M rest).items (merge (WireField.join fields) target).message,
          some fault⟩ := by
  have makes := makes_join breaks.whole
  have last : scan M rest = field M rest :=
    Scanner.untilEnd_of_fault (field_consuming M) breaks.more breaks.stopped
  rw [← breaks.joined, makes target rest, makes.merge_eq target]
  simp only [merge, last, Scan.apply, breaks.stopped]

end Message

/-! ### What one field leaves -/

/-- Whether an occurrence with these framing bits may leave something in the member though it fails. -/
def Kind.Residual : {V : Type} → Kind V → (wire : Nat) → Prop
  | _, repeated type, wire => Repeated.isPacked wire type.wireType = true
  | _, embedded _, _ => True
  | _, _, _ => False

namespace Scanner

variable {α β : Type}

/-- A scan with a fault finds nothing. -/
def Atomic (scanner : Scanner α) : Prop :=
  ∀ ⦃bytes fault⦄, (scanner bytes).fault = some fault → (scanner bytes).items = []

theorem ofReader_atomic (reader : Reader α) : (ofReader reader).Atomic := by
  intro bytes fault stopped
  unfold ofReader at stopped ⊢
  split at stopped
  · cases stopped
  · rfl

theorem silent_atomic (reader : Reader Unit) : (silent reader : Scanner α).Atomic := by
  intro bytes fault _
  unfold silent
  split <;> rfl

theorem Atomic.map {scanner : Scanner α} (atomic : scanner.Atomic) (change : α → β) :
    (scanner.map change).Atomic := by
  intro bytes fault stopped
  simp only [Scanner.map, Scan.map, atomic stopped, List.map_nil]

/-- A loop over a reader that fails has read what it found, element by element, up to one that fails. -/
theorem untilEnd_ofReader_items {reader : Reader α} (delimited : reader.SelfDelimiting)
    {consuming : (ofReader reader).Consuming} {bytes : Bytes} {fault : Fault}
    (failed : (untilEnd (ofReader reader) consuming bytes).fault = some fault) :
    ∃ elements last left, bytes = elements.flatten ++ last ∧ last ≠ [] ∧
      List.Forall₂ reader.Reads elements (untilEnd (ofReader reader) consuming bytes).items ∧
      reader last = .error fault left := by
  fun_induction untilEnd (ofReader reader) consuming bytes with
  | case1 => cases failed
  | case2 bytes more first continues ih =>
    cases taken : reader bytes with
    | error fault rest => simp only [first, ofReader, taken, reduceCtorEq] at continues
    | ok value rest =>
      have found : first = ⟨[value], none, rest⟩ := by simp only [first, ofReader, taken]
      rw [found] at ih failed ⊢
      obtain ⟨element, same, reads⟩ := delimited taken
      obtain ⟨elements, last, left, flattened, present, all, stopped⟩ := ih failed
      refine ⟨element :: elements, last, left, ?_, present, .cons reads all, stopped⟩
      rw [List.flatten_cons, List.append_assoc, ← flattened, same]
  | case3 bytes more first stopped =>
    cases taken : reader bytes with
    | ok value rest => simp only [first, ofReader, taken, not_true_eq_false] at stopped
    | error other rest =>
      have found : first = ⟨[], some other, rest⟩ := by simp only [first, ofReader, taken]
      rw [found] at failed ⊢
      cases failed
      exact ⟨[], bytes, rest, rfl, more, .nil, taken⟩

end Scanner

/-- **An occurrence without parts that fails makes no edit.** -/
theorem Kind.scan_atomic {V : Type} {kind : Kind V} {wire : Nat} (bare : ¬ kind.Residual wire) :
    (kind.scan wire).Atomic := by
  cases kind with
  | singular type => exact (Scanner.ofReader_atomic _).map _
  | enumeration E => exact (Scanner.ofReader_atomic _).map _
  | «repeated» type =>
    have single : Repeated.scan wire type.wireType type = Repeated.single type := if_neg bare
    simp only [scan, single]
    exact (Scanner.ofReader_atomic _).map _
  | embedded N => exact absurd trivial bare
  | textMap => exact (Scanner.ofReader_atomic _).map _
  | alternative type choose chosen => exact (Scanner.ofReader_atomic _).map _

/-- Nor does a field of a table, with such a row or with none. -/
theorem Message.payloadOf_atomic {M : Type} {fields : List (Field M)} {tag : Tag}
    (bare : ∀ row ∈ fields, row.number = tag.number → ¬ row.kind.Residual tag.wire) :
    (payloadOf fields tag).Atomic := by
  unfold payloadOf
  split
  · next row found =>
    have number : row.number = tag.number := by simpa using List.find?_some found
    exact (Kind.scan_atomic (bare row (List.mem_of_find?_eq_some found) number)).map _
  · exact Scanner.silent_atomic _

/-- What an occurrence of packed elements leaves: the elements before the one that failed. -/
inductive Repeated.Leaves (type : ScalarType) (body : Bytes) (fault : Fault) :
    List type.Value → Prop where
  /-- The payload was not read. -/
  | unread {rest : Bytes} : Payload.read body = .error fault rest → Leaves type body fault []
  /-- Elements of the payload were read, and then one failed. -/
  | broken {rest last left : Bytes} {elements : List Bytes} {values : List type.Value} :
    Payload.read body = .ok (elements.flatten ++ last) rest → last ≠ [] →
      List.Forall₂ type.read.Reads elements values → type.read last = .error fault left →
      Leaves type body fault values

theorem Repeated.leaves_run {type : ScalarType} {body : Bytes} {fault : Fault}
    (failed : (run type body).fault = some fault) :
    Leaves type body fault (run type body).items := by
  unfold run Scanner.within at failed ⊢
  cases whole : Payload.read body with
  | error other rest =>
    simp only [whole] at failed ⊢
    cases failed
    exact .unread whole
  | ok payload rest =>
    simp only [whole] at failed ⊢
    obtain ⟨elements, last, left, rfl, present, all, stopped⟩ :=
      Scanner.untilEnd_ofReader_items type.read_selfDelimiting failed
    exact .broken whole present all stopped

/-- What an occurrence of an embedded message leaves of the message that was there. -/
inductive Message.Leaves {N : Type} [Message N] (body : Bytes) (fault : Fault) (old : N) :
    N → Prop where
  /-- The payload was not read. -/
  | unread {rest : Bytes} : Payload.read body = .error fault rest → Leaves body fault old old
  /-- The payload was merged up to its own fault. -/
  | broken {payload rest : Bytes} {new : N} :
    Payload.read body = .ok payload rest → Message.merge payload old = ⟨new, some fault⟩ →
      Leaves body fault old new

theorem Kind.leaves_embedded {N : Type} [Message N] {wire : Nat} {body : Bytes} {fault : Fault}
    (failed : ((embedded N).scan wire body).fault = some fault) (old : Option N) :
    ∃ new, Message.Leaves body fault (old.getD Message.empty) new ∧
      Edit.all ((embedded N).scan wire body).items old = some new := by
  simp only [scan, Scan.map, Edit.all_cons, all_map_some] at failed ⊢
  refine ⟨_, ?_, rfl⟩
  unfold Scanner.within at failed ⊢
  cases whole : Payload.read body with
  | error other rest =>
    simp only [whole] at failed ⊢
    cases failed
    exact .unread whole
  | ok payload rest =>
    simp only [whole] at failed ⊢
    exact .broken whole (by simp only [Message.merge, Scan.apply, failed])

/-! ### What a failing field leaves in its row -/

namespace Message

variable {M : Type} [Message M] {fields : List (Field M)} {choice : List Nat}
  {number wire : Nat} {body : Bytes} {fault : Fault}

theorem Separate.leaves_nothing (separate : Separate fields choice) {tag : Tag}
    (bare : ∀ row ∈ fields, row.number = tag.number → ¬ row.kind.Residual tag.wire)
    (stopped : (payload tag body : Scan (Edit M)).fault = some fault) :
    (payload tag body : Scan (Edit M)).items = [] := by
  rw [separate.table] at stopped ⊢
  exact payloadOf_atomic bare stopped

theorem Separate.leaves_repeated (separate : Separate fields choice) {type : ScalarType}
    {get : M → List type.Value} {set : List type.Value → M → M}
    (member : ⟨number, .repeated type, get, set⟩ ∈ fields)
    (packed : Repeated.isPacked wire type.wireType = true)
    (stopped : (payload ⟨number, wire⟩ body : Scan (Edit M)).fault = some fault) (message : M) :
    ∃ values, Repeated.Leaves type body fault values ∧
      Edit.all (payload ⟨number, wire⟩ body : Scan (Edit M)).items message
        = set (get message ++ values) message := by
  have scan := separate.table ⟨number, wire⟩
  rw [payloadOf_row separate.distinct member wire] at scan
  have run : (Kind.repeated type).scan wire
      = (Repeated.run type).map fun value values => values ++ [value] := by
    simp only [Kind.scan, Repeated.scan, if_pos packed]
  have failed : (Repeated.run type body).fault = some fault := by
    rw [scan, Field.scan, run] at stopped
    exact stopped
  refine ⟨_, Repeated.leaves_run failed, ?_⟩
  rw [scan, ← Kind.all_push]
  have edits := (separate.lawful _ member).all_update ((Kind.repeated type).scan wire body).items message
  rw [run] at edits
  simp only [Field.scan, run]
  exact edits

theorem Separate.leaves_embedded (separate : Separate fields choice) {N : Type} [Message N]
    {get : M → Option N} {set : Option N → M → M}
    (member : ⟨number, .embedded N, get, set⟩ ∈ fields)
    (stopped : (payload ⟨number, wire⟩ body : Scan (Edit M)).fault = some fault) (message : M) :
    ∃ new, Message.Leaves body fault ((get message).getD empty) new ∧
      Edit.all (payload ⟨number, wire⟩ body : Scan (Edit M)).items message
        = set (some new) message := by
  have scan := separate.table ⟨number, wire⟩
  rw [payloadOf_row separate.distinct member wire] at scan
  have failed : ((Kind.embedded N).scan wire body).fault = some fault := by
    rw [scan] at stopped
    exact stopped
  obtain ⟨new, left, edits⟩ := Kind.leaves_embedded failed (get message)
  refine ⟨new, left, ?_⟩
  rw [scan, ← edits]
  exact (separate.lawful _ member).all_update _ message

end Message

/-! ### What a failing field of `foo.bar.example1` leaves -/

namespace FooBar.Example1

/-- What the first field of these bytes, which fails, makes of a message. -/
inductive Leaves (rest : Bytes) (fault : Fault) (message : Example1) : Example1 → Prop where
  /-- Of any other field, or of none. -/
  | nothing : (∀ tag body, Tag.read rest = .ok tag body →
      tag ≠ ⟨20, WireType.lengthDelimited.id⟩ ∧ tag.number ∉ [21, 22, 23]) →
      Leaves rest fault message message
  /-- Of a packed run. -/
  | manyint64 {body : Bytes} {values : List Int64} :
    Tag.read rest = .ok ⟨20, WireType.lengthDelimited.id⟩ body →
      Repeated.Leaves .int64 body fault values →
      Leaves rest fault message { message with manyint64 := message.manyint64 ++ values }
  /-- Of the first embedded message. -/
  | aexample2 {wire : Nat} {body : Bytes} {new : Example1.Example2} :
    Tag.read rest = .ok ⟨21, wire⟩ body →
      Message.Leaves body fault (message.aexample2.getD {}) new →
      Leaves rest fault message { message with aexample2 := some new }
  /-- Of the second embedded message. -/
  | aexample22 {wire : Nat} {body : Bytes} {new : FooBar.Example2} :
    Tag.read rest = .ok ⟨22, wire⟩ body →
      Message.Leaves body fault (message.aexample22.getD {}) new →
      Leaves rest fault message { message with aexample22 := some new }
  /-- Of the third embedded message. -/
  | aexample23 {wire : Nat} {body : Bytes} {new : FizBaz.Example2} :
    Tag.read rest = .ok ⟨23, wire⟩ body →
      Message.Leaves body fault (message.aexample23.getD {}) new →
      Leaves rest fault message { message with aexample23 := some new }

/-- Only these occurrences have parts. -/
theorem residual : ∀ row ∈ fields, ∀ wire, row.kind.Residual wire →
    (⟨row.number, wire⟩ : Tag) = ⟨20, WireType.lengthDelimited.id⟩ ∨ row.number ∈ [21, 22, 23] := by
  simp only [fields, List.forall_mem_cons, List.not_mem_nil, false_implies, implies_true, and_true]
  repeat' apply And.intro
  all_goals first
    | exact fun _ => False.elim
    | exact fun _ _ => .inr (by decide)
    | exact fun _ => by simp [Kind.Residual, Repeated.isPacked, ScalarType.wireType]

/-- **What a failing field makes of a message.** -/
theorem leaves_field {rest : Bytes} {fault : Fault}
    (stopped : (Message.field Example1 rest).fault = some fault) (message : Example1) :
    Leaves rest fault message (Edit.all (Message.field Example1 rest).items message) := by
  have separate : Message.Separate fields _ := MessageType.separate .example1
  unfold Message.field Scanner.after at stopped ⊢
  cases head : Tag.read rest with
  | error other left => exact .nothing (by simp [head])
  | ok tag body =>
    simp only [head] at stopped ⊢
    obtain ⟨number, wire⟩ := tag
    by_cases run : (⟨number, wire⟩ : Tag) = ⟨20, WireType.lengthDelimited.id⟩
    · obtain ⟨rfl, rfl⟩ : number = 20 ∧ wire = WireType.lengthDelimited.id := by simpa using run
      obtain ⟨values, left, edits⟩ := separate.leaves_repeated
        (List.getElem_mem (l := fields) (n := 19) (by decide)) rfl stopped message
      rw [edits]
      exact .manyint64 head left
    by_cases embedded : number ∈ [21, 22, 23]
    · simp only [List.mem_cons, List.not_mem_nil, or_false] at embedded
      rcases embedded with rfl | rfl | rfl
      · obtain ⟨new, left, edits⟩ := separate.leaves_embedded
          (List.getElem_mem (l := fields) (n := 20) (by decide)) stopped message
        rw [edits]
        exact .aexample2 head left
      · obtain ⟨new, left, edits⟩ := separate.leaves_embedded
          (List.getElem_mem (l := fields) (n := 21) (by decide)) stopped message
        rw [edits]
        exact .aexample22 head left
      · obtain ⟨new, left, edits⟩ := separate.leaves_embedded
          (List.getElem_mem (l := fields) (n := 22) (by decide)) stopped message
        rw [edits]
        exact .aexample23 head left
    · have bare : ∀ row ∈ fields, row.number = number → ¬ row.kind.Residual wire := by
        rintro row member rfl parts
        exact (residual row member wire parts).elim run embedded
      rw [separate.leaves_nothing bare stopped]
      refine .nothing fun tag' body' same => ?_
      rw [head] at same
      cases same
      exact ⟨run, embedded⟩

/-- A member that has no parts is as it was. -/
theorem Leaves.get_eq {rest : Bytes} {fault : Fault} {before after : Example1}
    (leaves : Leaves rest fault before after) :
    ∀ row ∈ fields, (∀ wire, ¬ row.kind.Residual wire) → row.get after = row.get before := by
  cases leaves
  all_goals
    simp only [fields, List.forall_mem_cons, List.not_mem_nil, false_implies, implies_true, and_true]
    repeat' apply And.intro
  all_goals first
    | exact trivial
    | exact fun _ => rfl
    | exact fun bare => (bare WireType.lengthDelimited.id rfl).elim
    | exact fun bare => (bare 0 trivial).elim

end FooBar.Example1

/-! ### Every message type -/

namespace MessageType

/-- What the first field of these bytes, which fails, makes of a message. -/
def Leaves : (type : MessageType) → (rest : Bytes) → (fault : Fault) → (before after : type.Value) → Prop
  | example1, rest, fault, before, after => FooBar.Example1.Leaves rest fault before after
  | _, _, _, before, after => after = before

theorem not_residual {type : MessageType} (other : type ≠ .example1) :
    ∀ row ∈ type.fields, ∀ wire, ¬ row.kind.Residual wire := by
  cases type
  case example1 => exact absurd rfl other
  all_goals
    simp only [fields, FooBar.Example1.Example2.fields, FooBar.Example2.fields, FizBaz.Example2.fields,
      Conformance.Request.fields, Conformance.Response.fields, Conformance.FailureSet.fields,
      List.forall_mem_cons, List.not_mem_nil, false_implies, implies_true, and_true]
    repeat' apply And.intro
  all_goals first
    | exact fun _ => id
    | exact fun _ => by simp [Kind.Residual, Repeated.isPacked, ScalarType.wireType]

theorem leaves_field (type : MessageType) {rest : Bytes} {fault : Fault}
    (stopped : (Message.field type.Value rest).fault = some fault) (message : type.Value) :
    type.Leaves rest fault message (Edit.all (Message.field type.Value rest).items message) := by
  by_cases example1 : type = .example1
  · subst example1
    exact FooBar.Example1.leaves_field stopped message
  have nothing : (Message.field type.Value rest).items = [] := by
    unfold Message.field Scanner.after at stopped ⊢
    cases head : Tag.read rest with
    | error other left => rfl
    | ok tag body =>
      simp only [head] at stopped ⊢
      exact type.separate.leaves_nothing (fun row member _ => not_residual example1 row member _) stopped
  rw [nothing]
  cases type
  case example1 => exact absurd rfl example1
  all_goals rfl

theorem Leaves.get_eq {type : MessageType} {rest : Bytes} {fault : Fault} {before after : type.Value}
    (leaves : type.Leaves rest fault before after) :
    ∀ row ∈ type.fields, (∀ wire, ¬ row.kind.Residual wire) → row.get after = row.get before := by
  cases type
  case example1 => exact FooBar.Example1.Leaves.get_eq leaves
  all_goals exact fun row _ _ => congrArg row.get leaves

/-- **What a failed merge leaves behind.** Bytes that are merged with a fault are, in one way, whole
fields and a rest whose first field fails with that fault. The fields in front are merged without one;
what is left is the message that they made, but for the parts that the failing field left in its own
member. A member without parts is as they made it. -/
theorem merge_residue (type : MessageType) (target : type.Value) {bytes : Bytes} {fault : Fault}
    (failed : (Message.merge bytes target).fault = some fault) :
    ∃ fields rest, Message.Breaks type.Value bytes fields rest fault ∧
      (∀ fields' rest' fault', Message.Breaks type.Value bytes fields' rest' fault' →
        fields' = fields ∧ rest' = rest ∧ fault' = fault) ∧
      ∃ before, Message.merge (WireField.join fields) target = ⟨before, none⟩ ∧
        type.Leaves rest fault before (Message.merge bytes target).message ∧
        ∀ row ∈ type.fields, (∀ wire, ¬ row.kind.Residual wire) →
          row.get (Message.merge bytes target).message = row.get before := by
  obtain ⟨rest, breaks⟩ := Message.exists_breaks failed
  have complete := (Message.makes_join breaks.whole).merge_eq target
  have merged := breaks.merge_eq target
  rw [complete] at merged
  have leaves := type.leaves_field breaks.stopped
    (Edit.all ((Message.wireFields type.Value bytes).map (WireField.edit type.Value)) target)
  rw [merged]
  exact ⟨_, rest, breaks, fun _ _ _ => breaks.unique, _, complete, leaves, leaves.get_eq⟩

end MessageType

/-- An integer, a run that ends within its third element, and a string that is not met. -/
def FooBar.Example1.brokenRun : Bytes :=
  [0x18, 0x07, 0xA2, 0x01, 0x03, 0x05, 0x06, 0x80, 0x72, 0x01, 0x61]

/-- The integer is merged, and the two elements before the broken one are kept. -/
theorem MessageType.merge_residue_brokenRun :
    (Message.merge (M := MessageType.example1.Value) FooBar.Example1.brokenRun
        { manyint64 := [4] }).fault = some (.bufferOverrun 1 0) ∧
      MessageType.example1.Leaves [0xA2, 0x01, 0x03, 0x05, 0x06, 0x80, 0x72, 0x01, 0x61]
        (.bufferOverrun 1 0) { aint32 := 7, manyint64 := [4] }
        { aint32 := 7, manyint64 := [4, 5, 6] } := by
  have failed : (Message.merge (M := MessageType.example1.Value) FooBar.Example1.brokenRun
      { manyint64 := [4] }).fault = some (.bufferOverrun 1 0) := by decide +kernel
  have integer : WireField.Whole MessageType.example1.Value ⟨[0x18], ⟨3, 0⟩, [0x07]⟩ :=
    ⟨fun _ => rfl, fun _ => rfl⟩
  have breaks : Message.Breaks MessageType.example1.Value FooBar.Example1.brokenRun
      [⟨[0x18], ⟨3, 0⟩, [0x07]⟩] [0xA2, 0x01, 0x03, 0x05, 0x06, 0x80, 0x72, 0x01, 0x61]
      (.bufferOverrun 1 0) :=
    ⟨rfl, List.forall_mem_singleton.mpr integer, by decide, by decide +kernel⟩
  obtain ⟨fields, rest, -, unique, before, whole, leaves, -⟩ :=
    MessageType.merge_residue .example1 { manyint64 := [4] } failed
  obtain ⟨rfl, rfl, -⟩ := unique _ _ _ breaks
  have first : (Message.merge [0x18, 0x07] ({ manyint64 := [4] } : FooBar.Example1)).message
      = { aint32 := 7, manyint64 := [4] } := by decide +kernel
  have all : (Message.merge FooBar.Example1.brokenRun ({ manyint64 := [4] } : FooBar.Example1)).message
      = { aint32 := 7, manyint64 := [4, 5, 6] } := by decide +kernel
  obtain rfl : before = { aint32 := 7, manyint64 := [4] } :=
    (congrArg Merged.message whole).symm.trans first
  have residue : MessageType.example1.Leaves _ _ _ (Message.merge FooBar.Example1.brokenRun
    ({ manyint64 := [4] } : FooBar.Example1)).message := leaves
  rw [all] at residue
  exact ⟨failed, residue⟩

end Protobuf

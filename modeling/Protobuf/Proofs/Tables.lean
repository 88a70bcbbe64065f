/-
**A table of lawful rows is a lawful message type.**

The row of a member is lawful if its `get` and `set` are the two halves of a lens, if its number is
one that a tag may carry, and if what it embeds is lawful.

* `Field.Lawful.makes`: what a row writes makes in a message the change that its kind makes in the
  member;
* `Message.makes_rows`: so all rows of a table make the changes of `Message.overlay`, one row after
  the other. Rows may share a member, as the cases of a choice do;
* `Kind.isCanonical_of_edit`: no field that is read leaves an enumeration with an undeclared spelling
  of a declared number;
* `Kind.length_le_of_mem_payloads`: a payload is part of what is written;
* `LawfulTable.lawfulMessage`: `LawfulMessage` for a table. What is left to be shown of a concrete
  table is checked row by row (`LawfulTable`).
-/

import Protobuf.Proofs.Occurrences

namespace Protobuf

variable {M : Type}

/-! ### Rows -/

namespace Field

/-- The laws of a row. -/
structure Lawful (field : Field M) : Prop where
  /-- A member that was set is found. -/
  get_set : ∀ value message, field.get (field.set value message) = value
  /-- Setting a member to what it is changes nothing. -/
  set_get : ∀ message, field.set (field.get message) message = message
  /-- The last of two settings counts. -/
  set_set : ∀ second first message,
    field.set second (field.set first message) = field.set second message
  /-- What is embedded is lawful. -/
  kind : field.kind.Lawful
  /-- Numbers start at one. -/
  least : 1 ≤ field.number
  /-- A tag can carry the number. -/
  most : field.number ≤ maxFieldNumber

variable {field : Field M}

theorem Lawful.update_id (lawful : field.Lawful) : field.update id = id :=
  funext lawful.set_get

theorem Lawful.update_update (lawful : field.Lawful) (first second : Edit field.Value)
    (message : M) :
    field.update second (field.update first message)
      = field.update (fun value => second (first value)) message := by
  unfold update
  rw [lawful.get_set, lawful.set_set]

theorem Lawful.all_update (lawful : field.Lawful) (edits : List (Edit field.Value))
    (message : M) :
    Edit.all (edits.map field.update) message = field.update (Edit.all edits) message := by
  induction edits generalizing message with
  | nil => exact (congrFun lawful.update_id message).symm
  | cons edit edits ih =>
    rw [List.map_cons, Edit.all_cons, ih, lawful.update_update]
    rfl

/-- **The occurrences of a member change it and nothing else.** -/
theorem Lawful.makes [Message M] (lawful : field.Lawful)
    (declared : ∀ wire, Message.payload ⟨field.number, wire⟩ = field.scan wire) {bytes : Bytes}
    {edit : Edit field.Value} (occurrences : field.kind.Occurrences field.number bytes edit) :
    Message.Makes bytes (field.update edit) := by
  induction occurrences with
  | none =>
    rw [lawful.update_id]
    exact .nil
  | @more wire payload rest edits edit reads _ ih =>
    have whole : (Message.field M).Reads (Tag.encode field.number wire ++ payload)
        (edits.map field.update) := by
      refine .after (Tag.reads_encode wire lawful.least lawful.most) ?_
      rw [declared]
      exact reads.map field.update
    have changes : field.update (fun value => edit (Edit.all edits value))
        = fun message => field.update edit (Edit.all (edits.map field.update) message) :=
      funext fun message => by rw [lawful.all_update, lawful.update_update]
    rw [changes]
    exact (Message.makes_of_field whole).append ih

end Field

/-! ### Rows together -/

namespace Message

/-- A row is found by its number. -/
theorem find?_number {fields : List (Field M)} (distinct : (fields.map Field.number).Nodup)
    {field : Field M} (member : field ∈ fields) :
    fields.find? (fun other => other.number == field.number) = some field := by
  induction fields with
  | nil => cases member
  | cons head rest ih =>
    obtain ⟨fresh, distinct⟩ := List.nodup_cons.mp distinct
    rcases List.mem_cons.mp member with rfl | inside
    · exact List.find?_cons_of_pos (beq_self_eq_true field.number)
    · have other : (head.number == field.number) = false := by
        rw [beq_eq_false_iff_ne]
        exact fun same => fresh (same ▸ List.mem_map_of_mem inside)
      simp only [List.find?_cons, other]
      exact ih distinct inside

/-- **What the rows write, merged, lays every member of a message over the target.** -/
theorem makes_rows [Message M] {rows : List (Field M)} (lawful : ∀ field ∈ rows, field.Lawful)
    (declared : ∀ field ∈ rows, ∀ wire, payload ⟨field.number, wire⟩ = field.scan wire) {later : M}
    (canonical : ∀ field ∈ rows, field.kind.IsCanonical (field.get later))
    (fits : ∀ bytes ∈ rows.flatMap fun field => field.kind.payloads (field.get later),
      bytes.length ≤ maxLength) :
    Makes (rows.flatMap fun field => field.encode later) fun earlier =>
      rows.foldl (fun message field => field.overlay later message) earlier := by
  induction rows with
  | nil => exact .nil
  | cons field rest ih =>
    obtain ⟨lawfulRow, lawfulRest⟩ := List.forall_mem_cons.mp lawful
    obtain ⟨declaredRow, declaredRest⟩ := List.forall_mem_cons.mp declared
    obtain ⟨canonicalRow, canonicalRest⟩ := List.forall_mem_cons.mp canonical
    rw [List.flatMap_cons, List.forall_mem_append] at fits
    have row := lawfulRow.makes declaredRow
      (field.kind.occurrences_encode lawfulRow.kind (field.get later) canonicalRow fits.1)
    exact row.append (ih lawfulRest declaredRest canonicalRest fits.2)

end Message

/-! ### What is read is canonical -/

theorem Scanner.mem_untilEnd {α : Type} {scanner : Scanner α} {consuming : scanner.Consuming}
    {bytes : Bytes} {item : α} (member : item ∈ (untilEnd scanner consuming bytes).items) :
    ∃ rest, item ∈ (scanner rest).items := by
  fun_induction untilEnd scanner consuming bytes with
  | case1 => cases member
  | case2 bytes more first continues ih =>
    rcases List.mem_append.mp member with here | later
    · exact ⟨bytes, here⟩
    · exact ih later
  | case3 bytes more first stopped => exact ⟨bytes, member⟩

theorem Scanner.mem_after {α β : Type} {reader : Reader α} {next : α → Scanner β} {bytes : Bytes}
    {item : β} (member : item ∈ (after reader next bytes).items) :
    ∃ value rest, item ∈ (next value rest).items := by
  unfold after at member
  split at member
  · exact ⟨_, _, member⟩
  · cases member

theorem Scanner.mem_map {α β : Type} {scanner : Scanner α} {change : α → β} {bytes : Bytes}
    {item : β} (member : item ∈ (scanner.map change bytes).items) :
    ∃ value ∈ (scanner bytes).items, item = change value := by
  obtain ⟨value, inside, same⟩ := List.mem_map.mp member
  exact ⟨value, inside, same.symm⟩

theorem Scanner.mem_within {α : Type} {scanner : Scanner α} {bytes : Bytes} {item : α}
    (member : item ∈ (within scanner bytes).items) : ∃ payload, item ∈ (scanner payload).items := by
  unfold within at member
  split at member
  · exact ⟨_, member⟩
  · cases member

theorem Message.mem_payloadOf {fields : List (Field M)} {tag : Tag} {bytes : Bytes} {edit : Edit M}
    (member : edit ∈ (Message.payloadOf fields tag bytes).items) :
    ∃ field ∈ fields, ∃ inner ∈ (field.kind.scan tag.wire bytes).items,
      edit = field.update inner := by
  cases found : fields.find? fun field => field.number == tag.number with
  | none =>
    simp only [payloadOf, found, Scanner.silent] at member
    split at member <;> cases member
  | some field =>
    simp only [payloadOf, found] at member
    exact ⟨field, List.mem_of_find?_eq_some found, Scanner.mem_map member⟩

theorem Kind.isCanonical_of_edit {V : Type} {kind : Kind V} (lawful : kind.Lawful) {wire : Nat}
    {bytes : Bytes} {edit : Edit V} (member : edit ∈ (kind.scan wire bytes).items) {value : V}
    (canonical : kind.IsCanonical value) : kind.IsCanonical (edit value) := by
  cases kind with
  | enumeration =>
    obtain ⟨number, _, rfl⟩ := Scanner.mem_map member
    exact congrArg OpenEnum.ofNumber (OpenEnum.number_ofNumber number)
  | embedded N =>
    have : LawfulMessage N := lawful
    rcases List.mem_cons.mp member with rfl | inside
    · -- the tag alone: the message that is there, or the empty one
      rintro inner ⟨⟩
      cases value with
      | none => exact LawfulMessage.isCanonical_empty
      | some present => exact canonical present rfl
    · obtain ⟨change, found, rfl⟩ := List.mem_map.mp inside
      obtain ⟨payload, taken⟩ := Scanner.mem_within found
      intro inner present
      obtain ⟨before, old, rfl⟩ := Option.map_eq_some_iff.mp present
      exact LawfulMessage.isCanonical_of_edit payload change taken before (canonical before old)
  | _ => trivial

/-! ### Payloads are written -/

theorem Payload.length_le_encode (payload : Bytes) : payload.length ≤ (encode payload).length := by
  rw [encode, List.length_append]
  exact Nat.le_add_left _ _

theorem ScalarType.length_le_of_mem_payloads {type : ScalarType} {value : type.Value}
    {payload : Bytes} (member : payload ∈ type.payloads value) :
    payload.length ≤ (type.encode value).length := by
  cases type with
  | bytes =>
    cases List.mem_singleton.mp member
    exact Payload.length_le_encode payload
  | string =>
    cases List.mem_singleton.mp member
    exact Payload.length_le_encode (Utf8.encode value)
  | _ => cases member

/-- A payload that is somewhere in a field. -/
theorem Scalar.length_le_of_mem_payloads {number : Nat} {type : ScalarType} {value : type.Value}
    {payload : Bytes} (member : payload ∈ type.payloads value) :
    payload.length ≤ (field number ⟨type, value⟩).length := by
  rw [field, List.length_append]
  exact Nat.le_add_left_of_le (ScalarType.length_le_of_mem_payloads member)

/-- A default has no payload but an empty one. -/
theorem ScalarType.length_of_mem_payloads_default {type : ScalarType} {payload : Bytes}
    (member : payload ∈ type.payloads type.default) : payload.length = 0 := by
  cases type with
  | bytes =>
    cases List.mem_singleton.mp member
    rfl
  | string =>
    cases List.mem_singleton.mp member
    rfl
  | _ => cases member

theorem Entry.length_le_of_mem_payloads (key value : ScalarType) (entry : key.Value × value.Value)
    {payload : Bytes} (member : payload ∈ key.payloads entry.1 ++ value.payloads entry.2) :
    payload.length ≤ (encode (some ⟨key, entry.1⟩) (some ⟨value, entry.2⟩)).length := by
  show _ ≤ (Scalar.field keyNumber _ ++ Scalar.field valueNumber _).length
  rw [List.length_append]
  rcases List.mem_append.mp member with first | second
  · exact Nat.le_add_right_of_le (Scalar.length_le_of_mem_payloads first)
  · exact Nat.le_add_left_of_le (Scalar.length_le_of_mem_payloads second)

theorem length_le_length_flatMap {α : Type _} (f : α → Bytes) {items : List α} {item : α}
    (member : item ∈ items) : (f item).length ≤ (items.flatMap f).length := by
  obtain ⟨before, behind, rfl⟩ := List.append_of_mem member
  rw [List.flatMap_append, List.flatMap_cons, List.length_append, List.length_append]
  omega

namespace Kind

variable {number : Nat} {payload : Bytes}

theorem length_le_singular {type : ScalarType} {value : type.Value}
    (member : payload ∈ (singular type).payloads value) :
    payload.length ≤ ((singular type).encode number value).length := by
  by_cases unset : value = type.default
  · subst unset
    rw [ScalarType.length_of_mem_payloads_default member]
    exact Nat.zero_le _
  · simp only [encode, if_neg unset]
    exact Scalar.length_le_of_mem_payloads member

theorem length_le_repeated {type : ScalarType} {values : List type.Value}
    (member : payload ∈ (repeated type).payloads values) :
    payload.length ≤ ((repeated type).encode number values).length := by
  simp only [payloads] at member
  by_cases framed : type.wireType = .lengthDelimited
  · simp only [encode, if_pos framed]
    rw [if_pos framed] at member
    obtain ⟨element, inside, member⟩ := List.mem_flatMap.mp member
    exact Nat.le_trans (Scalar.length_le_of_mem_payloads member)
      (length_le_length_flatMap (fun value => Scalar.field number ⟨type, value⟩) inside)
  · simp only [encode, if_neg framed, Repeated.packed]
    rw [if_neg framed] at member
    cases List.mem_singleton.mp member
    by_cases empty : values = []
    · subst empty
      exact Nat.zero_le _
    · rw [if_neg empty, List.length_append]
      exact Nat.le_add_left_of_le (Payload.length_le_encode _)

theorem length_le_embedded {N : Type} [Message N] [LawfulMessage N] {message : Option N}
    (member : payload ∈ (embedded N).payloads message) :
    payload.length ≤ ((embedded N).encode number message).length := by
  cases message with
  | none => cases member
  | some message =>
    have inner : payload.length ≤ (Message.encode message).length := by
      rcases List.mem_cons.mp member with rfl | inside
      · exact Nat.le_refl _
      · exact LawfulMessage.length_le_of_mem_payloads message payload inside
    simp only [encode, List.length_append]
    exact Nat.le_add_left_of_le (Nat.le_trans inner (Payload.length_le_encode _))

theorem length_le_textMap {map : TextMap} (member : payload ∈ textMap.payloads map) :
    payload.length ≤ (textMap.encode number map).length := by
  obtain ⟨entry, present, member⟩ := List.mem_flatMap.mp member
  have inner : payload.length
      ≤ (Entry.encode (some ⟨.string, entry.1⟩) (some ⟨.string, entry.2⟩)).length := by
    rcases List.mem_cons.mp member with rfl | member
    · exact Nat.le_refl _
    · exact Entry.length_le_of_mem_payloads .string .string entry member
  refine Nat.le_trans ?_ (length_le_length_flatMap _ present)
  rw [List.length_append]
  exact Nat.le_add_left_of_le (Nat.le_trans inner (Payload.length_le_encode _))

theorem length_le_alternative {type : ScalarType} {C : Type} {choose : type.Value → C}
    {chosen : C → Option type.Value} {choice : Option C}
    (member : payload ∈ (alternative type choose chosen).payloads choice) :
    payload.length ≤ ((alternative type choose chosen).encode number choice).length := by
  simp only [payloads] at member
  cases found : choice.bind chosen with
  | none =>
    rw [found] at member
    cases member
  | some value =>
    rw [found] at member
    simp only [encode, found]
    exact Scalar.length_le_of_mem_payloads member

/-- **A payload of a member is no longer than what the member is written as.** -/
theorem length_le_of_mem_payloads {V : Type} {kind : Kind V} (lawful : kind.Lawful) {value : V}
    (member : payload ∈ kind.payloads value) :
    payload.length ≤ (kind.encode number value).length := by
  cases kind with
  | singular => exact length_le_singular member
  | enumeration => cases member
  | repeated => exact length_le_repeated member
  | embedded N =>
    have : LawfulMessage N := lawful
    exact length_le_embedded member
  | textMap => exact length_le_textMap member
  | alternative => exact length_le_alternative member

end Kind

/-! ### The whole table -/

/-- What is to be checked of a table and its empty message. -/
structure LawfulTable (empty : M) (fields : List (Field M)) : Prop where
  /-- No number is given twice. -/
  distinct : (fields.map Field.number).Nodup
  /-- Every row is lawful. -/
  lawful : ∀ field ∈ fields, field.Lawful
  /-- Enumerations start canonical. -/
  isCanonical_empty : ∀ field ∈ fields, field.kind.IsCanonical (field.get empty)
  /-- Setting one member leaves the others canonical. -/
  isCanonical_set : ∀ field ∈ fields, ∀ value message, field.kind.IsCanonical value →
    (∀ other ∈ fields, other.kind.IsCanonical (other.get message)) →
    ∀ other ∈ fields, other.kind.IsCanonical (other.get (field.set value message))
  /-- No member is missing from the table. -/
  complete : ∀ message, (∀ field ∈ fields, field.kind.IsCanonical (field.get message)) →
    fields.foldl (fun earlier field => field.overlay message earlier) empty = message

/-- A value or its default, whichever it is. -/
theorem ite_default {α : Type} [DecidableEq α] (value default : α) :
    (if value = default then default else value) = value := by
  by_cases unset : value = default
  · rw [if_pos unset, unset]
  · rw [if_neg unset]

/-- A table of one scalar passes the checks if the scalar is the whole message. -/
theorem LawfulTable.singular {number : Nat} {type : ScalarType} {get : M → type.Value}
    {set : type.Value → M → M} {empty : M}
    (lawful : (⟨number, .singular type, get, set⟩ : Field M).Lawful)
    (unset : get empty = type.default) (whole : ∀ message, set (get message) empty = message) :
    LawfulTable empty [⟨number, .singular type, get, set⟩] where
  distinct := List.nodup_cons.mpr ⟨List.not_mem_nil, List.nodup_nil⟩
  lawful := List.forall_mem_singleton.mpr lawful
  isCanonical_empty := List.forall_mem_singleton.mpr trivial
  isCanonical_set _ _ _ _ _ _ := List.forall_mem_singleton.mpr trivial
  complete := by
    intro message _
    show set (if get message = type.default then get empty else get message) empty = message
    rw [unset, ite_default, whole]

/-- **A table that passes the checks makes a lawful message type.** -/
theorem LawfulTable.lawfulMessage {empty : M} {fields : List (Field M)}
    (table : LawfulTable empty fields) : @LawfulMessage M (Message.ofFields empty fields) :=
  letI : Message M := Message.ofFields empty fields
  { payload_selfDelimiting := Message.payloadOf_selfDelimiting fields
    makes_encode := by
      intro later canonical fits
      refine Message.makes_rows table.lawful (fun field member wire => ?_) canonical fits
      show Message.payloadOf fields ⟨field.number, wire⟩ = field.scan wire
      simp only [Message.payloadOf, Message.find?_number table.distinct member]
    overlay_empty := table.complete
    isCanonical_empty := table.isCanonical_empty
    isCanonical_of_edit := by
      intro bytes edit member message canonical
      obtain ⟨rest, found⟩ := Scanner.mem_untilEnd member
      obtain ⟨tag, payload, found⟩ := Scanner.mem_after found
      obtain ⟨field, declared, inner, inside, rfl⟩ := Message.mem_payloadOf found
      have lawful := table.lawful field declared
      exact table.isCanonical_set field declared _ message
        (Kind.isCanonical_of_edit lawful.kind inside (canonical field declared)) canonical
    length_le_of_mem_payloads := by
      intro message payload member
      obtain ⟨field, declared, inside⟩ := List.mem_flatMap.mp member
      have inner : payload.length ≤ (field.encode message).length :=
        Kind.length_le_of_mem_payloads (table.lawful field declared).kind inside
      exact Nat.le_trans inner
        (length_le_length_flatMap (fun field => field.encode message) declared) }

end Protobuf

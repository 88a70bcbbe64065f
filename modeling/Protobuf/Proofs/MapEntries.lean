/-
**Of the members of an entry, and of the entries of a map, the last one counts.**

* `Entry.Holds`: a complete field of an entry and what it holds: a key, a value, or nothing that is looked at;
* `Entry.lastKey`, `Entry.lastValue`: the last of each, or its default;
* `Entry.Sent.reads`: a payload of such fields is read as these two, however they lie in it;
* `Entry.sent_encode`: what is written for an entry is such a payload, and is read back with the default for a
  member that was left out;
* `FooBar.Example1.makes_entries`: fields with entries set the keys of a map in order;
* `FooBar.Example1.encode_amap`: a map is written entry by entry, each of its keys once;
* `Entry.last_wins`: both together.
-/

import Protobuf.Proofs.Packing
import Protobuf.Proofs.UnknownFields
import Protobuf.Proofs.Writing

namespace Protobuf

namespace Entry

variable {key value : ScalarType}

/-! ### The fields of an entry -/

/-- What a field of an entry holds. -/
inductive Member (key value : ScalarType) where
  /-- A key. -/
  | key (content : key.Value)
  /-- A value. -/
  | value (content : value.Value)
  /-- Something else. -/
  | other

/-- The bytes of a complete field of an entry, and what it holds. The framing of a key or of a value is not
looked at. -/
inductive Holds : Bytes → Member key value → Prop where
  /-- A field with a key. -/
  | key {head payload : Bytes} {wire : Nat} {content : key.Value} :
    Tag.read.Reads head ⟨keyNumber, wire⟩ → key.read.Reads payload content →
      Holds (head ++ payload) (.key content)
  /-- A field with a value. -/
  | value {head payload : Bytes} {wire : Nat} {content : value.Value} :
    Tag.read.Reads head ⟨valueNumber, wire⟩ → value.read.Reads payload content →
      Holds (head ++ payload) (.value content)
  /-- Any other complete field. -/
  | other {field : WireField} : field.Complete → field.number ∉ [keyNumber, valueNumber] →
      Holds field.bytes .other

/-- The key that a field holds. -/
def Member.key? : Member key value → Option key.Value
  | .key content => some content
  | _ => none

/-- The value that a field holds. -/
def Member.value? : Member key value → Option value.Value
  | .value content => some content
  | _ => none

/-- The last key of some fields, or the default. -/
def lastKey (members : List (Member key value)) : key.Value :=
  (members.filterMap Member.key?).getLast?.getD key.default

/-- The last value of some fields, or the default. -/
def lastValue (members : List (Member key value)) : value.Value :=
  (members.filterMap Member.value?).getLast?.getD value.default

/-- The bytes of a payload, complete fields in any order, that stand for an entry. -/
inductive Sent : Bytes → key.Value × value.Value → Prop where
  /-- The last key and the last value. -/
  | fields {header : Bytes} {parts : List Bytes} {members : List (Member key value)} :
    Payload.Announces header parts.flatten → List.Forall₂ Holds parts members →
      Sent (header ++ parts.flatten) (lastKey members, lastValue members)

/-- The changes that a field makes to an entry. -/
def Member.edits : Member key value → List (Edit (key.Value × value.Value))
  | .key content => [fun entry => (content, entry.2)]
  | .value content => [fun entry => (entry.1, content)]
  | .other => []

theorem member_key (wire : Nat) : member key value ⟨keyNumber, wire⟩
    = (Scanner.ofReader key.read).map fun read entry => (read, entry.2) :=
  if_pos rfl

theorem member_value (wire : Nat) : member key value ⟨valueNumber, wire⟩
    = (Scanner.ofReader value.read).map fun read entry => (entry.1, read) :=
  (if_neg (show valueNumber ≠ keyNumber by decide)).trans (if_pos rfl)

theorem Holds.reads {part : Bytes} {holding : Member key value} (holds : Holds part holding) :
    (field key value).Reads part holding.edits := by
  cases holds with
  | key tag content =>
    refine .after tag ?_
    rw [member_key]
    exact (Scanner.Reads.ofReader content).map _
  | value tag content =>
    refine .after tag ?_
    rw [member_value]
    exact (Scanner.Reads.ofReader content).map _
  | other complete unknown => exact complete.ignored (member_unknown unknown)

/-- The last of each is what is left. -/
theorem all_edits (members : List (Member key value)) (entry : key.Value × value.Value) :
    Edit.all (members.flatMap Member.edits) entry
      = ((members.filterMap Member.key?).getLast?.getD entry.1,
        (members.filterMap Member.value?).getLast?.getD entry.2) := by
  -- the members in front of the others are the entry that these start from
  induction members generalizing entry with
  | nil => rfl
  | cons member members ih =>
    rw [List.flatMap_cons, Edit.all_append, ih]
    cases member with
    | key content =>
      show _ = ((content :: members.filterMap Member.key?).getLast?.getD entry.1, _)
      rw [List.getLast?_cons]
      rfl
    | value content =>
      show _ = (_, (content :: members.filterMap Member.value?).getLast?.getD entry.2)
      rw [List.getLast?_cons]
      rfl
    | other => rfl

/-- **An entry is read as the last key and the last value of its payload**, and nothing behind it is. -/
theorem Sent.reads {bytes : Bytes} {entry : key.Value × value.Value} (sent : Sent bytes entry) :
    (read key value).Reads bytes entry := by
  cases sent with
  | @fields header parts members announces holds =>
    have edits : List.Forall₂ (field key value).Reads parts (members.map Member.edits) :=
      List.forall₂_map_right_iff.mpr (holds.imp fun _ _ => Holds.reads)
    have found : body key value parts.flatten = ⟨members.flatMap Member.edits, none, []⟩ := by
      have whole := Scanner.untilEnd_flatten (field_consuming key value) edits []
      rw [List.append_nil, Scanner.untilEnd_nil, Scan.prepend, List.append_nil] at whole
      exact whole
    intro more
    simp only [read, Scanner.Reads.within announces.reads (congrArg Scan.fault found) more, found,
      Scan.apply, all_edits]
    rfl

/-! ### Written entries -/

theorem holds_key {content : key.Value}
    (fits : ∀ payload ∈ key.payloads content, payload.length ≤ maxLength) :
    Holds (Scalar.field keyNumber ⟨key, content⟩) (Member.key content : Member key value) :=
  .key (Tag.reads_encode _ (by decide) (by decide)) (key.reads_encode content fits)

theorem holds_value {content : value.Value}
    (fits : ∀ payload ∈ value.payloads content, payload.length ≤ maxLength) :
    Holds (Scalar.field valueNumber ⟨value, content⟩) (Member.value content : Member key value) :=
  .value (Tag.reads_encode _ (by decide) (by decide)) (value.reads_encode content fits)

/-- **What is written for an entry is sent**, with either member or without. -/
theorem sent_encode {first : Option key.Value} {second : Option value.Value}
    (fits : (encode (first.map (Scalar.mk key)) (second.map (Scalar.mk value))).length ≤ maxLength) :
    Sent (Payload.encode (encode (first.map (Scalar.mk key)) (second.map (Scalar.mk value))))
      (first.getD key.default, second.getD value.default) := by
  let parts : List Bytes := (first.map fun content => Scalar.field keyNumber ⟨key, content⟩).toList ++
    (second.map fun content => Scalar.field valueNumber ⟨value, content⟩).toList
  let members : List (Member key value) := (first.map .key).toList ++ (second.map .value).toList
  have bytes : parts.flatten = encode (first.map (Scalar.mk key)) (second.map (Scalar.mk value)) := by
    cases first <;> cases second <;> simp [parts, encode]
  have last : (lastKey members, lastValue members)
      = (first.getD key.default, second.getD value.default) := by
    cases first <;> cases second <;> rfl
  have announced := Payload.announces_encode fits
  rw [encode, List.length_append] at fits
  have holds : List.Forall₂ Holds parts members := by
    refine List.rel_append ?_ ?_
    · cases first with
      | none => exact .nil
      | some content =>
        refine .cons (holds_key fun payload member => ?_) .nil
        exact Nat.le_trans (Scalar.length_le_of_mem_payloads member) (Nat.le_of_add_right_le fits)
    · cases second with
      | none => exact .nil
      | some content =>
        refine .cons (holds_value fun payload member => ?_) .nil
        exact Nat.le_trans (Scalar.length_le_of_mem_payloads member) (Nat.le_of_add_left_le fits)
  rw [← last, Payload.encode, ← bytes]
  exact .fields (bytes ▸ announced) holds

/-- The bytes of a field with this number, its framing being any, that stand for an entry. -/
inductive Carried (key value : ScalarType) (number : Nat) :
    Bytes → key.Value × value.Value → Prop where
  /-- A tag, and a payload. -/
  | field {head body : Bytes} {wire : Nat} {entry : key.Value × value.Value} :
    Tag.read.Reads head ⟨number, wire⟩ → Sent body entry →
      Carried key value number (head ++ body) entry

theorem Carried.reads {number : Nat} {bytes : Bytes} {entry : key.Value × value.Value}
    (carried : Carried key value number bytes entry) :
    ∃ head wire body, bytes = head ++ body ∧ Tag.read.Reads head ⟨number, wire⟩ ∧
      (read key value).Reads body entry := by
  cases carried with
  | field tag sent => exact ⟨_, _, _, rfl, tag, sent.reads⟩

end Entry

/-! ### The map of a message -/

namespace FooBar.Example1

/-- **Fields with entries set the keys of the map in order**, and nothing else. -/
theorem makes_entries {chunks : List Bytes} {entries : List (String × String)}
    (carried : List.Forall₂ (Entry.Carried .string .string 24) chunks entries) :
    Message.Makes (M := Example1) chunks.flatten
      fun message => { message with amap := TextMap.insertAll entries message.amap } := by
  have row := List.getElem_mem (l := fields) (n := 23) (by decide)
  induction carried with
  | nil => exact .nil
  | @cons chunk entry _ _ one _ ih =>
    obtain ⟨head, wire, body, rfl, tag, read⟩ := one.reads
    have reads : (Message.field Example1).Reads (head ++ body) [fun message : Example1 =>
        { message with amap := message.amap.insert entry.1 entry.2 }] := by
      have scan : (Message.payload ⟨24, wire⟩ : Scanner (Edit Example1)) = fields[23].scan wire :=
        Message.payloadOf_row lawfulTable.distinct row wire
      refine .after tag ?_
      rw [scan]
      exact ((Scanner.Reads.ofReader read).map _).map _
    exact (Message.makes_of_field reads).append ih

theorem decode_entries {chunks : List Bytes} {entries : List (String × String)}
    (carried : List.Forall₂ (Entry.Carried .string .string 24) chunks entries) :
    Message.decode chunks.flatten = .ok ({ amap := .ofList entries } : Example1) :=
  (makes_entries carried).decode_eq

/-- The field that is written for an entry. -/
def entryField (entry : String × String) : Bytes :=
  Tag.encode 24 .lengthDelimited ++
    Payload.encode (Entry.encode (some ⟨.string, entry.1⟩) (some ⟨.string, entry.2⟩))

/-- **A message with a map alone is written entry by entry.** -/
theorem encode_amap (map : TextMap) :
    Message.encode ({ amap := map } : Example1) = map.entries.flatMap entryField := by
  have row : (fun entry : String × String => Tag.encode 24 .lengthDelimited ++
      Payload.encode (Entry.encode (some ⟨.string, entry.1⟩) (some ⟨.string, entry.2⟩)))
      = entryField := rfl
  simp [Message.encode, fields, Field.encode, Kind.encode, ScalarType.default, ScalarType.wireType,
    Repeated.packed, Repeated.unpacked, OpenEnum.number, row]

end FooBar.Example1

/-! ### Both levels -/

theorem Decoder.read_of_reads {α : Type} {reader : Reader α} {taken : Bytes} {value : α}
    (reads : reader.Reads taken value) (span more : Bytes) :
    (⟨span, taken ++ more⟩ : Decoder).read reader = (.ok value, ⟨span, more⟩) := by
  simp only [Decoder.read, reads more]

/-- **The last one wins, at both levels.** A payload of complete fields is read as the last key and the last
value in it, the default standing in for none, and the cursor is left behind it. So an entry that was written
is read back, with either member left out. Fields with entries of strings set each key to the value of its
last entry. Such a map is written with each of its keys once, by the order of their bytes, so that what is
written depends on the last entries alone. -/
theorem Entry.last_wins :
    (∀ (key value : ScalarType) (header : Bytes) (parts : List Bytes)
      (members : List (Member key value)),
      Payload.Announces header parts.flatten → List.Forall₂ Holds parts members →
      ∀ span more : Bytes,
        (⟨span, header ++ parts.flatten ++ more⟩ : Decoder).read (read key value)
          = (.ok (lastKey members, lastValue members), ⟨span, more⟩)) ∧
    (∀ (key value : ScalarType) (first : Option key.Value) (second : Option value.Value)
      (number : Nat) (encoder : Encoder), 1 ≤ number → number ≤ maxFieldNumber →
      (encode (first.map (Scalar.mk key)) (second.map (Scalar.mk value))).length ≤ maxLength →
      ∃ body left, Encoder.perform (.entry number (first.map (Scalar.mk key))
          (second.map (Scalar.mk value))) encoder = .ok () left ∧
        left.bytes = encoder.bytes ++ (Tag.encode number .lengthDelimited ++ body) ∧
        ∀ span more : Bytes, (⟨span, body ++ more⟩ : Decoder).read (read key value)
          = (.ok (first.getD key.default, second.getD value.default), ⟨span, more⟩)) ∧
    (∀ (chunks : List Bytes) (entries : List (String × String)),
      List.Forall₂ (Carried .string .string 24) chunks entries →
      ∃ message : FooBar.Example1, Message.decode chunks.flatten = .ok message ∧
        (∀ key, message.amap.get? key = entries.reverse.lookup key) ∧
        (∃ sorted : List (String × String),
          Message.encode message = sorted.flatMap FooBar.Example1.entryField ∧
          sorted.Pairwise (fun one other => Utf8.encode one.1 < Utf8.encode other.1) ∧
          ∀ key value, (key, value) ∈ sorted ↔ entries.reverse.lookup key = some value) ∧
        ∀ (others : List Bytes) (settings : List (String × String)),
          List.Forall₂ (Carried .string .string 24) others settings →
          (∀ key, settings.reverse.lookup key = entries.reverse.lookup key) →
          ∃ other : FooBar.Example1, Message.decode others.flatten = .ok other ∧
            Message.encode other = Message.encode message) := by
  refine ⟨fun key value header parts members announces holds =>
    Decoder.read_of_reads (Sent.fields announces holds).reads, ?_, ?_⟩
  · intro key value first second number encoder least most fits
    obtain ⟨left, performed, bytes⟩ := Writer.entry_builds least most fits encoder
    exact ⟨_, left, performed, bytes, Decoder.read_of_reads (sent_encode fits).reads⟩
  · intro chunks entries carried
    have found (key : String) : (TextMap.ofList entries).get? key = entries.reverse.lookup key :=
      TextMap.get?_ofList entries key
    refine ⟨_, FooBar.Example1.decode_entries carried, found,
      ⟨_, FooBar.Example1.encode_amap _, (TextMap.ofList entries).increasing, fun key value => ?_⟩,
      fun others settings carried' same => ⟨_, FooBar.Example1.decode_entries carried', ?_⟩⟩
    · rw [TextMap.mem_entries, found]
    · have equal : TextMap.ofList settings = TextMap.ofList entries :=
        TextMap.ext_get? fun key => by rw [TextMap.get?_ofList, same, found]
      rw [equal]

/-- A value in front of two keys, with an undeclared field between them; and a key that is given again without
a value. -/
theorem Entry.last_wins_repeated :
    (⟨[], [0x0E, 0x10, 0x01, 0x0A, 0x01, 0x61, 0xB8, 0x82, 0x00, 0x85, 0x00, 0x0A, 0x02, 0x62, 0x63,
        0xFF]⟩ : Decoder).read (read .string .bool) = (.ok ("bc", true), ⟨[], [0xFF]⟩) ∧
      ∃ message : FooBar.Example1, Message.decode [0xC2, 0x01, 0x06, 0x0A, 0x01, 0x61, 0x12, 0x01, 0x31,
          0xC2, 0x01, 0x03, 0x0A, 0x01, 0x61] = .ok message ∧ message.amap.get? "a" = some "" := by
  have text (content : String) (bytes : Bytes) (same : ScalarType.encode .string content = bytes)
      (short : (Utf8.encode content).length ≤ maxLength) :
      (ScalarType.read .string).Reads bytes content :=
    same ▸ ScalarType.reads_encode .string content (List.forall_mem_singleton.mpr short)
  have a := text "a" [0x01, 0x61] (by decide +kernel) (by decide +kernel)
  have one := text "1" [0x01, 0x31] (by decide +kernel) (by decide +kernel)
  have bc := text "bc" [0x02, 0x62, 0x63] (by decide +kernel) (by decide +kernel)
  have yes : (ScalarType.read .bool).Reads [0x01] true := fun _ => rfl
  have keyTag : Tag.read.Reads [0x0A] ⟨1, 2⟩ := fun _ => rfl
  have flagTag : Tag.read.Reads [0x10] ⟨2, 0⟩ := fun _ => rfl
  have textTag : Tag.read.Reads [0x12] ⟨2, 2⟩ := fun _ => rfl
  have mapTag : Tag.read.Reads [0xC2, 0x01] ⟨24, 2⟩ := fun _ => rfl
  have undeclared : WireField.overlong.Complete :=
    ⟨by decide, by decide, .varint, rfl, ⟨rfl, by decide, by decide⟩, ⟨5, rfl, by decide, by decide⟩⟩
  obtain ⟨entry, -, map⟩ := Entry.last_wins
  constructor
  · exact entry .string .bool [0x0E] _ _ ⟨fun _ => rfl, by decide⟩
      (.cons (.value flagTag yes) (.cons (.key keyTag a) (.cons (.other undeclared (by decide))
        (.cons (.key keyTag bc) .nil)))) [] [0xFF]
  · have first : Carried .string .string 24 _ ("a", "1") := .field mapTag
      (@Sent.fields .string .string [0x06] _ _ ⟨fun _ => rfl, by decide⟩
        (.cons (.key keyTag a) (.cons (.value textTag one) .nil)))
    have second : Carried .string .string 24 _ ("a", "") := .field mapTag
      (@Sent.fields .string .string [0x03] _ _ ⟨fun _ => rfl, by decide⟩ (.cons (.key keyTag a) .nil))
    obtain ⟨message, decoded, found, -⟩ := map _ _ (.cons first (.cons second .nil))
    exact ⟨message, decoded, found "a"⟩

end Protobuf

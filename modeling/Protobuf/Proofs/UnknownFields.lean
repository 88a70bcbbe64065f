/-
**Unknown fields are invisible.**

A field that no row knows is skipped, which makes no edit and stops at its end. So it may be inserted
wherever a field begins, at the top and within what a field holds.

* `Scanner.untilEnd_insert`: in a loop, what gives no item may stand between what is read to its end
  and anything;
* `Scanner.within_insert`: likewise in a loop within a payload, whose length is then another one;
* `Kind.Nests`: a member that holds fields and skips all but some numbers;
* `WireField.Complete.invisible`: a complete field is invisible where its number is unknown: at the top
  of every message type, and within the embedded messages and the map entries of the example.
-/

import Protobuf.Proofs.Concatenation
import Protobuf.Proofs.Overlay
import Protobuf.Proofs.Skipping
import Protobuf.Proofs.Spelling

namespace Protobuf

variable {α : Type}

/-! ### Insertion into a loop -/

namespace Scanner

variable {scanner : Scanner α} {consuming : scanner.Consuming} {before unknown : Bytes}

/-- **What gives no item is invisible to a loop.** -/
theorem untilEnd_insert (delimited : scanner.SelfDelimiting)
    (ended : (untilEnd scanner consuming before).fault = none) (ignored : scanner.Reads unknown [])
    (after : Bytes) :
    untilEnd scanner consuming (before ++ unknown ++ after)
      = untilEnd scanner consuming (before ++ after) := by
  rw [List.append_assoc, untilEnd_append delimited ended, untilEnd_append delimited ended,
    untilEnd_of_reads consuming ignored]
  rfl

/-- A loop whose first round is the same goes the same way. -/
theorem untilEnd_congr {one other : Bytes} (begun : one ≠ []) (started : other ≠ [])
    (same : scanner one = scanner other) :
    untilEnd scanner consuming one = untilEnd scanner consuming other := by
  cases stopped : (scanner other).fault with
  | none =>
    rw [untilEnd_of_items consuming begun (by rw [same, stopped]),
      untilEnd_of_items consuming started stopped, same]
  | some fault =>
    rw [untilEnd_of_fault consuming begun (by rw [same, stopped]),
      untilEnd_of_fault consuming started stopped, same]

/-- **Nor is it seen within a payload**, the length of which is adjusted. -/
theorem within_insert (delimited : scanner.SelfDelimiting)
    (ended : (untilEnd scanner consuming before).fault = none) (ignored : scanner.Reads unknown [])
    {after length longer : Bytes} (spells : Varint.Spells length (before ++ after).length)
    (respelled : Varint.Spells longer (before ++ unknown ++ after).length)
    (fits : (before ++ unknown ++ after).length ≤ maxLength) (more : Bytes) :
    within (untilEnd scanner consuming) (longer ++ (before ++ unknown ++ after) ++ more)
      = within (untilEnd scanner consuming) (length ++ (before ++ after) ++ more) := by
  have shorter : (before ++ after).length ≤ maxLength := by
    simp only [List.length_append] at fits ⊢
    omega
  simp only [within, Payload.reads_spelled respelled fits more,
    Payload.reads_spelled spells shorter more, untilEnd_insert delimited ended ignored]

end Scanner

/-! ### Fields without a row -/

theorem Message.payloadOf_unknown {M : Type} {fields : List (Field M)} {tag : Tag}
    (unknown : tag.number ∉ fields.map Field.number) :
    payloadOf fields tag = Scanner.silent (Payload.skip tag.wire) := by
  have nowhere : fields.find? (fun field => field.number == tag.number) = none := by
    rw [List.find?_eq_none]
    intro field member same
    exact unknown (List.mem_map.mpr ⟨field, member, beq_iff_eq.mp same⟩)
  simp only [payloadOf, nowhere]

theorem MessageType.payload_eq (type : MessageType) (tag : Tag) :
    (Message.payload tag : Scanner (Edit type.Value)) = Message.payloadOf type.fields tag := by
  cases type <;> rfl

namespace WireField

variable {field : WireField}

/-- A field that is skipped gives no item. -/
theorem Complete.ignored (complete : field.Complete) {next : Tag → Scanner α}
    (skipped : next field.tag = Scanner.silent (Payload.skip field.tag.wire)) :
    (Scanner.after Tag.read next).Reads field.bytes [] := by
  refine .after complete.reads ?_
  rw [skipped]
  exact .silent complete.skips

theorem Complete.ignored_type (complete : field.Complete) {type : MessageType}
    (unknown : field.number ∉ type.fields.map Field.number) :
    (Message.field type.Value).Reads field.bytes [] :=
  complete.ignored (by rw [type.payload_eq, Message.payloadOf_unknown unknown])

/-- So it is invisible at the top of a message. -/
theorem Complete.scan_insert (complete : field.Complete) {type : MessageType}
    (unknown : field.number ∉ type.fields.map Field.number) {before : Bytes}
    (ended : (Message.scan type.Value before).fault = none) (after : Bytes) :
    Message.scan type.Value (before ++ field.bytes ++ after)
      = Message.scan type.Value (before ++ after) :=
  Scanner.untilEnd_insert (Message.field_selfDelimiting type.Value) ended
    (complete.ignored_type unknown) after

end WireField

/-! ### Members that hold fields -/

theorem Entry.field_selfDelimiting (key value : ScalarType) :
    (Entry.field key value).SelfDelimiting := by
  refine .after Tag.read_selfDelimiting fun tag => ?_
  unfold Entry.member
  split
  · exact (Scanner.SelfDelimiting.ofReader key.read_selfDelimiting).map _
  · split
    · exact (Scanner.SelfDelimiting.ofReader value.read_selfDelimiting).map _
    · exact .silent (Payload.skip_selfDelimiting tag.wire)

/-- An entry knows the number of its key and that of its value. -/
theorem Entry.member_unknown {key value : ScalarType} {tag : Tag} (unknown : tag.number ∉ [1, 2]) :
    Entry.member key value tag = Scanner.silent (Payload.skip tag.wire) := by
  simp only [List.mem_cons, List.not_mem_nil, or_false, not_or] at unknown
  rw [Entry.member, if_neg (show tag.number ≠ keyNumber from unknown.1),
    if_neg (show tag.number ≠ valueNumber from unknown.2)]

namespace Kind

/-- Whether a member holds fields, and skips all numbers but these. -/
def Nests : {V : Type} → Kind V → (known : List Nat) → Prop
  | _, embedded N, known => Message.Delimited N ∧ ∀ tag : Tag, tag.number ∉ known →
      (Message.payload tag : Scanner (Edit N)) = Scanner.silent (Payload.skip tag.wire)
  | _, textMap, known => known = [1, 2]
  | _, _, _ => False

/-- **Within a member that holds fields an unknown one is invisible.** -/
theorem Nests.scan_insert {V : Type} {kind : Kind V} {known : List Nat} (nests : kind.Nests known)
    {field : WireField} (complete : field.Complete) (unknown : field.number ∉ known)
    {before after length longer : Bytes} (accepted : kind.Accepts before)
    (spells : Varint.Spells length (before ++ after).length)
    (respelled : Varint.Spells longer (before ++ field.bytes ++ after).length)
    (fits : (before ++ field.bytes ++ after).length ≤ maxLength) (wire other : Nat) (more : Bytes) :
    kind.scan wire (longer ++ (before ++ field.bytes ++ after) ++ more)
      = kind.scan other (length ++ (before ++ after) ++ more) := by
  cases kind with
  | embedded N =>
    obtain ⟨_, skips⟩ := nests
    have ended : (Message.scan N before).fault = none := Message.decode_isOk.mp accepted
    have same := Scanner.within_insert (Message.field_selfDelimiting N) ended
      (complete.ignored (skips field.tag unknown)) spells respelled fits more
    simp only [scan]
    unfold Message.scan
    rw [same]
  | textMap =>
    cases nests
    have shorter : before.length ≤ maxLength := by
      simp only [List.length_append] at fits
      omega
    have ended : (Entry.body .string .string before).fault = none :=
      (Entry.read_encode_isOk .string .string shorter).mp accepted
    have same := Scanner.within_insert (Entry.field_selfDelimiting .string .string) ended
      (complete.ignored (Entry.member_unknown unknown)) spells respelled fits more
    simp only [scan, Scanner.map, Scanner.ofReader, Entry.read]
    unfold Entry.body
    rw [same]
  | singular => exact nests.elim
  | enumeration => exact nests.elim
  | «repeated» => exact nests.elim
  | alternative => exact nests.elim

end Kind

namespace Message

variable {M : Type} [Message M]

/-- **So it is in a message with such a member**, wherever the field with the member begins. -/
theorem merge_insert [Delimited M] {row : Field M} {known : List Nat} (nests : row.kind.Nests known)
    (declared : ∀ wire, payload ⟨row.number, wire⟩ = row.scan wire)
    (least : 1 ≤ row.number) (most : row.number ≤ maxFieldNumber)
    {field : WireField} (complete : field.Complete) (unknown : field.number ∉ known)
    {before after one other : Bytes} (accepted : row.kind.Accepts before)
    (framed : Payload.Framed row.number (before ++ after) one)
    (reframed : Payload.Framed row.number (before ++ field.bytes ++ after) other)
    (fits : (before ++ field.bytes ++ after).length ≤ maxLength)
    {front : Bytes} {target : M} (read : (merge front target).fault = none) (back : Bytes) :
    merge (front ++ other ++ back) target = merge (front ++ one ++ back) target := by
  obtain ⟨wire, head, length, bits, tag, spells, rfl⟩ := framed
  obtain ⟨wider, heading, longer, wide, retag, respelled, rfl⟩ := reframed
  have begun {head : Bytes} {n : Nat} (spells : Varint.Spells head n) (rest : Bytes) :
      head ++ rest ≠ [] := by
    intro nothing
    rw [(List.append_eq_nil_iff.mp nothing).1] at spells
    cases spells.digits
  have first : Message.field M (heading ++ (longer ++ (before ++ field.bytes ++ after) ++ back))
      = Message.field M (head ++ (length ++ (before ++ after) ++ back)) := by
    simp only [Message.field, Scanner.after, Tag.reads_spelled wide least most retag _,
      Tag.reads_spelled bits least most tag _, declared, Field.scan, Scanner.map,
      nests.scan_insert complete unknown accepted spells respelled fits wider wire back]
  have same : scan M (heading ++ (longer ++ (before ++ field.bytes ++ after) ++ back))
      = scan M (head ++ (length ++ (before ++ after) ++ back)) :=
    Scanner.untilEnd_congr (begun retag _) (begun tag _) first
  rw [List.append_assoc front, List.append_assoc front, makes_of_complete read, makes_of_complete read,
    List.append_assoc heading, List.append_assoc head]
  simp only [merge, same]

theorem payloadOf_row {M : Type} {fields : List (Field M)}
    (distinct : (fields.map Field.number).Nodup) {row : Field M} (member : row ∈ fields) (wire : Nat) :
    payloadOf fields ⟨row.number, wire⟩ = row.scan wire := by
  simp only [payloadOf, find?_number distinct member]

end Message

/-! ### Every message type, and what the example holds -/

namespace FooBar.Example1

/-- The numbers that are known within a member that holds fields: those of the embedded messages, and
the two of an entry. -/
def innerNumbers : (number : Nat) → List Nat
  | 21 | 22 | 23 => [1]
  | 24 => [1, 2]
  | _ => []

theorem nests : ∀ row ∈ fields, row.number ∈ [21, 22, 23, 24] →
    row.kind.Nests (innerNumbers row.number) := by
  simp only [fields, List.forall_mem_cons, List.not_mem_nil, false_implies, implies_true, and_true]
  repeat' apply And.intro
  all_goals intro nested
  all_goals first
    | exact absurd nested (by decide)
    | exact ⟨MessageType.delimited .example1Example2, fun _ fresh => Message.payloadOf_unknown fresh⟩
    | exact ⟨MessageType.delimited .example2, fun _ fresh => Message.payloadOf_unknown fresh⟩
    | exact ⟨MessageType.delimited .fizBazExample2, fun _ fresh => Message.payloadOf_unknown fresh⟩
    | rfl

end FooBar.Example1

/-- **A complete field is invisible where its number is unknown.** Behind bytes that are read to their
end it changes neither the message nor the fault, whatever follows: at the top of every message type,
and within the embedded messages and the map entries of the example, whose length is then another. -/
theorem WireField.Complete.invisible {unknown : WireField} (complete : unknown.Complete) :
    (∀ (type : MessageType) (target : type.Value) (before after : Bytes),
      unknown.number ∉ type.fields.map Field.number →
      (Message.merge before target).fault = none →
      Message.merge (before ++ unknown.bytes ++ after) target
        = Message.merge (before ++ after) target) ∧
    (∀ row ∈ FooBar.Example1.fields, row.number ∈ [21, 22, 23, 24] →
      unknown.number ∉ FooBar.Example1.innerNumbers row.number →
      ∀ before after one other : Bytes, row.kind.Accepts before →
      Payload.Framed row.number (before ++ after) one →
      Payload.Framed row.number (before ++ unknown.bytes ++ after) other →
      (before ++ unknown.bytes ++ after).length ≤ maxLength →
      ∀ (target : FooBar.Example1) (front back : Bytes), (Message.merge front target).fault = none →
      Message.merge (front ++ other ++ back) target = Message.merge (front ++ one ++ back) target) := by
  constructor
  · intro type target before after fresh read
    simp only [Message.merge, complete.scan_insert fresh read after]
  · intro row member nested fresh before after one other accepted framed reframed fits target front
      back read
    have : Message.Delimited FooBar.Example1 := MessageType.delimited .example1
    have lawful := FooBar.Example1.lawfulTable.lawful row member
    exact Message.merge_insert (FooBar.Example1.nests row member nested)
      (Message.payloadOf_row FooBar.Example1.lawfulTable.distinct member) lawful.least lawful.most
      complete fresh accepted framed reframed fits read back

/-- An integer under a number that is used nowhere, its tag and its value being longer than need be. -/
def WireField.overlong : WireField := ⟨[0xB8, 0x82, 0x00], ⟨39, 0⟩, [0x85, 0x00]⟩

/-- It is invisible in front of a field that is cut, and between the key and the value of an entry. -/
theorem WireField.Complete.invisible_overlong :
    WireField.overlong.Complete ∧
    Message.merge (M := MessageType.example2.Value)
      ([0x08, 0x05] ++ WireField.overlong.bytes ++ [0x08, 0x85]) {}
        = Message.merge ([0x08, 0x05] ++ [0x08, 0x85]) {} ∧
    Message.merge (M := FooBar.Example1)
      ([0x18, 0x07] ++ [0xC2, 0x01, 0x8B, 0x00, 0x0A, 0x01, 0x6B, 0xB8, 0x82, 0x00, 0x85, 0x00, 0x12,
        0x01, 0x76] ++ [0x68, 0x01]) {}
      = Message.merge ([0x18, 0x07] ++ [0xC2, 0x01, 0x06, 0x0A, 0x01, 0x6B, 0x12, 0x01, 0x76]
        ++ [0x68, 0x01]) {} := by
  have complete : WireField.overlong.Complete :=
    ⟨by decide, by decide, .varint, rfl, ⟨rfl, by decide, by decide⟩,
      ⟨5, rfl, by decide, by decide⟩⟩
  have accepted : (Kind.textMap).Accepts [0x0A, 0x01, 0x6B] :=
    (Entry.read_encode_isOk .string .string (by decide)).mpr (by decide +kernel)
  have framed : Payload.Framed 24 ([0x0A, 0x01, 0x6B] ++ [0x12, 0x01, 0x76])
      [0xC2, 0x01, 0x06, 0x0A, 0x01, 0x6B, 0x12, 0x01, 0x76] :=
    ⟨2, [0xC2, 0x01], [0x06], by decide, ⟨rfl, by decide, by decide⟩, ⟨rfl, by decide, by decide⟩, rfl⟩
  have reframed : Payload.Framed 24
      ([0x0A, 0x01, 0x6B] ++ WireField.overlong.bytes ++ [0x12, 0x01, 0x76])
      [0xC2, 0x01, 0x8B, 0x00, 0x0A, 0x01, 0x6B, 0xB8, 0x82, 0x00, 0x85, 0x00, 0x12, 0x01, 0x76] :=
    ⟨2, [0xC2, 0x01], [0x8B, 0x00], by decide, ⟨rfl, by decide, by decide⟩,
      ⟨rfl, by decide, by decide⟩, rfl⟩
  refine ⟨complete, ?_, ?_⟩
  · exact (WireField.Complete.invisible complete).1 .example2 {} [0x08, 0x05] [0x08, 0x85] (by decide)
      (by decide +kernel)
  · exact (WireField.Complete.invisible complete).2 FooBar.Example1.fields[23] (List.getElem_mem _)
      (by decide) (by decide) [0x0A, 0x01, 0x6B] [0x12, 0x01, 0x76] _ _ accepted framed reframed
      (by decide) {} [0x18, 0x07] [0x68, 0x01] (by decide +kernel)

end Protobuf

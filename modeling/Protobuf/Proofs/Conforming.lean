/-
**Reading and skipping agree on conforming bytes.**

Where every field is framed as the table of a message type says, the message is decoded exactly if its
fields can be skipped and their payloads are accepted, and then the fields lie where skipping them
puts them.

* `Message.payloadOf_skips`: one field, whether a row declares it or not;
* `Message.located_agrees`: all fields. Skipping and reading go through the bytes in step: the walk of
  what is left meets the tags that are left, and an extent is told by how much is left;
* `Message.decode_eq_ok`: a message is made by the edits of its fields, each with its extent;
* `Example1.decode_iff_walk`: for `foo.bar.example1`, with the accepted payloads spelled out.
-/

import Protobuf.Proofs.Overlay
import Protobuf.Proofs.Skipping

namespace Protobuf

/-! ### One field -/

theorem Message.payloadOf_skips {M : Type} {fields : List (Field M)}
    (distinct : (fields.map Field.number).Nodup) {tag : Tag}
    (declared : ∀ field ∈ fields, field.number = tag.number → field.kind.Declares tag.wire) :
    (payloadOf fields tag).Skips tag.wire fun payload =>
      ∀ field ∈ fields, field.number = tag.number → field.kind.Accepts payload := by
  unfold payloadOf
  split
  · next field found =>
    have member : field ∈ fields := List.mem_of_find?_eq_some found
    have number : field.number = tag.number := by simpa using List.find?_some found
    refine ((Kind.scan_skips (declared field member number)).map _).congr fun _ payload _ => ?_
    constructor
    · intro accepted other present same
      have twice := find?_number distinct present
      rw [same, found] at twice
      cases twice
      exact accepted
    · exact fun accepted => accepted field member number
  · next absent =>
    refine (Scanner.silent_skips tag.wire).congr fun _ payload _ => ?_
    have undeclared : ∀ field ∈ fields, field.number ≠ tag.number := by simpa using absent
    exact iff_of_true trivial fun field member number => absurd number (undeclared field member)

/-! ### Extents -/

namespace Extent

/-- The extents of the fields that are left of a span of so many bytes. -/
def walkFrom (total : Nat) : Scanner Extent :=
  Scanner.untilEnd (Scanner.ofReader (read total))
    (Scanner.ofReader_consuming (read_consuming total))

theorem read_eq_ok {total : Nat} {bytes rest : Bytes} {extent : Extent} :
    read total bytes = .ok extent rest ↔
      ∃ tag body, Tag.read bytes = .ok tag body ∧ Payload.skip tag.wire body = .ok () rest ∧
        extent = ⟨total - bytes.length, tag, body.length - rest.length⟩ := by
  simp only [read, Reader.bind_eq_ok, Reader.get_eq_ok, Reader.pure_eq_ok]
  constructor
  · rintro ⟨_, _, ⟨rfl, rfl⟩, tag, body, head, _, _, ⟨rfl, rfl⟩, _, _, skipped, _, _, ⟨rfl, rfl⟩,
      rfl, rfl⟩
    exact ⟨tag, _, head, skipped, rfl⟩
  · rintro ⟨tag, body, head, skipped, rfl⟩
    exact ⟨_, _, ⟨rfl, rfl⟩, tag, body, head, _, _, ⟨rfl, rfl⟩, (), rest, skipped, _, _,
      ⟨rfl, rfl⟩, rfl, rfl⟩

theorem ne_nil_of_tag {bytes body : Bytes} {tag : Tag} (head : Tag.read bytes = .ok tag body) :
    bytes ≠ [] := by
  rintro rfl
  exact Nat.not_lt_zero _ (Tag.read_consuming head)

theorem meet_eq {bytes body : Bytes} {tag : Tag} (head : Tag.read bytes = .ok tag body) :
    meet bytes = (Scanner.silent (Payload.skip tag.wire) body).prepend [tag] := by
  simp only [meet, Scanner.after, head]

theorem tags_eq {bytes body rest : Bytes} {tag : Tag} (head : Tag.read bytes = .ok tag body)
    (skipped : Payload.skip tag.wire body = .ok () rest) : tags bytes = tag :: tags rest := by
  have met : meet bytes = ⟨[tag], none, rest⟩ := by
    rw [meet_eq head]
    simp only [Scanner.silent, skipped, Scan.prepend, List.append_nil]
  rw [tags, Scanner.untilEnd_of_items meet_consuming (ne_nil_of_tag head) (by rw [met]), met]
  rfl

/-- A tag is met before its payload is skipped. -/
theorem tag_mem_tags {bytes body : Bytes} {tag : Tag} (head : Tag.read bytes = .ok tag body) :
    tag ∈ tags bytes := by
  cases skipped : Payload.skip tag.wire body with
  | ok value rest =>
    rw [tags_eq head skipped]
    exact List.mem_cons_self
  | error fault rest =>
    have met : meet bytes = ⟨[tag], some fault, rest⟩ := by
      rw [meet_eq head]
      simp only [Scanner.silent, skipped, Scan.prepend, List.append_nil]
    rw [tags, Scanner.untilEnd_of_fault meet_consuming (ne_nil_of_tag head) (by rw [met]), met]
    exact List.mem_cons_self

theorem suffix_of_read {total : Nat} {bytes rest : Bytes} {extent : Extent}
    (taken : read total bytes = .ok extent rest) : rest <:+ bytes := by
  obtain ⟨tag, body, head, skipped, -⟩ := read_eq_ok.mp taken
  obtain ⟨first, rfl, -⟩ := Tag.read_selfDelimiting head
  obtain ⟨second, rfl, -⟩ := Payload.skip_selfDelimiting tag.wire skipped
  exact (List.suffix_append second rest).trans (List.suffix_append first _)

/-- The payload of the first field that is left. -/
theorem payload?_eq {raw bytes body : Bytes} {tag : Tag} (left : bytes <:+ raw)
    (head : Tag.read bytes = .ok tag body) (size : Nat) :
    payload? raw ⟨raw.length - bytes.length, tag, size⟩ = Payload.delimited? tag.wire body := by
  rw [payload?, ← List.suffix_iff_eq_drop.mp left, head]

end Extent

/-! ### All fields -/

namespace Message

variable {M : Type} [Message M]

/-- The fields that are left of a span of so many bytes. -/
def locatedFrom (M : Type) [Message M] (total : Nat) : Scanner (Extent × List (Edit M)) :=
  Scanner.untilEnd (Scanner.ofReader (locate M total))
    (Scanner.ofReader_consuming (locate_consuming total))

theorem locate_eq_ok {total : Nat} {bytes rest : Bytes} {extent : Extent} {edits : List (Edit M)} :
    locate M total bytes = .ok (extent, edits) rest ↔
      ∃ tag body, Tag.read bytes = .ok tag body ∧
        (payload tag : Scanner (Edit M)) body = ⟨edits, none, rest⟩ ∧
        extent = ⟨total - bytes.length, tag, body.length - rest.length⟩ := by
  simp only [locate, Reader.bind_eq_ok, Reader.get_eq_ok, Reader.pure_eq_ok,
    Scanner.collect_eq_ok]
  constructor
  · rintro ⟨_, _, ⟨rfl, rfl⟩, tag, body, head, _, _, ⟨rfl, rfl⟩, _, _, found, _, _, ⟨rfl, rfl⟩,
      same, rfl⟩
    cases same
    exact ⟨tag, _, head, found, rfl⟩
  · rintro ⟨tag, body, head, found, rfl⟩
    exact ⟨_, _, ⟨rfl, rfl⟩, tag, body, head, _, _, ⟨rfl, rfl⟩, edits, rest, found, _, _,
      ⟨rfl, rfl⟩, rfl, rfl⟩

theorem field_of_locate {total : Nat} {bytes rest : Bytes} {item : Extent × List (Edit M)}
    (taken : locate M total bytes = .ok item rest) : field M bytes = ⟨item.2, none, rest⟩ := by
  obtain ⟨tag, body, head, found, -⟩ := locate_eq_ok.mp taken
  simp only [field, Scanner.after, head, found]

theorem field_fault_of_locate {total : Nat} {bytes rest : Bytes} {fault : Fault}
    (failed : locate M total bytes = .error fault rest) : (field M bytes).fault = some fault := by
  have unmoved : (EStateM.get : Reader Bytes) = fun bytes => .ok bytes bytes := rfl
  simp only [locate, bind, EStateM.bind, get, getThe, MonadStateOf.get, unmoved] at failed
  unfold field Scanner.after
  cases head : Tag.read bytes with
  | error other unread =>
    rw [head] at failed
    cases failed
    rfl
  | ok tag body =>
    rw [head] at failed
    simp only [Scanner.collect] at failed ⊢
    cases found : (payload tag body : Scan (Edit M)).fault with
    | none =>
      simp only [found] at failed
      cases failed
    | some other =>
      simp only [found] at failed
      cases failed
      rfl

/-- The fields with their extents are the fields that are read, one by one. -/
theorem scan_locatedFrom (total : Nat) (bytes : Bytes) :
    (scan M bytes).fault = (locatedFrom M total bytes).fault ∧
      ((scan M bytes).fault = none →
        (scan M bytes).items = (locatedFrom M total bytes).items.flatMap Prod.snd) := by
  unfold scan locatedFrom
  fun_induction Scanner.untilEnd (field M) (field_consuming M) bytes with
  | case1 => simp [Scanner.untilEnd_nil]
  | case2 bytes more first continues ih =>
    cases taken : locate M total bytes with
    | error fault rest =>
      have stopped := field_fault_of_locate taken
      rw [continues] at stopped
      cases stopped
    | ok item rest =>
      have found : first = ⟨item.2, none, rest⟩ := field_of_locate taken
      rw [Scanner.untilEnd_ofReader_ok taken]
      rw [found] at ih ⊢
      exact ⟨ih.1, fun ended => congrArg (item.2 ++ ·) (ih.2 ended)⟩
  | case3 bytes more first stopped =>
    cases taken : locate M total bytes with
    | ok item rest =>
      have found : first = ⟨item.2, none, rest⟩ := field_of_locate taken
      exact absurd (by rw [found]) stopped
    | error fault rest =>
      rw [Scanner.untilEnd_ofReader_error more taken]
      exact ⟨field_fault_of_locate taken, fun ended => absurd ended stopped⟩

variable {declares : Tag → Prop} {accepts : Tag → Bytes → Prop} {raw bytes : Bytes}

/-- One field is read where it can be skipped and its payload is accepted. -/
theorem locate_isOk
    (skips : ∀ tag, declares tag → (payload tag : Scanner (Edit M)).Skips tag.wire (accepts tag))
    (left : bytes <:+ raw) (conforming : ∀ tag ∈ Extent.tags bytes, declares tag) {extent : Extent}
    {rest : Bytes} :
    (∃ edits, locate M raw.length bytes = .ok (extent, edits) rest) ↔
      Extent.read raw.length bytes = .ok extent rest ∧
        ∀ payload ∈ extent.payload? raw, accepts extent.tag payload := by
  simp only [locate_eq_ok, Extent.read_eq_ok]
  constructor
  · rintro ⟨edits, tag, body, head, found, rfl⟩
    have step := (skips tag (conforming tag (Extent.tag_mem_tags head)) body rest).mp
      ⟨by rw [found], by rw [found]⟩
    rw [Extent.payload?_eq left head]
    exact ⟨⟨tag, body, head, step.1, rfl⟩, step.2⟩
  · rintro ⟨⟨tag, body, head, skipped, rfl⟩, accepted⟩
    rw [Extent.payload?_eq left head] at accepted
    obtain ⟨ended, unread⟩ := (skips tag (conforming tag (Extent.tag_mem_tags head)) body rest).mpr
      ⟨skipped, accepted⟩
    refine ⟨(payload tag body).items, tag, body, head, ?_, rfl⟩
    rw [← ended, ← unread]

theorem locatedFrom_fault_of_refused
    (skips : ∀ tag, declares tag → (payload tag : Scanner (Edit M)).Skips tag.wire (accepts tag))
    (left : bytes <:+ raw) (conforming : ∀ tag ∈ Extent.tags bytes, declares tag)
    (more : bytes ≠ [])
    (refused : ∀ extent rest, Extent.read raw.length bytes = .ok extent rest →
      ¬ ∀ payload ∈ extent.payload? raw, accepts extent.tag payload) :
    (locatedFrom M raw.length bytes).fault ≠ none := by
  cases taken : locate M raw.length bytes with
  | ok item rest =>
    obtain ⟨skipped, accepted⟩ := (locate_isOk skips left conforming).mp ⟨item.2, taken⟩
    exact absurd accepted (refused _ _ skipped)
  | error fault rest =>
    rw [locatedFrom, Scanner.untilEnd_ofReader_error more taken]
    exact Option.some_ne_none fault

/-- **Skipping and reading go through conforming bytes in step.** The fields that are left are read
without a fault exactly if they can be skipped and their payloads are accepted, and then they lie
where they are skipped. -/
theorem located_agrees
    (skips : ∀ tag, declares tag → (payload tag : Scanner (Edit M)).Skips tag.wire (accepts tag))
    (left : bytes <:+ raw) (conforming : ∀ tag ∈ Extent.tags bytes, declares tag) :
    ((locatedFrom M raw.length bytes).fault = none ↔
      (Extent.walkFrom raw.length bytes).fault = none ∧
        ∀ extent ∈ (Extent.walkFrom raw.length bytes).items, ∀ payload ∈ extent.payload? raw,
          accepts extent.tag payload) ∧
    ((locatedFrom M raw.length bytes).fault = none →
      (locatedFrom M raw.length bytes).items.map Prod.fst
        = (Extent.walkFrom raw.length bytes).items) := by
  induction size : bytes.length using Nat.strongRecOn generalizing bytes with
  | ind size ih =>
  by_cases nothing : bytes = []
  · subst nothing
    simp [locatedFrom, Extent.walkFrom, Scanner.untilEnd_nil]
  have stop := @locatedFrom_fault_of_refused M _ declares accepts raw bytes skips left conforming
    nothing
  cases skipped : Extent.read raw.length bytes with
  | error fault rest =>
    -- what cannot be skipped is not read either
    have refused := stop fun extent rest read => by
      rw [skipped] at read
      cases read
    rw [Extent.walkFrom, Scanner.untilEnd_ofReader_error nothing skipped]
    exact ⟨iff_of_false refused fun both => Option.some_ne_none fault both.1,
      fun ended => absurd ended refused⟩
  | ok extent rest =>
    obtain ⟨tag, body, head, passed, -⟩ := Extent.read_eq_ok.mp skipped
    have rest_left : rest <:+ raw := (Extent.suffix_of_read skipped).trans left
    have rest_conforming : ∀ tag ∈ Extent.tags rest, declares tag := by
      rw [Extent.tags_eq head passed] at conforming
      exact (List.forall_mem_cons.mp conforming).2
    have rest_agrees := ih rest.length (size ▸ Extent.read_consuming _ skipped) rest_left
      rest_conforming rfl
    have walked : Extent.walkFrom raw.length bytes
        = (Extent.walkFrom raw.length rest).prepend [extent] :=
      Scanner.untilEnd_ofReader_ok skipped
    rw [walked]
    by_cases accepted : ∀ payload ∈ extent.payload? raw, accepts extent.tag payload
    · obtain ⟨edits, taken⟩ := (locate_isOk skips left conforming).mpr ⟨skipped, accepted⟩
      have located : locatedFrom M raw.length bytes
          = (locatedFrom M raw.length rest).prepend [(extent, edits)] :=
        Scanner.untilEnd_ofReader_ok taken
      rw [located]
      simp only [Scan.prepend, List.singleton_append, List.forall_mem_cons, List.map_cons]
      refine ⟨rest_agrees.1.trans ?_, fun ended => congrArg (extent :: ·) (rest_agrees.2 ended)⟩
      exact and_congr_right fun _ => (and_iff_right accepted).symm
    · have refused := stop fun other left read => by
        rw [skipped] at read
        cases read
        exact accepted
      refine ⟨iff_of_false refused ?_, fun ended => absurd ended refused⟩
      rintro ⟨-, accepts⟩
      exact accepted (accepts extent List.mem_cons_self)

/-- A message is what the edits of its fields make of the empty one. -/
theorem decode_eq_ok {bytes : Bytes} {message : M} :
    decode bytes = .ok message ↔ (located M bytes).fault = none ∧
      Edit.all ((located M bytes).items.flatMap Prod.snd) empty = message := by
  obtain ⟨same_fault, same_items⟩ := @scan_locatedFrom M _ bytes.length bytes
  simp only [decode, merge]
  show _ ↔ (locatedFrom M bytes.length bytes).fault = none ∧
    Edit.all ((locatedFrom M bytes.length bytes).items.flatMap Prod.snd) empty = message
  rw [← same_fault]
  cases ended : (scan M bytes).fault with
  | none =>
    rw [← same_items ended]
    simp [Scan.apply]
  | some fault => simp

/-- **A table decodes what conforms to it exactly if the fields can be skipped and their payloads are
accepted, and then finds the fields where they are skipped.** -/
theorem decode_iff_walk_of_table {fields : List (Field M)}
    (distinct : (fields.map Field.number).Nodup)
    (table : ∀ tag, (payload tag : Scanner (Edit M)) = payloadOf fields tag) {raw : Bytes}
    (conforming : Conforms fields raw) :
    ((∃ message : M, decode raw = .ok message) ↔
      (Extent.walk raw).fault = none ∧
        ∀ extent ∈ (Extent.walk raw).items, ∀ payload ∈ extent.payload? raw,
          ∀ field ∈ fields, field.number = extent.tag.number → field.kind.Accepts payload) ∧
    ∀ message : M, decode raw = .ok message →
      (located M raw).items.map Prod.fst = (Extent.walk raw).items ∧
        Edit.all ((located M raw).items.flatMap Prod.snd) empty = message := by
  have skips : ∀ tag : Tag,
      (∀ field ∈ fields, field.number = tag.number → field.kind.Declares tag.wire) →
      (payload tag : Scanner (Edit M)).Skips tag.wire fun payload =>
        ∀ field ∈ fields, field.number = tag.number → field.kind.Accepts payload := by
    intro tag declared
    rw [table]
    exact payloadOf_skips distinct declared
  obtain ⟨agree, place⟩ := located_agrees skips (List.suffix_refl raw) conforming
  simp only [decode_eq_ok]
  refine ⟨?_, fun message ⟨ended, edits⟩ => ⟨place ended, edits⟩⟩
  rw [exists_and_left, and_iff_left ⟨_, rfl⟩]
  exact agree

end Message

namespace FooBar.Example1

/-- What the rows of `foo.bar.example1` ask of a length-delimited payload. -/
theorem accepts_iff {number : Nat} {payload : Bytes} :
    (∀ field ∈ fields, field.number = number → field.kind.Accepts payload) ↔
      (number ∈ [14, 19, 60] → ∃ text, Utf8.encode text = payload) ∧
      (number = 20 → ∃ varints : List Bytes, varints.flatten = payload ∧
        ∀ varint ∈ varints, ∃ n, Varint.read 64 varint = .ok n []) ∧
      (number = 21 → ∃ inner : Example1.Example2, Message.decode payload = .ok inner) ∧
      (number = 22 → ∃ inner : FooBar.Example2, Message.decode payload = .ok inner) ∧
      (number = 23 → ∃ inner : FizBaz.Example2, Message.decode payload = .ok inner) ∧
      (number = 24 →
        ∃ entry, Entry.read .string .string (Payload.encode payload) = .ok entry []) := by
  have varint : ∀ bytes, (∃ value, ScalarType.int64.read bytes = .ok value []) ↔
      ∃ n, Varint.read 64 bytes = .ok n [] := by
    intro bytes
    simp only [ScalarType.read, Reader.map_eq_ok]
    constructor
    · rintro ⟨_, n, taken, -⟩
      exact ⟨n, taken⟩
    · rintro ⟨n, taken⟩
      exact ⟨_, n, taken, rfl⟩
  have run : (Kind.repeated .int64).Accepts payload ↔
      ∃ varints : List Bytes, varints.flatten = payload ∧
        ∀ varint ∈ varints, ∃ n, Varint.read 64 varint = .ok n [] := by
    simp only [← varint]
    exact Iff.rfl
  simp only [fields, List.forall_mem_cons, run]
  simp only [Kind.Accepts, ScalarType.Accepts, ScalarType.wireType, if_true, implies_true, true_and,
    List.not_mem_nil, false_implies, and_true, List.mem_cons, or_false, or_imp, @eq_comm Nat number]
  constructor
  · rintro ⟨astring, manystring, manyint64, aexample2, aexample22, aexample23, amap, oostring⟩
    exact ⟨⟨astring, manystring, oostring⟩, manyint64, aexample2, aexample22, aexample23, amap⟩
  · rintro ⟨⟨astring, manystring, oostring⟩, manyint64, aexample2, aexample22, aexample23, amap⟩
    exact ⟨astring, manystring, manyint64, aexample2, aexample22, aexample23, amap, oostring⟩

/-- **Typed decoding and skipping agree.** Where every field met is framed as `foo.bar.example1` says,
the bytes are decoded exactly if all fields can be skipped, strings are UTF-8, packed runs are whole
varints, and embedded messages and map entries are read; and then every field is found where it is
skipped. -/
theorem decode_iff_walk {raw : Bytes} (conforming : Message.Conforms fields raw) :
    ((∃ message : Example1, Message.decode raw = .ok message) ↔
      (Extent.walk raw).fault = none ∧
        ∀ extent ∈ (Extent.walk raw).items, ∀ payload ∈ extent.payload? raw,
          (extent.tag.number ∈ [14, 19, 60] → ∃ text, Utf8.encode text = payload) ∧
          (extent.tag.number = 20 → ∃ varints : List Bytes, varints.flatten = payload ∧
            ∀ varint ∈ varints, ∃ n, Varint.read 64 varint = .ok n []) ∧
          (extent.tag.number = 21 →
            ∃ inner : Example1.Example2, Message.decode payload = .ok inner) ∧
          (extent.tag.number = 22 →
            ∃ inner : FooBar.Example2, Message.decode payload = .ok inner) ∧
          (extent.tag.number = 23 →
            ∃ inner : FizBaz.Example2, Message.decode payload = .ok inner) ∧
          (extent.tag.number = 24 →
            ∃ entry, Entry.read .string .string (Payload.encode payload) = .ok entry [])) ∧
    ∀ message : Example1, Message.decode raw = .ok message →
      (Message.located Example1 raw).items.map Prod.fst = (Extent.walk raw).items ∧
        Edit.all ((Message.located Example1 raw).items.flatMap Prod.snd) {} = message := by
  obtain ⟨agree, place⟩ := Message.decode_iff_walk_of_table lawfulTable.distinct (fun _ => rfl)
    conforming
  refine ⟨agree.trans ?_, place⟩
  simp only [accepts_iff]

/-- A packed run, a field without a row and a map entry: the length of the run and its first varint are
longer than they need to be, and the entry has neither key nor value. -/
def overlong : Bytes :=
  [0xA2, 0x01, 0x83, 0x00, 0x81, 0x00, 0x05, 0x98, 0x06, 0x07, 0xC2, 0x01, 0x00]

theorem decode_iff_walk_overlong :
    Message.Conforms fields overlong ∧
      (∃ message : Example1, Message.decode overlong = .ok message) ∧
      (Message.located Example1 overlong).items.map Prod.fst
        = [⟨0, ⟨20, 2⟩, 5⟩, ⟨7, ⟨99, 0⟩, 1⟩, ⟨10, ⟨24, 2⟩, 1⟩] := by
  have conforming : Message.Conforms fields overlong := by decide +kernel
  obtain ⟨message, decoded⟩ : ∃ message : Example1, Message.decode overlong = .ok message :=
    Message.decode_isOk.mpr (by decide +kernel)
  refine ⟨conforming, ⟨message, decoded⟩, ?_⟩
  rw [((decode_iff_walk conforming).2 message decoded).1]
  decide +kernel

end FooBar.Example1

end Protobuf

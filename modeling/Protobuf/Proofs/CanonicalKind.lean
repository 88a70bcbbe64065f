/-
**The fields of a member in canonical form are those that it is written as.**

* `Kind.written`: the fields that a member is written as, one by one;
* `Kind.HasShape`: which shape the fields of a kind have;
* `Kind.segment_written`: what is written is a segment of that shape;
* `Kind.exists_written`: every segment of that shape is what some value is written as.

The reader plays no part in this: a segment is taken apart by what the form says of it.
-/

import Protobuf.Proofs.CanonicalScalar

namespace Protobuf

variable {number : Nat} {list : List WireField}

/-- A list each element of which has a source is the image of a list. -/
theorem exists_map_eq {α β : Type} {f : β → α} {good : β → Prop} {list : List α}
    (onto : ∀ item ∈ list, ∃ source, f source = item ∧ good source) :
    ∃ sources : List β, sources.map f = list ∧ ∀ source ∈ sources, good source := by
  induction list with
  | nil => exact ⟨[], rfl, List.forall_mem_nil _⟩
  | cons item list ih =>
    obtain ⟨⟨source, same, holds⟩, rest⟩ := List.forall_mem_cons.mp onto
    obtain ⟨sources, mapped, all⟩ := ih rest
    exact ⟨source :: sources, by rw [List.map_cons, same, mapped],
      List.forall_mem_cons.mpr ⟨holds, all⟩⟩

/-- The field that holds a content behind its length. -/
def WireField.ofContent (number : Nat) (content : Bytes) : WireField :=
  ⟨Tag.encode number .lengthDelimited, ⟨number, WireType.lengthDelimited.id⟩, Payload.encode content⟩

theorem WireField.ofContent_eq (most : number ≤ maxFieldNumber) {field : WireField} {content : Bytes}
    (heads : field.Heads number .lengthDelimited) (payload : Payload.encode content = field.payload) :
    ofContent number content = field := by
  obtain ⟨tag, head⟩ := (heads_iff most).mp heads
  obtain ⟨_, _, _⟩ := field
  cases tag
  cases head
  cases payload
  rfl

theorem WireField.heads_ofContent (most : number ≤ maxFieldNumber) (content : Bytes) :
    (ofContent number content).Heads number .lengthDelimited :=
  (heads_iff most).mpr ⟨rfl, rfl⟩

namespace Shape

/-! ### Segments -/

theorem Segment.nil (shape : Shape) (number : Nat) : shape.Segment number [] where
  heads := List.forall_mem_nil _
  admits := List.forall_mem_nil _
  once _ := Nat.zero_le 1
  increasing _ := ⟨[], rfl, .nil, List.forall_mem_nil _⟩

theorem Segment.one {shape : Shape} {field : WireField} (single : shape ≠ entries)
    (heads : field.Heads number shape.wireType) (admits : shape.Admits field.payload) :
    shape.Segment number [field] where
  heads := List.forall_mem_singleton.mpr heads
  admits := List.forall_mem_singleton.mpr admits
  once _ := Nat.le_refl 1
  increasing map := absurd map single

/-- What is given once is not there or is one field. -/
theorem Segment.cases_once {shape : Shape} (segment : shape.Segment number list)
    (single : shape.repeats = false) :
    list = [] ∨ ∃ field, list = [field] ∧ field.Heads number shape.wireType ∧
      shape.Admits field.payload := by
  have few := segment.once single
  match list, segment with
  | [], _ => exact .inl rfl
  | [field], segment =>
    exact .inr ⟨field, rfl, segment.heads field List.mem_cons_self,
      segment.admits field List.mem_cons_self⟩
  | _ :: _ :: _, _ => exact absurd few (by simp)

variable {type : ScalarType}

theorem segment_single (most : number ≤ maxFieldNumber) {value : type.Value}
    (fits : ∀ inner ∈ type.payloads value, inner.length ≤ maxLength) (set : value ≠ type.default) :
    (single type).Segment number [Scalar.wireField number ⟨type, value⟩] := by
  obtain ⟨heads, payload⟩ := (WireField.holds_iff most).mpr ⟨value, rfl, fits⟩
  exact .one nofun heads ⟨payload, mt (ScalarType.isZero_iff fits).mp set⟩

theorem segment_alternative (most : number ≤ maxFieldNumber) {value : type.Value}
    (fits : ∀ inner ∈ type.payloads value, inner.length ≤ maxLength) :
    (alternative type).Segment number [Scalar.wireField number ⟨type, value⟩] := by
  obtain ⟨heads, payload⟩ := (WireField.holds_iff most).mpr ⟨value, rfl, fits⟩
  exact .one nofun heads payload

/-- A scalar that is given once is a value other than the default. -/
theorem Segment.cases_single (most : number ≤ maxFieldNumber)
    (segment : (single type).Segment number list) :
    list = [] ∨ ∃ value : type.Value, list = [Scalar.wireField number ⟨type, value⟩] ∧
      value ≠ type.default ∧ ∀ inner ∈ type.payloads value, inner.length ≤ maxLength := by
  rcases segment.cases_once rfl with nothing | ⟨field, one, heads, payload, set⟩
  · exact .inl nothing
  · obtain ⟨value, rfl, fits⟩ := (WireField.holds_iff most).mp ⟨heads, payload⟩
    exact .inr ⟨value, one, mt (ScalarType.isZero_iff fits).mpr set, fits⟩

theorem Segment.cases_alternative (most : number ≤ maxFieldNumber)
    (segment : (alternative type).Segment number list) :
    list = [] ∨ ∃ value : type.Value, list = [Scalar.wireField number ⟨type, value⟩] ∧
      ∀ inner ∈ type.payloads value, inner.length ≤ maxLength := by
  rcases segment.cases_once rfl with nothing | ⟨field, one, heads, payload⟩
  · exact .inl nothing
  · obtain ⟨value, rfl, fits⟩ := (WireField.holds_iff most).mp ⟨heads, payload⟩
    exact .inr ⟨value, one, fits⟩

end Shape

/-- Whether a message type is one scalar under number 1. -/
def Message.Wraps (N : Type) [Message N] (type : ScalarType) : Prop :=
  ∃ (wrap : type.Value → N) (unwrap : N → type.Value), (∀ value, unwrap (wrap value) = value) ∧
    (∀ message : N, Message.encode message = (Kind.singular type).encode 1 (unwrap message)) ∧
    (∀ message : N, Message.payloads message = type.payloads (unwrap message)) ∧
    ∀ message : N, Message.IsCanonical message

/-- An entry in canonical form is the entry of a key and a value. -/
theorem Entry.canonicalForm_iff {payload key : Bytes} :
    CanonicalForm payload key ↔ ∃ entry : String × String, Utf8.encode entry.1 = key ∧
      Payload.encode (encode (some ⟨.string, entry.1⟩) (some ⟨.string, entry.2⟩)) = payload ∧
      ∀ inner ∈ [encode (some ⟨.string, entry.1⟩) (some ⟨.string, entry.2⟩), Utf8.encode entry.1,
        Utf8.encode entry.2], inner.length ≤ maxLength := by
  constructor
  · rintro ⟨first, second, delimits, holdsKey, keyed, holdsValue⟩
    obtain ⟨name, rfl, fitsName⟩ := (WireField.holds_iff (by decide)).mp holdsKey
    obtain ⟨value, rfl, fitsValue⟩ := (WireField.holds_iff (by decide)).mp holdsValue
    obtain ⟨fits, rfl⟩ := Payload.delimits_iff.mp delimits
    obtain ⟨fitsKey, same⟩ := Payload.delimits_iff.mp keyed
    have fitsName := List.forall_mem_singleton.mp fitsName
    have fitsValue := List.forall_mem_singleton.mp fitsValue
    have key_eq := Payload.encode_injective fitsName fitsKey same.symm
    exact ⟨(name, value), key_eq, rfl, by simpa using ⟨fits, fitsName, fitsValue⟩⟩
  · rintro ⟨⟨name, value⟩, rfl, rfl, fits⟩
    simp only [List.forall_mem_cons, List.not_mem_nil, false_implies, implies_true, and_true] at fits
    obtain ⟨fits, fitsName, fitsValue⟩ := fits
    exact ⟨Scalar.wireField keyNumber ⟨.string, name⟩, Scalar.wireField valueNumber ⟨.string, value⟩,
      Payload.delimits_iff.mpr ⟨fits, rfl⟩,
      (WireField.holds_iff (by decide)).mpr ⟨name, rfl, List.forall_mem_singleton.mpr fitsName⟩,
      Payload.delimits_iff.mpr ⟨fitsName, rfl⟩,
      (WireField.holds_iff (by decide)).mpr ⟨value, rfl, List.forall_mem_singleton.mpr fitsValue⟩⟩

namespace Kind

variable {V : Type}

/-- The fields that a member is written as, one by one. -/
def written : {V : Type} → Kind V → (number : Nat) → V → List WireField
  | _, singular type, number, value =>
    if value = type.default then [] else [Scalar.wireField number ⟨type, value⟩]
  | _, enumeration _, number, value =>
    if OpenEnum.number value = 0 then []
    else [Scalar.wireField number ⟨.int32, OpenEnum.number value⟩]
  | _, «repeated» type, number, values =>
    if type.wireType = .lengthDelimited then
      values.map fun value => Scalar.wireField number ⟨type, value⟩
    else if values = [] then [] else [.ofContent number (values.flatMap type.encode)]
  | _, embedded _, number, message =>
    match message with
    | none => []
    | some message => [.ofContent number (Message.encode message)]
  | _, textMap, number, map =>
    map.entries.map fun entry =>
      .ofContent number (Entry.encode (some ⟨.string, entry.1⟩) (some ⟨.string, entry.2⟩))
  | _, alternative type _ chosen, number, choice =>
    match choice.bind chosen with
    | none => []
    | some value => [Scalar.wireField number ⟨type, value⟩]

/-- These fields are what is written. -/
theorem join_written (kind : Kind V) (number : Nat) (value : V) :
    WireField.join (kind.written number value) = kind.encode number value := by
  cases kind with
  | singular type =>
    simp only [written, encode]
    split
    · rfl
    · exact List.append_nil _
  | enumeration =>
    simp only [written, encode]
    split
    · rfl
    · exact List.append_nil _
  | «repeated» type =>
    simp only [written, encode]
    split
    · rw [WireField.join, List.flatMap_map]
      rfl
    · unfold Repeated.packed
      split
      · rfl
      · exact List.append_nil _
  | embedded =>
    cases value with
    | none => rfl
    | some message => exact List.append_nil _
  | textMap =>
    simp only [written, encode]
    rw [WireField.join, List.flatMap_map]
    rfl
  | alternative type choose chosen =>
    simp only [written, encode]
    cases value.bind chosen with
    | none => rfl
    | some value => exact List.append_nil _

/-- A case that is not chosen is not written. -/
theorem written_of_none {type : ScalarType} {C : Type} {choose : type.Value → C}
    {chosen : C → Option type.Value} {choice : Option C} (other : choice.bind chosen = none) :
    (alternative type choose chosen).written number choice = [] := by
  simp only [written, other]

/-- The shape that the fields of a kind have. -/
def HasShape : {V : Type} → Kind V → Shape → Prop
  | _, singular type, shape => shape = .single type
  | _, enumeration _, shape => shape = .single .int32
  | _, «repeated» type, shape =>
    if type.wireType = .lengthDelimited then shape = .elements type else shape = .run type
  | _, embedded N, shape => ∃ type, shape = .message type ∧ Message.Wraps N type
  | _, textMap, shape => shape = .entries
  | _, alternative type choose chosen, shape =>
    shape = .alternative type ∧ ∀ value, chosen (choose value) = some value

variable {shape : Shape}

/-! ### What is written is in canonical form -/

theorem segment_scalars {type : ScalarType} (most : number ≤ maxFieldNumber) {values : List type.Value}
    (fits : ∀ inner ∈ values.flatMap type.payloads, inner.length ≤ maxLength) :
    (Shape.elements type).Segment number
      (values.map fun value => Scalar.wireField number ⟨type, value⟩) := by
  have holds : ∀ value ∈ values, (Scalar.wireField number ⟨type, value⟩).Holds number type :=
    fun value member => (WireField.holds_iff most).mpr ⟨value, rfl, fun inner inside =>
      fits inner (List.mem_flatMap.mpr ⟨value, member, inside⟩)⟩
  exact ⟨List.forall_mem_map.mpr fun value member => (holds value member).heads,
    List.forall_mem_map.mpr fun value member => (holds value member).payload, nofun, nofun⟩

theorem segment_run {type : ScalarType} (bare : type.wireType ≠ .lengthDelimited)
    (most : number ≤ maxFieldNumber) {values : List type.Value} (given : values ≠ [])
    (fits : (values.flatMap type.encode).length ≤ maxLength) :
    (Shape.run type).Segment number [.ofContent number (values.flatMap type.encode)] := by
  refine .one nofun (WireField.heads_ofContent most _)
    ⟨values.map type.encode, Payload.delimits_iff.mpr ⟨?_, ?_⟩, ?_, ?_⟩
  · rwa [← List.flatMap_def]
  · rw [← List.flatMap_def]
    rfl
  · exact fun nothing => given (List.map_eq_nil_iff.mp nothing)
  · exact List.forall_mem_map.mpr fun value _ =>
      type.canonicalForm_iff.mpr ⟨value, rfl, fits_of_bare bare value⟩

theorem segment_message {N : Type} [Message N] {type : ScalarType} (wraps : Message.Wraps N type)
    (most : number ≤ maxFieldNumber) {message : N}
    (fits : ∀ inner ∈ Message.encode message :: Message.payloads message, inner.length ≤ maxLength) :
    (Shape.message type).Segment number [.ofContent number (Message.encode message)] := by
  obtain ⟨wrap, unwrap, -, encoded, payloads, -⟩ := wraps
  obtain ⟨fitsContent, fitsInner⟩ := List.forall_mem_cons.mp fits
  rw [payloads] at fitsInner
  refine .one nofun (WireField.heads_ofContent most _) ?_
  by_cases unset : unwrap message = type.default
  · have nothing : Message.encode message = [] := by
      rw [encoded, unset]
      exact if_pos rfl
    rw [nothing]
    exact .inl (Payload.delimits_iff.mpr ⟨Nat.zero_le _, rfl⟩)
  · have one : Message.encode message = (Scalar.wireField 1 ⟨type, unwrap message⟩).bytes := by
      rw [encoded]
      exact if_neg unset
    have holds : (Scalar.wireField 1 ⟨type, unwrap message⟩).Holds 1 type :=
      (WireField.holds_iff (by decide)).mpr ⟨unwrap message, rfl, fitsInner⟩
    refine .inr ⟨_, Payload.delimits_iff.mpr ⟨?_, ?_⟩, holds,
      mt (ScalarType.isZero_iff fitsInner).mp unset⟩
    · rwa [← one]
    · rw [← one]
      rfl

theorem segment_entries (most : number ≤ maxFieldNumber) {map : TextMap}
    (fits : ∀ inner ∈ textMap.payloads map, inner.length ≤ maxLength) :
    Shape.entries.Segment number (textMap.written number map) := by
  have form : ∀ entry ∈ map.entries, Entry.CanonicalForm
      (Payload.encode (Entry.encode (some ⟨.string, entry.1⟩) (some ⟨.string, entry.2⟩)))
      (Utf8.encode entry.1) :=
    fun entry member => Entry.canonicalForm_iff.mpr ⟨entry, rfl, rfl, fun inner inside =>
      fits inner (List.mem_flatMap.mpr ⟨entry, member, inside⟩)⟩
  refine ⟨List.forall_mem_map.mpr fun _ _ => WireField.heads_ofContent most _,
    List.forall_mem_map.mpr fun entry member => ⟨_, form entry member⟩, nofun, fun _ => ?_⟩
  refine ⟨map.entries.map fun entry =>
    (.ofContent number (Entry.encode (some ⟨.string, entry.1⟩) (some ⟨.string, entry.2⟩)),
      Utf8.encode entry.1), ?_, ?_, ?_⟩
  · rw [List.map_map]
    rfl
  · rw [List.map_map, List.pairwise_map]
    exact map.increasing
  · exact List.forall_mem_map.mpr form

/-- **What a member is written as is in canonical form.** -/
theorem segment_written {kind : Kind V} (shaped : kind.HasShape shape) (most : number ≤ maxFieldNumber)
    {value : V} (fits : ∀ inner ∈ kind.payloads value, inner.length ≤ maxLength) :
    shape.Segment number (kind.written number value) := by
  cases kind with
  | singular type =>
    cases shaped
    simp only [written]
    split
    · exact .nil _ _
    · next set => exact Shape.segment_single most fits set
  | enumeration =>
    cases shaped
    simp only [written]
    split
    · exact .nil _ _
    · next set => exact Shape.segment_single most (fits_of_bare (by decide) _) set
  | «repeated» type =>
    simp only [HasShape] at shaped
    simp only [written, payloads] at fits ⊢
    split
    · next framed =>
      rw [if_pos framed] at shaped fits
      cases shaped
      exact segment_scalars most fits
    · next bare =>
      rw [if_neg bare] at shaped fits
      cases shaped
      split
      · exact .nil _ _
      · next given => exact segment_run bare most given (fits _ List.mem_cons_self)
  | embedded N =>
    obtain ⟨type, rfl, wraps⟩ := shaped
    cases value with
    | none => exact .nil _ _
    | some message => exact segment_message wraps most fits
  | textMap =>
    cases shaped
    exact segment_entries most fits
  | alternative type choose chosen =>
    obtain ⟨rfl, -⟩ := shaped
    simp only [written, payloads] at fits ⊢
    cases found : value.bind chosen with
    | none => exact .nil _ _
    | some value =>
      rw [found] at fits
      exact Shape.segment_alternative most fits

/-! ### What is in canonical form is written -/

/-- Whether a value is written as some fields, may be written and is read back. -/
def WrittenAs (kind : Kind V) (number : Nat) (list : List WireField) (value : V) : Prop :=
  kind.written number value = list ∧ kind.IsCanonical value ∧
    ∀ inner ∈ kind.payloads value, inner.length ≤ maxLength

/-- Whether some value is. -/
def Writes (kind : Kind V) (number : Nat) (list : List WireField) : Prop :=
  ∃ value : V, kind.WrittenAs number list value

theorem writes_singular {type : ScalarType} (most : number ≤ maxFieldNumber)
    (segment : (Shape.single type).Segment number list) : (singular type).Writes number list := by
  rcases segment.cases_single most with rfl | ⟨value, rfl, set, fits⟩
  · refine ⟨type.default, if_pos rfl, trivial, fun inner member => ?_⟩
    rw [ScalarType.length_of_mem_payloads_default member]
    exact Nat.zero_le _
  · exact ⟨value, if_neg set, trivial, fits⟩

theorem writes_enumeration {E : Type} [OpenEnum E] (most : number ≤ maxFieldNumber)
    (segment : (Shape.single .int32).Segment number list) :
    (enumeration E).Writes number list := by
  rcases segment.cases_single most with rfl | ⟨value, rfl, set, -⟩
  · refine ⟨OpenEnum.default, if_pos (OpenEnum.number_ofNumber 0), ?_, List.forall_mem_nil _⟩
    exact congrArg OpenEnum.ofNumber (OpenEnum.number_ofNumber 0)
  · have same : OpenEnum.number (OpenEnum.ofNumber value : E) = value := OpenEnum.number_ofNumber value
    refine ⟨OpenEnum.ofNumber value, ?_, congrArg OpenEnum.ofNumber same, List.forall_mem_nil _⟩
    simp only [written, same]
    exact if_neg set

theorem writes_elements {type : ScalarType} (framed : type.wireType = .lengthDelimited)
    (most : number ≤ maxFieldNumber) (segment : (Shape.elements type).Segment number list) :
    («repeated» type).Writes number list := by
  obtain ⟨values, mapped, fits⟩ := exists_map_eq fun field member =>
    (WireField.holds_iff most).mp ⟨segment.heads field member, segment.admits field member⟩
  refine ⟨values, ?_, trivial, ?_⟩
  · simp only [written, if_pos framed]
    exact mapped
  · simp only [payloads, if_pos framed]
    intro inner member
    obtain ⟨value, inside, here⟩ := List.mem_flatMap.mp member
    exact fits value inside inner here

theorem writes_run {type : ScalarType} (bare : type.wireType ≠ .lengthDelimited)
    (most : number ≤ maxFieldNumber) (segment : (Shape.run type).Segment number list) :
    («repeated» type).Writes number list := by
  rcases segment.cases_once rfl with rfl | ⟨field, rfl, heads, elements, delimits, given, canonical⟩
  · refine ⟨[], ?_, trivial, ?_⟩
    · simp only [written, if_neg bare, if_true]
    · simp [payloads, if_neg bare]
  · obtain ⟨values, rfl, -⟩ := exists_map_eq fun element member =>
      type.canonicalForm_iff.mp (canonical element member)
    obtain ⟨fits, payload⟩ := Payload.delimits_iff.mp delimits
    rw [← List.flatMap_def] at fits payload
    refine ⟨values, ?_, trivial, ?_⟩
    · have some_values : values ≠ [] := fun nothing => given (by rw [nothing]; rfl)
      simp only [written, if_neg bare, if_neg some_values]
      rw [WireField.ofContent_eq most heads payload]
    · simp only [payloads, if_neg bare]
      exact List.forall_mem_singleton.mpr fits

theorem writes_message {N : Type} [Message N] {type : ScalarType} (wraps : Message.Wraps N type)
    (most : number ≤ maxFieldNumber) (segment : (Shape.message type).Segment number list) :
    (embedded N).Writes number list := by
  obtain ⟨wrap, unwrap, unwrapped, encoded, payloads, canonical⟩ := wraps
  -- a content that is what some value is written as is the message of that value
  have one {field : WireField} {value : type.Value} {content : Bytes}
      (heads : field.Heads number .lengthDelimited) (payload : Payload.encode content = field.payload)
      (same : (singular type).encode 1 value = content) (fits : content.length ≤ maxLength)
      (fitsInner : ∀ inner ∈ type.payloads value, inner.length ≤ maxLength) :
      (embedded N).Writes number [field] := by
    have content_eq : Message.encode (wrap value) = content := by rw [encoded, unwrapped, same]
    refine ⟨some (wrap value), ?_, fun inner member => ?_, List.forall_mem_cons.mpr ⟨?_, ?_⟩⟩
    · simp only [written, content_eq]
      rw [WireField.ofContent_eq most heads payload]
    · exact canonical inner
    · rwa [content_eq]
    · rwa [payloads, unwrapped]
  rcases segment.cases_once rfl with rfl | ⟨field, rfl, heads, nothing | ⟨inner, delimits, holds, set⟩⟩
  · exact ⟨none, rfl, nofun, List.forall_mem_nil _⟩
  · obtain ⟨fits, payload⟩ := Payload.delimits_iff.mp nothing
    refine one heads payload (if_pos rfl) fits fun inner member => ?_
    rw [ScalarType.length_of_mem_payloads_default member]
    exact Nat.zero_le _
  · obtain ⟨value, rfl, fitsInner⟩ := (WireField.holds_iff (by decide)).mp holds
    obtain ⟨fits, payload⟩ := Payload.delimits_iff.mp delimits
    exact one heads payload (if_neg (mt (ScalarType.isZero_iff fitsInner).mpr set)) fits fitsInner

theorem writes_entries (most : number ≤ maxFieldNumber) (segment : Shape.entries.Segment number list) :
    textMap.Writes number list := by
  obtain ⟨keyed, rfl, increasing, canonical⟩ := segment.increasing rfl
  obtain ⟨entries, mapped, fits⟩ := exists_map_eq fun pair member => by
    obtain ⟨entry, key, payload, fits⟩ := Entry.canonicalForm_iff.mp (canonical pair member)
    have heads := segment.heads pair.1 (List.mem_map_of_mem member)
    have field := WireField.ofContent_eq most heads payload
    exact ⟨entry, (Prod.ext field key :
      (WireField.ofContent number (Entry.encode (some ⟨.string, entry.1⟩) (some ⟨.string, entry.2⟩)),
        Utf8.encode entry.1) = pair), fits⟩
  subst mapped
  rw [List.map_map, List.pairwise_map] at increasing
  refine ⟨⟨entries, increasing⟩, ?_, trivial, ?_⟩
  · rw [List.map_map]
    rfl
  · intro inner member
    obtain ⟨entry, inside, here⟩ := List.mem_flatMap.mp member
    exact fits entry inside inner here

theorem writes_alternative {type : ScalarType} {C : Type} {choose : type.Value → C}
    {chosen : C → Option type.Value} (own : ∀ value, chosen (choose value) = some value)
    (most : number ≤ maxFieldNumber) (segment : (Shape.alternative type).Segment number list) :
    (alternative type choose chosen).Writes number list := by
  rcases segment.cases_alternative most with rfl | ⟨value, rfl, fits⟩
  · exact ⟨none, rfl, trivial, List.forall_mem_nil _⟩
  · have found : (some (choose value)).bind chosen = some value := own value
    refine ⟨some (choose value), ?_, trivial, ?_⟩
    · simp only [written, found]
    · simp only [payloads, found]
      exact fits

/-- **Fields in canonical form are what some value is written as.** -/
theorem exists_written {kind : Kind V} (shaped : kind.HasShape shape) (most : number ≤ maxFieldNumber)
    (segment : shape.Segment number list) : kind.Writes number list := by
  cases kind with
  | singular type =>
    cases shaped
    exact writes_singular most segment
  | enumeration =>
    cases shaped
    exact writes_enumeration most segment
  | «repeated» type =>
    simp only [HasShape] at shaped
    by_cases framed : type.wireType = .lengthDelimited
    · rw [if_pos framed] at shaped
      cases shaped
      exact writes_elements framed most segment
    · rw [if_neg framed] at shaped
      cases shaped
      exact writes_run framed most segment
  | embedded N =>
    obtain ⟨type, rfl, wraps⟩ := shaped
    exact writes_message wraps most segment
  | textMap =>
    cases shaped
    exact writes_entries most segment
  | alternative type choose chosen =>
    obtain ⟨rfl, own⟩ := shaped
    exact writes_alternative own most segment

end Kind

end Protobuf

/-
**What a member is written as overlays an earlier value.**

A `LawfulMessage` is a message type whose written fields, merged into any message, lay the written one
over it. This module proves the corresponding fact for one member of any kind: the fields that
`Kind.encode` writes are occurrences of the member (`Kind.Occurrences`) which together make the change
`Kind.overlay`. What the kinds differ in is the number of occurrences:

* none or one for a scalar, a value of an enumeration and a case of a choice;
* one for every element of a list whose elements are length-delimited (`occurrences_unpacked`);
* none or one for a packed run, which is read by a loop over its payload (`run_reads`);
* none or one for an embedded message, which is present as soon as its tag is met. The law of the
  embedded type says what its payload does to it (`occurrences_embedded`);
* one for every entry of a map (`occurrences_entries`).
-/

import Protobuf.Proofs.Concatenation
import Protobuf.Proofs.ReadBack

namespace Protobuf

/-- A message type whose messages survive being written and read. -/
class LawfulMessage (M : Type) [Message M] : Prop extends Message.Delimited M where
  /-- Merging a written message lays it over the target. -/
  makes_encode : ∀ later : M, Message.IsCanonical later → Message.Fits later →
    Message.Makes (Message.encode later) fun earlier => Message.overlay earlier later
  /-- Every member is in the table. -/
  overlay_empty : ∀ message : M, Message.IsCanonical message →
    Message.overlay Message.empty message = message
  /-- The empty message is canonical. -/
  isCanonical_empty : Message.IsCanonical (Message.empty : M)
  /-- What is read keeps a message canonical. -/
  isCanonical_of_edit : ∀ bytes, ∀ edit ∈ (Message.scan M bytes).items, ∀ message,
    Message.IsCanonical message → Message.IsCanonical (edit message)
  /-- A payload is part of what is written. -/
  length_le_of_mem_payloads : ∀ message : M, ∀ payload ∈ Message.payloads message,
    payload.length ≤ (Message.encode message).length

/-- An entry with both members is read back. -/
theorem Entry.reads_encode {key value : ScalarType} (entry : key.Value × value.Value)
    (fitsKey : ∀ payload ∈ key.payloads entry.1, payload.length ≤ maxLength)
    (fitsValue : ∀ payload ∈ value.payloads entry.2, payload.length ≤ maxLength)
    (fits : (Entry.encode (some ⟨key, entry.1⟩) (some ⟨value, entry.2⟩)).length ≤ maxLength) :
    (Entry.read key value).Reads
      (Payload.encode (Entry.encode (some ⟨key, entry.1⟩) (some ⟨value, entry.2⟩))) entry := by
  have first : (field key value).Reads (Scalar.field keyNumber ⟨key, entry.1⟩)
      [fun read => (entry.1, read.2)] :=
    .after (Tag.reads_encode _ (by decide) (by decide))
      ((Scanner.Reads.ofReader (key.reads_encode entry.1 fitsKey)).map _)
  have second : (field key value).Reads (Scalar.field valueNumber ⟨value, entry.2⟩)
      [fun read => (read.1, entry.2)] :=
    .after (Tag.reads_encode _ (by decide) (by decide))
      ((Scanner.Reads.ofReader (value.reads_encode entry.2 fitsValue)).map _)
  have found : body key value (Entry.encode (some ⟨key, entry.1⟩) (some ⟨value, entry.2⟩))
      = ⟨[fun read => (entry.1, read.2), fun read => (read.1, entry.2)], none, []⟩ := by
    have last := Scanner.untilEnd_of_reads (field_consuming key value) second []
    rw [List.append_nil, Scanner.untilEnd_nil] at last
    show Scanner.untilEnd _ (field_consuming key value) (Scalar.field keyNumber _ ++ _) = _
    rw [Scanner.untilEnd_of_reads _ first]
    show Scan.prepend _ (Scanner.untilEnd _ _ (Scalar.field valueNumber _)) = _
    rw [last]
    rfl
  intro more
  have whole := Scanner.Reads.within (Payload.reads_encode fits) (congrArg Scan.fault found)
  simp only [read, whole more, found]
  rfl

namespace Kind

variable {V : Type}

/-- Whether the laws hold of what is embedded, if the member is a message. -/
def Lawful : {V : Type} → Kind V → Prop
  | _, embedded N => LawfulMessage N
  | _, _ => True

theorem lawful_embedded (N : Type) [Message N] [lawful : LawfulMessage N] : (embedded N).Lawful :=
  lawful

/-- Fields of one number that are occurrences of a member, and the change they make to it. -/
inductive Occurrences (kind : Kind V) (number : Nat) : Bytes → Edit V → Prop where
  /-- No field at all changes nothing. -/
  | none : Occurrences kind number [] id
  /-- One occurrence, and others behind it. -/
  | more {wire : WireType} {payload rest : Bytes} {edits : List (Edit V)} {edit : Edit V} :
    (kind.scan wire.id).Reads payload edits → Occurrences kind number rest edit →
      Occurrences kind number (Tag.encode number wire ++ payload ++ rest)
        fun value => edit (Edit.all edits value)

variable {number : Nat}

theorem Occurrences.congr {kind : Kind V} {bytes : Bytes} {edit other : Edit V}
    (occurrences : kind.Occurrences number bytes edit) (same : ∀ value, edit value = other value) :
    kind.Occurrences number bytes other :=
  funext same ▸ occurrences

theorem Occurrences.one {kind : Kind V} {wire : WireType} {payload : Bytes}
    {edits : List (Edit V)} (reads : (kind.scan wire.id).Reads payload edits) :
    kind.Occurrences number (Tag.encode number wire ++ payload) (Edit.all edits) := by
  have whole : kind.Occurrences number (Tag.encode number wire ++ payload ++ []) (Edit.all edits) :=
    .more reads .none
  rwa [List.append_nil] at whole

/-! ### Scalars, enumerations and choices -/

theorem payloads_eq_nil {type : ScalarType} (bare : type.wireType ≠ .lengthDelimited)
    (value : type.Value) : type.payloads value = [] := by
  cases type with
  | bytes => exact absurd rfl bare
  | string => exact absurd rfl bare
  | _ => rfl

theorem fits_of_bare {type : ScalarType} (bare : type.wireType ≠ .lengthDelimited)
    (value : type.Value) : ∀ payload ∈ type.payloads value, payload.length ≤ maxLength := by
  rw [payloads_eq_nil bare]
  exact fun _ member => nomatch member

theorem occurrences_singular (type : ScalarType) (later : type.Value)
    (fits : ∀ payload ∈ type.payloads later, payload.length ≤ maxLength) :
    (singular type).Occurrences number ((singular type).encode number later)
      fun earlier => (singular type).overlay earlier later := by
  simp only [encode, overlay]
  by_cases unset : later = type.default
  · simp only [if_pos unset]
    exact .none
  · simp only [if_neg unset]
    have reads : ((singular type).scan type.wireType.id).Reads (type.encode later)
        [fun _ => later] :=
      (Scanner.Reads.ofReader (type.reads_encode later fits)).map _
    exact .one reads

theorem occurrences_enumeration (E : Type) [OpenEnum E] (later : E)
    (canonical : OpenEnum.IsCanonical later) :
    (enumeration E).Occurrences number ((enumeration E).encode number later)
      fun earlier => (enumeration E).overlay earlier later := by
  simp only [encode, overlay]
  by_cases unset : OpenEnum.number later = 0
  · simp only [if_pos unset]
    exact .none
  · simp only [if_neg unset]
    have fits := @fits_of_bare .int32 (by decide) (OpenEnum.number later)
    have reads : ((enumeration E).scan ScalarType.int32.wireType.id).Reads
        (ScalarType.encode .int32 (OpenEnum.number later))
        [fun _ => OpenEnum.ofNumber (OpenEnum.number later)] :=
      (Scanner.Reads.ofReader (ScalarType.reads_encode .int32 _ fits)).map _
    refine (Occurrences.one reads).congr fun earlier => ?_
    exact canonical

theorem occurrences_alternative (type : ScalarType) {C : Type} (choose : type.Value → C)
    (chosen : C → Option type.Value) (later : Option C)
    (fits : ∀ payload ∈ (alternative type choose chosen).payloads later,
      payload.length ≤ maxLength) :
    (alternative type choose chosen).Occurrences number
      ((alternative type choose chosen).encode number later)
      fun earlier => (alternative type choose chosen).overlay earlier later := by
  simp only [encode, overlay, payloads] at fits ⊢
  cases found : later.bind chosen with
  | none => exact .none
  | some value =>
    rw [found] at fits
    have reads : ((alternative type choose chosen).scan type.wireType.id).Reads
        (type.encode value) [fun _ => some (choose value)] :=
      (Scanner.Reads.ofReader (type.reads_encode value fits)).map _
    exact .one reads

/-! ### Lists -/

theorem isPacked_iff (type : ScalarType) (wire : WireType) :
    Repeated.isPacked wire.id type.wireType = true
      ↔ wire = .lengthDelimited ∧ type.wireType ≠ .lengthDelimited := by
  cases wire <;> cases type <;> decide

theorem all_push (values earlier : List V) :
    Edit.all (values.map fun value (list : List V) => list ++ [value]) earlier
      = earlier ++ values := by
  induction values generalizing earlier with
  | nil => exact (List.append_nil earlier).symm
  | cons value values ih =>
    rw [List.map_cons, Edit.all_cons, ih, List.append_assoc]
    rfl

/-- The values of a packed run are read up to the end of its payload. -/
theorem untilEnd_single {type : ScalarType} (bare : type.wireType ≠ .lengthDelimited)
    (values : List type.Value) :
    Scanner.untilEnd (Repeated.single type) (Repeated.single_consuming type)
      (values.flatMap type.encode) = ⟨values, none, []⟩ := by
  induction values with
  | nil => exact Scanner.untilEnd_nil _ _
  | cons value values ih =>
    have reads : (Repeated.single type).Reads (type.encode value) [value] :=
      .ofReader (type.reads_encode value (fits_of_bare bare value))
    rw [List.flatMap_cons, Scanner.untilEnd_of_reads _ reads, ih]
    rfl

theorem run_reads {type : ScalarType} (bare : type.wireType ≠ .lengthDelimited)
    (values : List type.Value) (fits : (values.flatMap type.encode).length ≤ maxLength) :
    (Repeated.run type).Reads (Payload.encode (values.flatMap type.encode)) values := by
  have read := untilEnd_single bare values
  have whole := Scanner.Reads.within (Payload.reads_encode fits) (congrArg Scan.fault read)
  rw [read] at whole
  exact whole

theorem occurrences_packed {type : ScalarType} (bare : type.wireType ≠ .lengthDelimited)
    (later : List type.Value) (fits : (later.flatMap type.encode).length ≤ maxLength) :
    (repeated type).Occurrences number (Repeated.packed number type later)
      fun earlier => earlier ++ later := by
  unfold Repeated.packed
  by_cases empty : later = []
  · subst empty
    rw [if_pos rfl]
    exact Occurrences.none.congr fun earlier => (List.append_nil earlier).symm
  · rw [if_neg empty]
    have packed := (isPacked_iff type .lengthDelimited).mpr ⟨rfl, bare⟩
    have reads : ((repeated type).scan WireType.lengthDelimited.id).Reads
        (Payload.encode (later.flatMap type.encode))
        (later.map fun value list => list ++ [value]) := by
      simp only [scan, Repeated.scan, if_pos packed]
      exact (run_reads bare later fits).map _
    exact (Occurrences.one reads).congr (all_push later)

theorem occurrences_unpacked {type : ScalarType} (framed : type.wireType = .lengthDelimited)
    (later : List type.Value)
    (fits : ∀ payload ∈ later.flatMap type.payloads, payload.length ≤ maxLength) :
    (repeated type).Occurrences number (Repeated.unpacked number type later)
      fun earlier => earlier ++ later := by
  induction later with
  | nil => exact Occurrences.none.congr fun earlier => (List.append_nil earlier).symm
  | cons value values ih =>
    rw [List.flatMap_cons, List.forall_mem_append] at fits
    have unpacked : ¬ Repeated.isPacked type.wireType.id type.wireType = true := by
      rw [isPacked_iff]
      exact fun both => both.2 framed
    have reads : ((repeated type).scan type.wireType.id).Reads (type.encode value)
        [fun list => list ++ [value]] := by
      simp only [scan, Repeated.scan, if_neg unpacked]
      exact (Scanner.Reads.ofReader (type.reads_encode value fits.1)).map _
    refine (Occurrences.more reads (ih fits.2)).congr fun earlier => ?_
    exact List.append_assoc earlier [value] values

/-! ### Embedded messages -/

theorem all_map_some {N : Type} (edits : List (Edit N)) (message : N) :
    Edit.all (edits.map fun edit (inner : Option N) => inner.map edit) (some message)
      = some (Edit.all edits message) := by
  induction edits generalizing message with
  | nil => rfl
  | cons edit edits ih => exact ih (edit message)

theorem occurrences_embedded (N : Type) [Message N] [LawfulMessage N] (later : Option N)
    (canonical : ∀ inner ∈ later, Message.IsCanonical inner)
    (fits : ∀ payload ∈ (embedded N).payloads later, payload.length ≤ maxLength) :
    (embedded N).Occurrences number ((embedded N).encode number later)
      fun earlier => (embedded N).overlay earlier later := by
  cases later with
  | none =>
    exact Occurrences.none.congr fun earlier => Option.merge_none_right.symm
  | some message =>
    simp only [payloads] at fits
    obtain ⟨outer, inner⟩ := List.forall_mem_cons.mp fits
    have makes := LawfulMessage.makes_encode message (canonical message rfl) inner
    have ended : (Message.scan N (Message.encode message)).fault = none :=
      congrArg Merged.fault (makes.merge_eq Message.empty)
    have effect : ∀ earlier, Edit.all (Message.scan N (Message.encode message)).items earlier
        = Message.overlay earlier message :=
      fun earlier => congrArg Merged.message (makes.merge_eq earlier)
    have reads : ((embedded N).scan WireType.lengthDelimited.id).Reads
        (Payload.encode (Message.encode message))
        ((fun message => some (message.getD Message.empty)) ::
          (Message.scan N (Message.encode message)).items.map
            fun edit (inner : Option N) => inner.map edit) := by
      intro more
      simp only [scan, Scanner.Reads.within (Payload.reads_encode outer) ended more, Scan.map]
    refine (Occurrences.one reads).congr fun earlier => ?_
    rw [Edit.all_cons, all_map_some, effect]
    cases earlier with
    | none => exact congrArg some (LawfulMessage.overlay_empty message (canonical message rfl))
    | some earlier => rfl

/-! ### Maps -/

theorem occurrences_entries (entries : List (String × String))
    (fits : ∀ payload ∈ entries.flatMap fun entry =>
      [Entry.encode (some ⟨.string, entry.1⟩) (some ⟨.string, entry.2⟩),
        Utf8.encode entry.1, Utf8.encode entry.2], payload.length ≤ maxLength) :
    textMap.Occurrences number
      (entries.flatMap fun entry => Tag.encode number .lengthDelimited ++
        Payload.encode (Entry.encode (some ⟨.string, entry.1⟩) (some ⟨.string, entry.2⟩)))
      (TextMap.insertAll entries) := by
  induction entries with
  | nil => exact .none
  | cons entry rest ih =>
    rw [List.flatMap_cons, List.forall_mem_append] at fits
    obtain ⟨outer, members⟩ := List.forall_mem_cons.mp fits.1
    obtain ⟨key, values⟩ := List.forall_mem_cons.mp members
    have whole := @Entry.reads_encode .string .string entry
      (List.forall_mem_singleton.mpr key) values outer
    have reads : (textMap.scan WireType.lengthDelimited.id).Reads
        (Payload.encode (Entry.encode (some ⟨.string, entry.1⟩) (some ⟨.string, entry.2⟩)))
        [fun map => map.insert entry.1 entry.2] :=
      (Scanner.Reads.ofReader whole).map _
    exact Occurrences.more reads (ih fits.2)

/-- **What a member is written as lays it over an earlier value**, if its payloads are short enough. -/
theorem occurrences_encode (kind : Kind V) (lawful : kind.Lawful) (later : V)
    (canonical : kind.IsCanonical later)
    (fits : ∀ payload ∈ kind.payloads later, payload.length ≤ maxLength) :
    kind.Occurrences number (kind.encode number later)
      fun earlier => kind.overlay earlier later := by
  cases kind with
  | singular type => exact occurrences_singular type later fits
  | enumeration => exact occurrences_enumeration _ later canonical
  | repeated type =>
    simp only [payloads] at fits
    by_cases framed : type.wireType = .lengthDelimited
    · simp only [encode, if_pos framed]
      rw [if_pos framed] at fits
      exact occurrences_unpacked framed later fits
    · simp only [encode, if_neg framed]
      rw [if_neg framed] at fits
      exact occurrences_packed framed later (fits _ (List.mem_singleton_self _))
  | embedded N =>
    have : LawfulMessage N := lawful
    exact occurrences_embedded N later canonical fits
  | textMap => exact occurrences_entries later.entries fits
  | alternative type choose chosen => exact occurrences_alternative type choose chosen later fits

end Kind

end Protobuf

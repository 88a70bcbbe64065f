/-
**Packed or not, the elements are the same.**

An occurrence of a repeated field is one element or a packed run of elements, and its framing tells which. A
list that is cut into pieces, each sent in either way, is put together again:

* `Repeated.Occurrence.Sent`: the bytes of an occurrence stand for its values, however they are spelled.
  `Repeated.Occurrence.Written` are the bytes that an encoder has for them;
* `Decoder.mergeRepeated`, `Decoder.mergeAll`: one occurrence appended to a list, and some in order;
* `Scanner.untilEnd_flatten`, `Repeated.untilEnd_elements`: a loop finds what lies one behind the other, and
  goes on;
* `Decoder.mergeRepeated_broken`: a run that breaks leaves its elements up to the one that fails, and the
  cursor behind its whole payload;
* `Decoder.mergeAll_interchangeable`: so the list does not depend on how it was sent;
* `FooBar.Example1.merge_sent`: nor does the list in a message.
-/

import Protobuf.Decoder.Session
import Protobuf.Proofs.Residue

namespace Protobuf

/-- A loop over parts one behind the other finds what is in them, and goes on. -/
theorem Scanner.untilEnd_flatten {α : Type} {scanner : Scanner α} (consuming : scanner.Consuming)
    {parts : List Bytes} {found : List (List α)} (reads : List.Forall₂ scanner.Reads parts found)
    (more : Bytes) :
    untilEnd scanner consuming (parts.flatten ++ more)
      = (untilEnd scanner consuming more).prepend found.flatten := by
  induction reads with
  | nil => rfl
  | cons one _ ih =>
    rw [List.flatten_cons, List.append_assoc, untilEnd_of_reads consuming one, ih, List.flatten_cons]
    simp only [Scan.prepend, List.append_assoc]

theorem Payload.announces_encode {payload : Bytes} (fits : payload.length ≤ maxLength) :
    Announces (Varint.encode payload.length) payload where
  length := Varint.reads_encode (by decide) (Nat.lt_of_le_of_lt fits (by decide))
  fits := fits

/-! ### Occurrences -/

namespace Repeated

variable {type : ScalarType}

/-- An occurrence of a repeated field: its framing, its bytes, and the values that they stand for. -/
structure Occurrence (type : ScalarType) where
  /-- The framing that its tag tells. -/
  wire : WireType
  /-- The bytes behind the tag. -/
  bytes : Bytes
  /-- The values. -/
  values : List type.Value

namespace Occurrence

/-- The bytes of an occurrence stand for its values. -/
inductive Sent : Occurrence type → Prop where
  /-- One element; it is not length-delimited, unless such elements are. -/
  | element {wire : WireType} {bytes : Bytes} {value : type.Value} :
    wire ≠ .lengthDelimited ∨ type.wireType = .lengthDelimited → type.read.Reads bytes value →
      Sent ⟨wire, bytes, [value]⟩
  /-- Some elements in one payload, or none. -/
  | run {header : Bytes} {elements : List Bytes} {values : List type.Value} :
    type.wireType ≠ .lengthDelimited → Payload.Announces header elements.flatten →
      List.Forall₂ type.read.Reads elements values →
      Sent ⟨.lengthDelimited, header ++ elements.flatten, values⟩

/-- The bytes of an occurrence are what an encoder has for its values. -/
inductive Written : Occurrence type → Prop where
  /-- One element, under its own framing. -/
  | element (value : type.Value) : Written ⟨type.wireType, type.encode value, [value]⟩
  /-- Some elements in one payload, or none. -/
  | run (values : List type.Value) : (values.flatMap type.encode).length ≤ maxLength →
    Written ⟨.lengthDelimited, Payload.encode (values.flatMap type.encode), values⟩

/-- **What is written is sent.** -/
theorem Written.sent (bare : type.wireType ≠ .lengthDelimited) {occurrence : Occurrence type}
    (written : occurrence.Written) : occurrence.Sent := by
  have reads (value : type.Value) : type.read.Reads (type.encode value) value :=
    type.reads_encode value (Kind.fits_of_bare bare value)
  cases written with
  | element value => exact .element (.inl bare) (reads value)
  | run values fits =>
    have elements : List.Forall₂ type.read.Reads (values.map type.encode) values :=
      List.forall₂_map_left_iff.mpr (List.forall₂_same.mpr fun value _ => reads value)
    exact .run bare (Payload.announces_encode fits) elements

end Occurrence

/-- The loop of a run over elements one behind the other. -/
theorem untilEnd_elements {elements : List Bytes} {values : List type.Value}
    (reads : List.Forall₂ type.read.Reads elements values) (more : Bytes) :
    Scanner.untilEnd (single type) (single_consuming type) (elements.flatten ++ more)
      = (Scanner.untilEnd (single type) (single_consuming type) more).prepend values := by
  have items : List.Forall₂ (single type).Reads elements (values.map fun value => [value]) :=
    List.forall₂_map_right_iff.mpr (reads.imp fun _ _ one => .ofReader one)
  rw [Scanner.untilEnd_flatten _ items, ← List.flatMap_def, List.flatMap_singleton']

theorem scan_framed (framed : type.wireType = .lengthDelimited) (wire : Nat) :
    scan wire type.wireType type = single type := by
  simp [scan, isPacked, framed]

theorem scan_run (bare : type.wireType ≠ .lengthDelimited) :
    scan WireType.lengthDelimited.id type.wireType type = run type :=
  if_pos ((Kind.isPacked_iff type .lengthDelimited).mpr ⟨rfl, bare⟩)

theorem scan_element {wire : WireType}
    (one : wire ≠ .lengthDelimited ∨ type.wireType = .lengthDelimited) :
    scan wire.id type.wireType type = single type := by
  refine if_neg fun packed => ?_
  obtain ⟨rfl, bare⟩ := (Kind.isPacked_iff type wire).mp packed
  exact one.elim (fun other => other rfl) bare

/-- **The values of an occurrence are read off its bytes**, whatever follows them. -/
theorem Occurrence.Sent.reads {occurrence : Occurrence type} (sent : occurrence.Sent) :
    (scan occurrence.wire.id type.wireType type).Reads occurrence.bytes occurrence.values := by
  cases sent with
  | element one reads =>
    rw [scan_element one]
    exact .ofReader reads
  | @run header elements values bare announces reads =>
    have found : Scanner.untilEnd (single type) (single_consuming type) elements.flatten
        = ⟨values, none, []⟩ := by
      have whole := untilEnd_elements reads []
      rw [List.append_nil, Scanner.untilEnd_nil, Scan.prepend, List.append_nil] at whole
      exact whole
    have whole := Scanner.Reads.within announces.reads (congrArg Scan.fault found)
    rw [found] at whole
    rw [scan_run bare]
    exact whole

/-- What a run leaves that breaks. -/
theorem Leaves.run_eq {body : Bytes} {fault : Fault} {values : List type.Value}
    (leaves : Leaves type body fault values) :
    (run type body).items = values ∧ (run type body).fault = some fault := by
  unfold run Scanner.within
  cases leaves with
  | unread failed => simp only [failed, and_self]
  | broken whole present reads stopped =>
    have last : Scanner.untilEnd (single type) (single_consuming type) _ = ⟨[], some fault, _⟩ :=
      Scanner.untilEnd_ofReader_error present stopped
    simp only [whole, untilEnd_elements reads, last, Scan.prepend, List.append_nil, and_self]

end Repeated

namespace Decoder

variable {type : ScalarType}

/-- Appends an occurrence of a repeated field to a list, and moves the cursor. -/
def mergeRepeated (type : ScalarType) (wire : Nat) (values : List type.Value) (decoder : Decoder) :
    List type.Value × Option Fault × Decoder :=
  let (found, fault, after) := decoder.scan (Repeated.scan wire type.wireType type)
  (values ++ found, fault, after)

/-- A session answers with what is appended to no list. -/
theorem Session.step_repeated (session : Session) (wire : Nat) :
    session.step (.repeated wire type.wireType type) =
      let (values, fault, top) := mergeRepeated type wire [] session.top
      (⟨some (.elements type values), fault⟩, { session with top }) :=
  rfl

/-- Appends some occurrences, given their framing bits, up to the first that fails. -/
def mergeAll (type : ScalarType) :
    List Nat → List type.Value → Decoder → List type.Value × Option Fault × Decoder
  | [], values, decoder => (values, none, decoder)
  | wire :: wires, values, decoder =>
    match mergeRepeated type wire values decoder with
    | (values, none, decoder) => mergeAll type wires values decoder
    | stopped => stopped

/-- **Occurrences in order append their values in order.** -/
theorem mergeAll_sent {occurrences : List (Repeated.Occurrence type)}
    (sent : ∀ occurrence ∈ occurrences, occurrence.Sent) (values : List type.Value)
    (span more : Bytes) :
    mergeAll type (occurrences.map fun occurrence => occurrence.wire.id) values
        ⟨span, occurrences.flatMap Repeated.Occurrence.bytes ++ more⟩
      = (values ++ occurrences.flatMap Repeated.Occurrence.values, none, ⟨span, more⟩) := by
  induction occurrences generalizing values with
  | nil => simp only [List.map_nil, mergeAll, List.flatMap_nil, List.nil_append, List.append_nil]
  | cons occurrence occurrences ih =>
    obtain ⟨first, rest⟩ := List.forall_mem_cons.mp sent
    simp only [List.map_cons, List.flatMap_cons, List.append_assoc, mergeAll, mergeRepeated, scan,
      first.reads (occurrences.flatMap Repeated.Occurrence.bytes ++ more), ih rest]

/-- **A run that breaks** leaves its elements up to the one that fails. The cursor is where it is behind the
payload of the run. -/
theorem mergeRepeated_broken (bare : type.wireType ≠ .lengthDelimited)
    {values list : List type.Value} {decoder after : Decoder} {fault : Fault} :
    mergeRepeated type WireType.lengthDelimited.id values decoder = (list, some fault, after) ↔
      (∃ found, Repeated.Leaves type decoder.unread fault found ∧ list = values ++ found) ∧
        after = (decoder.read Payload.read).2 := by
  -- the cursor does not depend on how far the loop came inside the payload
  have behind : { decoder with unread := (Repeated.run type decoder.unread).unread }
      = (decoder.read Payload.read).2 := by
    unfold Repeated.run Scanner.within read
    cases Payload.read decoder.unread <;> rfl
  simp only [mergeRepeated, Repeated.scan_run bare, scan, behind, Prod.mk.injEq]
  constructor
  · rintro ⟨rfl, failed, rfl⟩
    exact ⟨⟨_, Repeated.leaves_run failed, rfl⟩, rfl⟩
  · rintro ⟨⟨found, leaves, rfl⟩, rfl⟩
    obtain ⟨items, failed⟩ := leaves.run_eq
    exact ⟨by rw [items], failed, rfl⟩

/-- **Packed and unpacked occurrences are interchangeable.** What an encoder writes for some values that are not
length-delimited, as one element or as a run of any number, is sent. Occurrences that are sent, merged one
after the other, append their values and leave the cursor behind them, whatever follows. Elements that are
length-delimited come one in an occurrence, whatever its framing. A run that breaks leaves what it holds up
to the element that fails, and the cursor behind the whole run. -/
theorem mergeAll_interchangeable (type : ScalarType) :
    (type.wireType ≠ .lengthDelimited → ∀ occurrence : Repeated.Occurrence type,
      occurrence.Written → occurrence.Sent) ∧
    (∀ occurrences : List (Repeated.Occurrence type),
      (∀ occurrence ∈ occurrences, occurrence.Sent) →
      ∀ (values : List type.Value) (span more : Bytes),
        mergeAll type (occurrences.map fun occurrence => occurrence.wire.id) values
            ⟨span, occurrences.flatMap Repeated.Occurrence.bytes ++ more⟩
          = (values ++ occurrences.flatMap Repeated.Occurrence.values, none, ⟨span, more⟩)) ∧
    (type.wireType = .lengthDelimited →
      ∀ (wire : Nat) (values : List type.Value) (decoder : Decoder),
        mergeRepeated type wire values decoder =
          match decoder.read type.read with
          | (.ok value, after) => (values ++ [value], none, after)
          | (.error fault, after) => (values, some fault, after)) ∧
    (type.wireType ≠ .lengthDelimited →
      ∀ (values list : List type.Value) (decoder after : Decoder) (fault : Fault),
        mergeRepeated type WireType.lengthDelimited.id values decoder = (list, some fault, after) ↔
          (∃ found, Repeated.Leaves type decoder.unread fault found ∧ list = values ++ found) ∧
            after = (decoder.read Payload.read).2) := by
  refine ⟨fun bare occurrence written => written.sent bare,
    fun occurrences sent => mergeAll_sent sent, fun framed wire values decoder => ?_,
    fun bare values list decoder after fault => mergeRepeated_broken bare⟩
  simp only [mergeRepeated, Repeated.scan_framed framed, scan, Repeated.single, Scanner.ofReader, read]
  cases type.read decoder.unread with
  | ok value unread => rfl
  | error fault unread => simp only [List.append_nil]

/-- Fixed-width numbers in pieces: one alone, a run of two behind a length in two bytes, a run of none; and a
run that ends two bytes into its second element, though the bytes behind it would complete that. -/
theorem mergeAll_interchangeable_straddling :
    mergeAll .fixed32 [5, 2, 2] [7] ⟨[], [0x01, 0x00, 0x00, 0x00] ++ ([0x88, 0x00] ++
        [0x02, 0x00, 0x00, 0x00, 0x03, 0x00, 0x00, 0x00]) ++ [0x00] ++ [0x08]⟩
      = ([7, 1, 2, 3], none, ⟨[], [0x08]⟩) ∧
    mergeRepeated .fixed32 2 [7] ⟨[], [0x06, 0x01, 0x00, 0x00, 0x00, 0x02, 0x00] ++ [0x00, 0x00]⟩
      = ([7, 1], some (.bufferOverrun 4 2), ⟨[], [0x00, 0x00]⟩) := by
  have bare : ScalarType.fixed32.wireType ≠ .lengthDelimited := by decide
  have element (value : UInt32) (bytes : Bytes)
      (same : Bytes.littleEndian 4 value.toNat = bytes) :
      (ScalarType.read .fixed32).Reads bytes value :=
    same ▸ ScalarType.reads_encode .fixed32 value (Kind.fits_of_bare bare value)
  have one := element 1 [0x01, 0x00, 0x00, 0x00] (by decide)
  have two := element 2 [0x02, 0x00, 0x00, 0x00] (by decide)
  have three := element 3 [0x03, 0x00, 0x00, 0x00] (by decide)
  obtain ⟨written, merged, -, broken⟩ := mergeAll_interchangeable .fixed32
  constructor
  · have alone : (⟨.fixed32, [0x01, 0x00, 0x00, 0x00], [1]⟩ :
        Repeated.Occurrence .fixed32).Sent := written bare _ (.element 1)
    have run : (⟨.lengthDelimited, [0x88, 0x00] ++
        [[0x02, 0x00, 0x00, 0x00], [0x03, 0x00, 0x00, 0x00]].flatten, [2, 3]⟩ :
        Repeated.Occurrence .fixed32).Sent :=
      .run bare ⟨fun _ => rfl, by decide⟩ (.cons two (.cons three .nil))
    have nothing : (⟨.lengthDelimited, [0x00] ++ [].flatten, []⟩ :
        Repeated.Occurrence .fixed32).Sent := .run bare ⟨fun _ => rfl, by decide⟩ .nil
    exact merged [_, _, _] (List.forall_mem_cons.mpr ⟨alone, List.forall_mem_cons.mpr
      ⟨run, List.forall_mem_singleton.mpr nothing⟩⟩) [7] [] [0x08]
  · have whole : Payload.read ([0x06, 0x01, 0x00, 0x00, 0x00, 0x02, 0x00] ++ [0x00, 0x00])
        = .ok ([[0x01, 0x00, 0x00, 0x00]].flatten ++ [0x02, 0x00]) [0x00, 0x00] := rfl
    exact (broken bare _ _ _ _ _).mpr
      ⟨⟨[1], .broken whole (by decide) (.cons one .nil) rfl, rfl⟩, rfl⟩

end Decoder

/-! ### Lists in messages -/

/-- Occurrences under one number are occurrences of the member, and append their values. -/
theorem Kind.occurrences_sent {type : ScalarType} (number : Nat)
    {occurrences : List (Repeated.Occurrence type)}
    (sent : ∀ occurrence ∈ occurrences, occurrence.Sent) :
    (Kind.repeated type).Occurrences number
      (occurrences.flatMap fun occurrence =>
        Tag.encode number occurrence.wire ++ occurrence.bytes)
      fun earlier => earlier ++ occurrences.flatMap Repeated.Occurrence.values := by
  induction occurrences with
  | nil => exact Occurrences.none.congr fun earlier => (List.append_nil earlier).symm
  | cons occurrence occurrences ih =>
    obtain ⟨first, rest⟩ := List.forall_mem_cons.mp sent
    have reads : ((Kind.repeated type).scan occurrence.wire.id).Reads occurrence.bytes
        (occurrence.values.map fun value list => list ++ [value]) := by
      simp only [scan]
      exact first.reads.map _
    refine (Occurrences.more reads (ih rest)).congr fun earlier => ?_
    rw [Kind.all_push, List.flatMap_cons, List.append_assoc]

/-- **The list in a message does not depend on how it was sent.** -/
theorem FooBar.Example1.merge_sent {occurrences : List (Repeated.Occurrence .int64)}
    (sent : ∀ occurrence ∈ occurrences, occurrence.Sent) (message : Example1) :
    Message.merge (occurrences.flatMap fun occurrence =>
        Tag.encode 20 occurrence.wire ++ occurrence.bytes) message
      = ⟨{ message with
          manyint64 := message.manyint64 ++ occurrences.flatMap Repeated.Occurrence.values }, none⟩ := by
  have row := List.getElem_mem (l := fields) (n := 19) (by decide)
  have makes := (lawfulTable.lawful _ row).makes
    (fun wire => Message.payloadOf_row lawfulTable.distinct row wire)
    (Kind.occurrences_sent 20 sent)
  exact makes.merge_eq message

end Protobuf

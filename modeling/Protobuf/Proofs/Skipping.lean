/-
**Skipping and reading take the same bytes.**

A payload is skipped by its framing and read by its type. The reader of a type takes what skipping its
framing takes, and fails where skipping fails; only what it makes of a length-delimited payload can
add a failure.

* `ScalarType.map_read`: a value of a type other than `string` is read as its framing is skipped, fault
  for fault;
* `Reader.Skips`, `Scanner.Skips`: succeeds exactly where skipping a framing succeeds and the payload,
  if it is length-delimited, is accepted; and then leaves what skipping leaves;
* `Kind.scan_skips`: the reader of a row skips each framing of the row in this sense.
-/

import Protobuf.Conforming
import Protobuf.Proofs.ReadBack

namespace Protobuf

variable {α β : Type}

/-- A changed value is forgotten as the value is. -/
theorem Reader.forget_map (reader : Reader α) (change : α → β) :
    (fun _ => ()) <$> (change <$> reader) = (fun _ => ()) <$> reader := by
  funext bytes
  simp only [Functor.map, EStateM.map]
  cases reader bytes <;> rfl

namespace Payload

theorem skip_varint : skip WireType.varint.id = (fun _ => ()) <$> Varint.read 64 := by
  funext bytes
  show (do let _ ← Varint.read 64 : Reader Unit) bytes = _
  simp only [bind, EStateM.bind, Functor.map, EStateM.map]
  cases Varint.read 64 bytes <;> rfl

/-- Fixed-width numbers are read off as many bytes as are passed over. -/
theorem readFixed_eq (width : Nat) :
    readFixed width = Bytes.ofLittleEndian <$> Reader.exactly width := by
  funext bytes
  simp only [readFixed, bind, EStateM.bind, Functor.map, EStateM.map]
  cases Reader.exactly width bytes <;> rfl

theorem skip_fixed64 : skip WireType.fixed64.id = (fun _ => ()) <$> readFixed 8 := by
  rw [readFixed_eq, Reader.forget_map]
  exact discard_eq 8

theorem skip_fixed32 : skip WireType.fixed32.id = (fun _ => ()) <$> readFixed 4 := by
  rw [readFixed_eq, Reader.forget_map]
  exact discard_eq 4

/-- **Without a known framing nothing is skipped.** -/
theorem skip_other {wire : Nat} (other : ∀ framing : WireType, wire ≠ framing.id) (bytes : Bytes) :
    skip wire bytes = .error (.unknownWireType wire) bytes := by
  have unknown : WireType.ofId wire = .error (.unknownWireType wire) := by
    cases known : WireType.ofId wire with
    | ok framing => exact absurd (WireType.ofId_eq_ok.mp known) (other framing)
    | error fault =>
      unfold WireType.ofId at known
      split at known <;> cases known
      rfl
  rw [skip, unknown]
  rfl

end Payload

/-- **A value is read off the bytes that skipping its framing takes.** A `string` aside, reading and
skipping also fail alike. -/
theorem ScalarType.map_read (type : ScalarType) (unchecked : type ≠ .string) :
    (fun _ => ()) <$> type.read = Payload.skip type.wireType.id := by
  cases type with
  | uint64 => exact (Reader.forget_map _ _).trans Payload.skip_varint.symm
  | int64 => exact (Reader.forget_map _ _).trans Payload.skip_varint.symm
  | uint32 => exact (Reader.forget_map _ _).trans Payload.skip_varint.symm
  | int32 => exact (Reader.forget_map _ _).trans Payload.skip_varint.symm
  | sint32 => exact (Reader.forget_map _ _).trans Payload.skip_varint.symm
  | sint64 => exact (Reader.forget_map _ _).trans Payload.skip_varint.symm
  | bool => exact (Reader.forget_map _ _).trans Payload.skip_varint.symm
  | fixed32 => exact (Reader.forget_map _ _).trans Payload.skip_fixed32.symm
  | sfixed32 => exact (Reader.forget_map _ _).trans Payload.skip_fixed32.symm
  | float => exact (Reader.forget_map _ _).trans Payload.skip_fixed32.symm
  | fixed64 => exact (Reader.forget_map _ _).trans Payload.skip_fixed64.symm
  | sfixed64 => exact (Reader.forget_map _ _).trans Payload.skip_fixed64.symm
  | double => exact (Reader.forget_map _ _).trans Payload.skip_fixed64.symm
  | bytes => exact Payload.skip_lengthDelimited.symm
  | string => exact absurd rfl unchecked

/-! ### Skipping with an opinion on payloads -/

/-- Succeeds where a framing can be skipped and the payload is accepted, and leaves the same bytes. -/
def Reader.Skips (reader : Reader α) (wire : Nat) (accepts : Bytes → Prop) : Prop :=
  ∀ bytes rest, (∃ value, reader bytes = .ok value rest) ↔
    Payload.skip wire bytes = .ok () rest ∧
      ∀ payload ∈ Payload.delimited? wire bytes, accepts payload

/-- Ends without a fault where a framing can be skipped and the payload is accepted, and leaves the
same bytes. -/
def Scanner.Skips (scanner : Scanner α) (wire : Nat) (accepts : Bytes → Prop) : Prop :=
  ∀ bytes rest, ((scanner bytes).fault = none ∧ (scanner bytes).unread = rest) ↔
    Payload.skip wire bytes = .ok () rest ∧
      ∀ payload ∈ Payload.delimited? wire bytes, accepts payload

variable {wire : Nat} {accepts others : Bytes → Prop}

theorem Payload.mem_delimited? {bytes payload : Bytes} :
    payload ∈ delimited? wire bytes ↔
      wire = WireType.lengthDelimited.id ∧ ∃ rest, read bytes = .ok payload rest := by
  unfold delimited?
  by_cases framed : wire = WireType.lengthDelimited.id
  · rw [if_pos framed]
    cases read bytes <;> simp [framed]
  · simp [framed]

theorem Payload.skip_lengthDelimited_eq_ok {bytes rest : Bytes} :
    skip WireType.lengthDelimited.id bytes = .ok () rest ↔
      ∃ payload, read bytes = .ok payload rest := by
  rw [skip_lengthDelimited, Reader.map_eq_ok]
  simp

/-- What is accepted matters only of payloads that can be read. -/
theorem Scanner.Skips.congr {scanner : Scanner α} (skips : scanner.Skips wire accepts)
    (same : ∀ bytes, ∀ payload ∈ Payload.delimited? wire bytes, accepts payload ↔ others payload) :
    scanner.Skips wire others := by
  intro bytes rest
  rw [skips bytes rest]
  exact and_congr_right fun _ => forall₂_congr (same bytes)

/-- A reader that skips a framing other than the length-delimited one has no opinion on payloads. -/
theorem Scanner.Skips.of_ne {scanner : Scanner α} (skips : scanner.Skips wire accepts)
    (bare : wire ≠ WireType.lengthDelimited.id) : scanner.Skips wire others :=
  skips.congr fun _ _ member => absurd (Payload.mem_delimited?.mp member).1 bare

theorem Reader.Skips.ofReader {reader : Reader α} (skips : reader.Skips wire accepts) :
    (Scanner.ofReader reader).Skips wire accepts := by
  intro bytes rest
  rw [← skips bytes rest, Scanner.ofReader]
  cases reader bytes with
  | ok value unread => simp
  | error fault unread => simp

theorem Scanner.Skips.map {scanner : Scanner α} (skips : scanner.Skips wire accepts)
    (change : α → β) : (scanner.map change).Skips wire accepts :=
  skips

theorem Scanner.silent_skips (wire : Nat) :
    (Scanner.silent (Payload.skip wire) : Scanner α).Skips wire fun _ => True := by
  intro bytes rest
  rw [Scanner.silent]
  cases Payload.skip wire bytes with
  | ok value unread => simp
  | error fault unread => simp

/-- What is scanned within a payload is accepted if it is scanned without a fault. -/
theorem Scanner.within_skips (scanner : Scanner α) :
    (Scanner.within scanner).Skips WireType.lengthDelimited.id fun payload =>
      (scanner payload).fault = none := by
  intro bytes rest
  rw [Payload.skip_lengthDelimited_eq_ok, Scanner.within, Payload.delimited?, if_pos rfl]
  cases Payload.read bytes with
  | ok payload unread => simp [and_comm]
  | error fault unread => simp

/-! ### Scalars -/

/-- A string is read off a payload that is its bytes. -/
theorem ScalarType.readString_eq_ok {bytes rest : Bytes} {text : String} :
    readString bytes = .ok text rest ↔ Payload.read bytes = .ok (Utf8.encode text) rest := by
  unfold readString
  rw [Reader.bind_eq_ok]
  constructor
  · rintro ⟨payload, between, taken, checked⟩
    cases decoded : Utf8.decode payload with
    | error fault =>
      rw [decoded] at checked
      cases checked
    | ok other =>
      rw [decoded] at checked
      cases checked
      rw [taken, Utf8.decode_eq_ok.mp decoded]
  · intro taken
    refine ⟨Utf8.encode text, rest, taken, ?_⟩
    rw [Utf8.decode_encode]
    rfl

theorem ScalarType.read_skips (type : ScalarType) :
    type.read.Skips type.wireType.id type.Accepts := by
  intro bytes rest
  by_cases checked : type = .string
  · subst checked
    rw [show ScalarType.string.wireType.id = WireType.lengthDelimited.id from rfl,
      Payload.skip_lengthDelimited_eq_ok]
    simp only [Payload.mem_delimited?, true_and]
    constructor
    · rintro ⟨text, taken⟩
      have payload := readString_eq_ok.mp taken
      refine ⟨⟨_, payload⟩, ?_⟩
      rintro other ⟨left, again⟩
      rw [payload] at again
      cases again
      exact ⟨text, rfl⟩
    · rintro ⟨⟨payload, taken⟩, accepted⟩
      obtain ⟨text, rfl⟩ := accepted payload ⟨rest, taken⟩
      exact ⟨text, readString_eq_ok.mpr taken⟩
  · have everything : ∀ payload, type.Accepts payload := by
      cases type with
      | string => exact absurd rfl checked
      | _ => exact fun _ => trivial
    rw [← type.map_read checked, Reader.map_eq_ok]
    simp [everything]

/-! ### Runs, entries and messages -/

/-- A loop comes to an end without a fault exactly on a concatenation of what it repeats. -/
theorem Scanner.untilEnd_ofReader_fault {reader : Reader α} (delimited : reader.SelfDelimiting)
    {consuming : (ofReader reader).Consuming} {bytes : Bytes} :
    (untilEnd (ofReader reader) consuming bytes).fault = none ↔
      ∃ elements : List Bytes, elements.flatten = bytes ∧
        ∀ element ∈ elements, ∃ value, reader element = .ok value [] := by
  constructor
  · intro ended
    fun_induction untilEnd (ofReader reader) consuming bytes with
    | case1 => exact ⟨[], rfl, List.forall_mem_nil _⟩
    | case2 bytes more first continues ih =>
      cases taken : reader bytes with
      | error fault rest => simp only [first, ofReader, taken, reduceCtorEq] at continues
      | ok value rest =>
        have left : first.unread = rest := by simp only [first, ofReader, taken]
        rw [left] at ih ended
        obtain ⟨element, same, reads⟩ := delimited taken
        obtain ⟨elements, flattened, complete⟩ := ih ended
        have whole := reads []
        rw [List.append_nil] at whole
        refine ⟨element :: elements, ?_, List.forall_mem_cons.mpr ⟨⟨value, whole⟩, complete⟩⟩
        rw [List.flatten_cons, flattened, same]
    | case3 bytes more first stopped => exact absurd ended stopped
  · rintro ⟨elements, rfl, complete⟩
    induction elements with
    | nil => rw [List.flatten_nil, untilEnd_nil]
    | cons element elements ih =>
      obtain ⟨⟨value, taken⟩, complete⟩ := List.forall_mem_cons.mp complete
      obtain ⟨whole, same, reads⟩ := delimited taken
      rw [List.append_nil] at same
      rw [List.flatten_cons, same, untilEnd_ofReader_ok (reads elements.flatten)]
      exact ih complete

theorem Repeated.run_skips (type : ScalarType) :
    (run type).Skips WireType.lengthDelimited.id fun payload =>
      ∃ elements : List Bytes, elements.flatten = payload ∧
        ∀ element ∈ elements, ∃ value, type.read element = .ok value [] :=
  (Scanner.within_skips _).congr fun _ _ _ =>
    Scanner.untilEnd_ofReader_fault type.read_selfDelimiting

theorem Message.decode_isOk {M : Type} [Message M] {bytes : Bytes} :
    (∃ message : M, decode bytes = .ok message) ↔ (scan M bytes).fault = none := by
  simp only [decode, merge]
  cases (scan M bytes).fault <;> simp

/-- A payload that was read can be written. -/
theorem Payload.length_le_of_read {bytes payload rest : Bytes}
    (taken : read bytes = .ok payload rest) : payload.length ≤ maxLength := by
  obtain ⟨_, announces, -⟩ := announces_of_read taken
  exact announces.fits

namespace Entry

variable (key value : ScalarType)

/-- An entry is read where its fields are. -/
theorem read_isOk {bytes rest : Bytes} :
    (∃ entry, read key value bytes = .ok entry rest) ↔
      (Scanner.within (body key value) bytes).fault = none ∧
        (Scanner.within (body key value) bytes).unread = rest := by
  simp only [read]
  cases (Scanner.within (body key value) bytes).fault <;> simp

theorem read_encode_isOk {payload : Bytes} (fits : payload.length ≤ maxLength) :
    (∃ entry, read key value (Payload.encode payload) = .ok entry []) ↔
      (body key value payload).fault = none := by
  have taken := Payload.reads_encode fits []
  rw [List.append_nil] at taken
  rw [read_isOk, Scanner.within, taken]
  simp

theorem read_skips :
    (read key value).Skips WireType.lengthDelimited.id fun payload =>
      ∃ entry, read key value (Payload.encode payload) = .ok entry [] := by
  have skips : (Scanner.within (body key value)).Skips WireType.lengthDelimited.id fun payload =>
      ∃ entry, read key value (Payload.encode payload) = .ok entry [] := by
    refine (Scanner.within_skips (body key value)).congr fun bytes payload member => ?_
    obtain ⟨-, rest, taken⟩ := Payload.mem_delimited?.mp member
    exact (read_encode_isOk key value (Payload.length_le_of_read taken)).symm
  intro bytes rest
  rw [read_isOk]
  exact skips bytes rest

end Entry

/-! ### Rows -/

theorem Repeated.scan_skips {type : ScalarType} {wire : Nat}
    (declared : (Kind.repeated type).Declares wire) :
    (scan wire type.wireType type).Skips wire (Kind.repeated type).Accepts := by
  have single_skips : (single type).Skips type.wireType.id type.Accepts := type.read_skips.ofReader
  by_cases framed : type.wireType = .lengthDelimited
  · have accepts : (Kind.repeated type).Accepts = type.Accepts :=
      funext fun payload => if_pos framed
    have same : wire = type.wireType.id := by
      rcases declared with own | run
      · exact own
      · rw [run, framed]
    have bare : isPacked wire type.wireType = false := by simp [isPacked, framed]
    rw [scan, bare, accepts, same]
    exact single_skips
  · have other : type.wireType.id ≠ WireType.lengthDelimited.id := by
      cases type <;> first | decide | exact absurd rfl framed
    rcases declared with own | own
    · have bare : isPacked wire type.wireType = false := by simp [isPacked, own, other]
      rw [scan, bare, own]
      exact single_skips.of_ne other
    · have accepts : (Kind.repeated type).Accepts = fun payload =>
          ∃ elements : List Bytes, elements.flatten = payload ∧
            ∀ element ∈ elements, ∃ value, type.read element = .ok value [] :=
        funext fun payload => if_neg framed
      have packed : isPacked wire type.wireType = true := by simp [isPacked, own, framed]
      rw [scan, packed, accepts, own]
      exact run_skips type

theorem Kind.scan_skips {V : Type} {kind : Kind V} {wire : Nat} (declared : kind.Declares wire) :
    (kind.scan wire).Skips wire kind.Accepts := by
  cases kind with
  | singular type =>
    cases declared
    exact type.read_skips.ofReader.map _
  | enumeration =>
    cases declared
    exact (ScalarType.read_skips .int32).ofReader.map _
  | repeated type => exact (Repeated.scan_skips declared).map _
  | embedded N =>
    cases declared
    exact (Scanner.within_skips (Message.scan N)).congr fun _ _ _ => Message.decode_isOk.symm
  | textMap =>
    cases declared
    exact (Entry.read_skips .string .string).ofReader.map _
  | alternative type =>
    cases declared
    exact type.read_skips.ofReader.map _

end Protobuf

/-
**Where a failed read leaves the decoder.**

Each way to fail is told by the unread bytes alone, together with the fault and the bytes that are left.
These are the only ways, so that a caller who goes on after a fault knows what it goes on with.

* `Varint.Fails`, `Tag.Fails`, `Payload.Fails`: how a varint, a tag, and a payload of some framing fail.
  What the bytes are too short for is not begun, once its length is known;
* `Payload.FailsInside`: a payload that is there and has something wrong in it is consumed;
* `Payload.SkipFails`, `ScalarType.Fails`, `Decoder.Read.Fails`: how the reads of a decoder fail;
* `Reader.bind_eq_error`: a sequence fails by its first step, or behind it by its second;
* `Varint.read_eq_error`, `Tag.read_eq_error`, `Payload.read_eq_error`, … : each reader fails in its ways;
* `Payload.bind_ofExcept_eq_error`: so does whatever reads a payload and then looks into it;
* `Utf8.decode_refuses_iff`: what is wrong in the payload of a string;
* `Decoder.read_failed`: so does every read of a decoder;
* `Decoder.Session.step_failed`: and every operation of a session that is one read.
-/

import Protobuf.Decoder.Session
import Protobuf.Proofs.PrefixFree
import Protobuf.Proofs.VarintLanguage

namespace Protobuf

variable {α β : Type}

/-! ### The ways to fail -/

/-- How no varint is read off some bytes, and what is left of them. -/
inductive Varint.Fails : Bytes → Fault → Bytes → Prop where
  /-- The bytes end before the varint does; all are consumed. -/
  | overrun {bytes : Bytes} : (∀ byte ∈ bytes, 128 ≤ byte.toNat) → bytes.length < 10 →
    Fails bytes (.bufferOverrun 1 0) []
  /-- No varint ends within ten bytes; they are consumed. -/
  | invalid {digits rest : Bytes} : digits.length = 10 →
    (∀ front n, front <+: digits → ¬ Spells front n) → Fails (digits ++ rest) .invalidVarint rest

/-- How no tag is read off some bytes, and what is left of them. -/
inductive Tag.Fails : Bytes → Fault → Bytes → Prop where
  /-- There is no varint. -/
  | unread {bytes rest : Bytes} {fault : Fault} : Varint.Fails bytes fault rest →
    Fails bytes fault rest
  /-- The varint has no field number, or one that is too large; it is consumed. -/
  | outside {head rest : Bytes} {raw : Nat} : Varint.Spells head raw → raw < 8 ∨ 2 ^ 32 ≤ raw →
    Fails (head ++ rest) (.invalidTag raw) rest

namespace Payload

/-- How no payload of a framing is taken off some bytes, and what is left of them. -/
inductive Fails : WireType → Bytes → Fault → Bytes → Prop where
  /-- There is no varint. -/
  | varint {bytes rest : Bytes} {fault : Fault} : Varint.Fails bytes fault rest →
    Fails .varint bytes fault rest
  /-- Fewer than four bytes are left; none is consumed. -/
  | fixed32 {bytes : Bytes} : bytes.length < 4 →
    Fails .fixed32 bytes (.bufferOverrun 4 bytes.length) bytes
  /-- Fewer than eight bytes are left; none is consumed. -/
  | fixed64 {bytes : Bytes} : bytes.length < 8 →
    Fails .fixed64 bytes (.bufferOverrun 8 bytes.length) bytes
  /-- There is no length. -/
  | length {bytes rest : Bytes} {fault : Fault} : Varint.Fails bytes fault rest →
    Fails .lengthDelimited bytes fault rest
  /-- No payload may have the length, however many bytes follow it; it is consumed. -/
  | malformed {head rest : Bytes} {n : Nat} : Varint.Spells head n → 2 ^ 31 ≤ n →
    Fails .lengthDelimited (head ++ rest) (.malformedLength n) rest
  /-- Fewer bytes follow than the length says; the length is consumed. -/
  | overrun {head rest : Bytes} {n : Nat} : Varint.Spells head n → n < 2 ^ 31 → rest.length < n →
    Fails .lengthDelimited (head ++ rest) (.bufferOverrun n rest.length) rest

/-- How a payload is not taken, or is taken and has a fault in it. Then it is consumed to its end. -/
inductive FailsInside (faulty : Bytes → Fault → Prop) : Bytes → Fault → Bytes → Prop where
  /-- There is no payload. -/
  | before {bytes rest : Bytes} {fault : Fault} : Fails .lengthDelimited bytes fault rest →
    FailsInside faulty bytes fault rest
  /-- There is a payload. -/
  | inside {head payload rest : Bytes} {fault : Fault} : Varint.Spells head payload.length →
    payload.length < 2 ^ 31 → faulty payload fault →
      FailsInside faulty (head ++ payload ++ rest) fault rest

/-- How nothing is skipped under some framing bits. -/
inductive SkipFails (wire : Nat) : Bytes → Fault → Bytes → Prop where
  /-- They are those of a framing. -/
  | framed {framing : WireType} {bytes rest : Bytes} {fault : Fault} : wire = framing.id →
    Fails framing bytes fault rest → SkipFails wire bytes fault rest
  /-- They are not; nothing is consumed. -/
  | unknown {bytes : Bytes} : (∀ framing : WireType, wire ≠ framing.id) →
    SkipFails wire bytes (.unknownWireType wire) bytes

end Payload

/-- How no value of a type is read. What a string has in it is looked at when its payload is taken. -/
def ScalarType.Fails : ScalarType → Bytes → Fault → Bytes → Prop
  | .string => Payload.FailsInside fun payload fault =>
      ∃ cause, Utf8.decode payload = .error cause ∧ fault = .invalidUtf8 cause
  | type => Payload.Fails type.wireType

/-- Scanning some bytes to their end meets a fault. -/
def Scanner.Faulty (scanner : Scanner α) (bytes : Bytes) (fault : Fault) : Prop :=
  (scanner bytes).fault = some fault

/-- How the values of an occurrence are not read: in a run all of them are inside its payload. -/
def Repeated.Fails (wire : Nat) (element : WireType) (type : ScalarType) :
    Bytes → Fault → Bytes → Prop :=
  if wire = WireType.lengthDelimited.id ∧ element ≠ .lengthDelimited then
    Payload.FailsInside (Scanner.Faulty (Scanner.untilEnd (single type) (single_consuming type)))
  else type.Fails

/-- How a read fails. -/
def Decoder.Read.Fails : Read → Bytes → Fault → Bytes → Prop
  | tag => Tag.Fails
  | scalar type => type.Fails
  | payload => Payload.Fails .lengthDelimited
  | skip wire => Payload.SkipFails wire
  | «repeated» wire element type _ => Repeated.Fails wire element type
  | entry key value => Payload.FailsInside (Entry.body key value).Faulty
  | message type _ => Payload.FailsInside (Message.scan type.Value).Faulty

/-! ### Readers -/

section

variable {bytes rest : Bytes} {fault : Fault}

namespace Reader

/-- A sequence fails by its first step, or by its second behind what the first takes. -/
theorem bind_eq_error {first : Reader α} {next : α → Reader β} :
    (first >>= next) bytes = .error fault rest ↔
      first bytes = .error fault rest ∨
        ∃ middle between,
          first bytes = .ok middle between ∧ next middle between = .error fault rest := by
  simp only [bind, EStateM.bind]
  cases first bytes <;> simp [and_assoc]

theorem map_eq_error {reader : Reader α} {change : α → β} :
    (change <$> reader) bytes = .error fault rest ↔ reader bytes = .error fault rest := by
  simp only [Functor.map, EStateM.map]
  cases reader bytes <;> simp

theorem throw_eq_error {thrown : Fault} :
    (throw thrown : Reader α) bytes = .error fault rest ↔ fault = thrown ∧ rest = bytes := by
  show EStateM.Result.error thrown bytes = _ ↔ _
  simp [eq_comm]

theorem ofExcept_eq_error {result : Except Fault α} :
    ofExcept result bytes = .error fault rest ↔ result = .error fault ∧ rest = bytes := by
  cases result with
  | ok value => exact ⟨nofun, nofun⟩
  | error thrown =>
    rw [Except.error.injEq, eq_comm (a := thrown)]
    exact throw_eq_error

/-- What there are too few bytes for takes none of them. -/
theorem exactly_eq_error {count : Nat} :
    exactly count bytes = .error fault rest ↔
      bytes.length < count ∧ fault = .bufferOverrun count bytes.length ∧ rest = bytes := by
  by_cases short : bytes.length < count
  · simp [exactly, bind, EStateM.bind, atLeast, short, eq_comm]
  · simp [exactly, bind, EStateM.bind, atLeast, take, short]

end Reader

namespace Varint

/-- A number is read off its spellings. -/
theorem read_eq_ok {n : Nat} :
    read 64 bytes = .ok n rest ↔ ∃ head, Spells head n ∧ bytes = head ++ rest := by
  constructor
  · intro taken
    obtain ⟨head, rfl, spells⟩ := spells_of_read taken
    exact ⟨head, spells, rfl⟩
  · rintro ⟨head, spells, rfl⟩
    exact spells.reads rest

theorem fails_of_read (failed : read 64 bytes = .error fault rest) : Fails bytes fault rest := by
  rcases fault_of_readFrom (by decide) failed with
    ⟨rfl, rfl, all, short⟩ | ⟨rfl, digits, rfl, less, reached⟩
  · exact .overrun all (by omega)
  · refine .invalid (by omega) ?_
    rintro front n ⟨behind, rfl⟩ spells
    rw [List.append_assoc, spells.reads] at failed
    cases failed

/-- A failure rules out that there is a number. -/
theorem Fails.not_read (fails : Fails bytes fault rest) (n : Nat) (left : Bytes) :
    read 64 bytes ≠ .ok n left := by
  intro taken
  cases fails with
  | overrun all _ =>
    obtain ⟨byte, member, last⟩ := List.findIdx_lt_length.mp (ending_of_read taken).1
    exact absurd (of_decide_eq_true last) (Nat.not_lt_of_le (all byte member))
  | @invalid digits _ length none =>
    obtain ⟨head, spells, same⟩ := read_eq_ok.mp taken
    have front : head <+: digits ++ rest := same ▸ List.prefix_append head left
    exact none head n (List.prefix_of_prefix_length_le front (List.prefix_append digits rest)
      (length.symm ▸ spells.short)) spells

/-- The bytes alone tell how a varint fails. -/
theorem Fails.unique {other : Fault} {left : Bytes} (fails : Fails bytes fault rest)
    (again : Fails bytes other left) : other = fault ∧ left = rest := by
  cases fails with
  | overrun _ short =>
    cases again with
    | overrun => exact ⟨rfl, rfl⟩
    | invalid length => exact absurd short (by rw [List.length_append]; omega)
  | @invalid digits _ length =>
    generalize same : digits ++ rest = bytes at again
    cases again with
    | overrun _ short => exact absurd short (by rw [← same, List.length_append]; omega)
    | invalid count =>
      exact ⟨rfl, (List.append_inj same (length.trans count.symm)).2.symm⟩

/-- **No varint is read exactly where none is there.** -/
theorem read_eq_error : read 64 bytes = .error fault rest ↔ Fails bytes fault rest := by
  refine ⟨fails_of_read, fun fails => ?_⟩
  cases result : read 64 bytes with
  | ok n left => exact absurd result (fails.not_read n left)
  | error other left =>
    obtain ⟨rfl, rfl⟩ := fails.unique (fails_of_read result)
    rfl

end Varint

namespace Tag

theorem ofRaw_eq_error {raw : Nat} :
    ofRaw raw = .error fault ↔ (raw < 8 ∨ 2 ^ 32 ≤ raw) ∧ fault = .invalidTag raw := by
  have range : (raw / 8 = 0 ∨ maxFieldNumber < raw / 8) ↔ (raw < 8 ∨ 2 ^ 32 ≤ raw) := by
    unfold maxFieldNumber
    omega
  rw [← range, ofRaw]
  split
  · next outside =>
    rw [Except.error.injEq, and_iff_right outside]
    exact eq_comm
  · next inside => simp only [inside, false_and, reduceCtorEq]

/-- **How reading a tag fails.** -/
theorem read_eq_error : read bytes = .error fault rest ↔ Fails bytes fault rest := by
  unfold read
  simp only [Reader.bind_eq_error, Varint.read_eq_error, Varint.read_eq_ok, Reader.ofExcept_eq_error,
    ofRaw_eq_error]
  constructor
  · rintro (unread | ⟨raw, _, ⟨head, spells, rfl⟩, ⟨outside, rfl⟩, rfl⟩)
    · exact .unread unread
    · exact .outside spells outside
  · intro fails
    cases fails with
    | unread unread => exact .inl unread
    | outside spells outside => exact .inr ⟨_, _, ⟨_, spells, rfl⟩, ⟨outside, rfl⟩, rfl⟩

end Tag

namespace Payload

/-- A payload is read behind a length in any spelling. -/
theorem read_eq_ok {payload : Bytes} :
    read bytes = .ok payload rest ↔
      ∃ head, Varint.Spells head payload.length ∧ payload.length < 2 ^ 31 ∧
        bytes = head ++ payload ++ rest := by
  constructor
  · intro taken
    obtain ⟨header, announces, rfl⟩ := announces_of_read taken
    obtain ⟨head, spells, same⟩ := Varint.read_eq_ok.mp (announces.length [])
    rw [List.append_nil, List.append_nil] at same
    exact ⟨header, same ▸ spells, Nat.lt_succ_of_le announces.fits, rfl⟩
  · rintro ⟨head, spells, admitted, rfl⟩
    exact reads_spelled spells (Nat.le_of_lt_succ admitted) rest

/-- **How reading a payload fails.** -/
theorem read_eq_error : read bytes = .error fault rest ↔ Fails .lengthDelimited bytes fault rest := by
  rw [read_eq]
  simp only [Reader.bind_eq_error, Varint.read_eq_error, Varint.read_eq_ok]
  constructor
  · rintro (unread | ⟨n, left, ⟨head, spells, rfl⟩, refused⟩)
    · exact .length unread
    · split at refused
      · next long =>
        obtain ⟨rfl, rfl⟩ := Reader.throw_eq_error.mp refused
        exact .malformed spells long
      · next admitted =>
        obtain ⟨short, rfl, rfl⟩ := Reader.exactly_eq_error.mp refused
        exact .overrun spells (Nat.lt_succ_of_le (Nat.le_of_not_lt admitted)) short
  · intro fails
    cases fails with
    | length unread => exact .inl unread
    | malformed spells long =>
      refine .inr ⟨_, _, ⟨_, spells, rfl⟩, ?_⟩
      rw [if_pos (show maxLength < _ from long)]
      exact Reader.throw_eq_error.mpr ⟨rfl, rfl⟩
    | overrun spells admitted short =>
      refine .inr ⟨_, _, ⟨_, spells, rfl⟩, ?_⟩
      rw [if_neg (show ¬ maxLength < _ from Nat.not_lt_of_le (Nat.le_of_lt_succ admitted))]
      exact Reader.exactly_eq_error.mpr ⟨short, rfl, rfl⟩

theorem readFixed_eq_error {width : Nat} :
    readFixed width bytes = .error fault rest ↔
      bytes.length < width ∧ fault = .bufferOverrun width bytes.length ∧ rest = bytes := by
  rw [readFixed_eq, Reader.map_eq_error]
  exact Reader.exactly_eq_error

/-- **How skipping a payload of a framing fails.** -/
theorem skip_id_eq_error (framing : WireType) :
    skip framing.id bytes = .error fault rest ↔ Fails framing bytes fault rest := by
  cases framing with
  | varint =>
    rw [skip_varint, Reader.map_eq_error, Varint.read_eq_error]
    exact ⟨.varint, fun fails => by cases fails with | varint unread => exact unread⟩
  | fixed64 =>
    rw [skip_fixed64, Reader.map_eq_error, readFixed_eq_error]
    constructor
    · rintro ⟨short, rfl, rfl⟩
      exact .fixed64 short
    · intro fails
      cases fails with
      | fixed64 short => exact ⟨short, rfl, rfl⟩
  | lengthDelimited => rw [skip_lengthDelimited, Reader.map_eq_error, read_eq_error]
  | fixed32 =>
    rw [skip_fixed32, Reader.map_eq_error, readFixed_eq_error]
    constructor
    · rintro ⟨short, rfl, rfl⟩
      exact .fixed32 short
    · intro fails
      cases fails with
      | fixed32 short => exact ⟨short, rfl, rfl⟩

theorem skip_eq_error {wire : Nat} :
    skip wire bytes = .error fault rest ↔ SkipFails wire bytes fault rest := by
  by_cases known : ∃ framing : WireType, wire = framing.id
  · obtain ⟨framing, rfl⟩ := known
    rw [skip_id_eq_error]
    refine ⟨.framed rfl, fun fails => ?_⟩
    cases fails with
    | @framed other _ _ _ same fails =>
      have one : framing = other := by
        have known := WireType.ofId_id framing
        rw [same, WireType.ofId_id] at known
        exact (Except.ok.inj known).symm
      exact one ▸ fails
    | unknown other => exact absurd rfl (other framing)
  · have other : ∀ framing : WireType, wire ≠ framing.id := not_exists.mp known
    rw [skip_other other]
    constructor
    · intro failed
      cases failed
      exact .unknown other
    · intro fails
      cases fails with
      | framed same => exact absurd same (other _)
      | unknown => rfl

/-- **How looking into a payload fails.** -/
theorem bind_ofExcept_eq_error {content : Bytes → Except Fault α} {faulty : Bytes → Fault → Prop}
    (means : ∀ payload fault, content payload = .error fault ↔ faulty payload fault) :
    (read >>= fun payload => Reader.ofExcept (content payload)) bytes = .error fault rest ↔
      FailsInside faulty bytes fault rest := by
  simp only [Reader.bind_eq_error, read_eq_error, read_eq_ok, Reader.ofExcept_eq_error, means]
  constructor
  · rintro (unread | ⟨payload, _, ⟨head, spells, admitted, rfl⟩, wrong, rfl⟩)
    · exact .before unread
    · exact .inside spells admitted wrong
  · intro fails
    cases fails with
    | before unread => exact .inl unread
    | inside spells admitted wrong => exact .inr ⟨_, _, ⟨_, spells, admitted, rfl⟩, wrong, rfl⟩

end Payload

/-- **What is refused is the bytes of no text.** -/
theorem Utf8.decode_refuses_iff {payload : Bytes} :
    (∃ cause, decode payload = .error cause) ↔ ∀ text, payload ≠ encode text := by
  constructor
  · rintro ⟨cause, refused⟩ text rfl
    rw [decode_encode] at refused
    cases refused
  · intro no_text
    cases decoded : decode payload with
    | error cause => exact ⟨cause, rfl⟩
    | ok text => exact absurd (decode_eq_ok.mp decoded).symm (no_text text)

/-- **How reading a value fails.** -/
theorem ScalarType.read_eq_error {type : ScalarType} :
    type.read bytes = .error fault rest ↔ type.Fails bytes fault rest := by
  by_cases text : type = .string
  · subst text
    refine Payload.bind_ofExcept_eq_error fun payload fault => ?_
    cases Utf8.decode payload <;> simp [Except.mapError, eq_comm]
  · have fails : type.Fails = Payload.Fails type.wireType := by
      cases type with
      | string => exact absurd rfl text
      | _ => rfl
    rw [fails, ← Payload.skip_id_eq_error, ← type.map_read text, Reader.map_eq_error]

/-- **How scanning a payload fails**: as taking it does, or as scanning it does, and then behind it. -/
theorem Scanner.within_eq_error {scanner : Scanner α} :
    (within scanner).collect bytes = .error fault rest ↔
      Payload.FailsInside scanner.Faulty bytes fault rest := by
  rw [collect_within]
  refine Payload.bind_ofExcept_eq_error fun payload fault => ?_
  unfold Faulty
  cases (scanner payload).fault <;> simp

theorem Repeated.scan_eq_error {wire : Nat} {element : WireType} {type : ScalarType} :
    (scan wire element type).collect bytes = .error fault rest ↔
      Fails wire element type bytes fault rest := by
  have packed : isPacked wire element = true ↔
      wire = WireType.lengthDelimited.id ∧ element ≠ .lengthDelimited := by
    simp [isPacked]
  unfold Fails scan
  simp only [← packed]
  split
  · exact Scanner.within_eq_error
  · rw [single, Scanner.collect_ofReader, Reader.map_eq_error, ScalarType.read_eq_error]

end

/-! ### Decoders -/

namespace Decoder

/-- **A read fails in its ways, and in no other.** -/
theorem Read.reader_eq_error (what : Read) {bytes rest : Bytes} {fault : Fault} :
    what.reader bytes = .error fault rest ↔ what.Fails bytes fault rest := by
  cases what with
  | tag => exact Tag.read_eq_error
  | scalar type => exact ScalarType.read_eq_error
  | payload => exact Reader.map_eq_error.trans Payload.read_eq_error
  | skip wire => exact Payload.skip_eq_error
  | «repeated» wire element type values => exact Reader.map_eq_error.trans Repeated.scan_eq_error
  | entry key value =>
    show Entry.read key value bytes = _ ↔ _
    rw [Entry.read_eq, Reader.map_eq_error]
    exact Scanner.within_eq_error
  | message type target => exact Reader.map_eq_error.trans Scanner.within_eq_error

/-- A decoder fails as its reader does, with its cursor where that stops. -/
theorem read_eq_error_iff {reader : Reader α} {decoder after : Decoder} {fault : Fault} :
    decoder.read reader = (.error fault, after) ↔
      ∃ rest, reader decoder.unread = .error fault rest ∧ after = { decoder with unread := rest } := by
  unfold read
  cases reader decoder.unread <;> simp [eq_comm]

theorem scan_eq_fault_iff {scanner : Scanner α} {decoder after : Decoder} {fault : Fault} :
    (decoder.scan scanner).2 = (some fault, after) ↔
      ∃ rest, scanner.collect decoder.unread = .error fault rest ∧
        after = { decoder with unread := rest } := by
  simp only [scan, Scanner.collect_eq_error, Prod.mk.injEq]
  constructor
  · rintro ⟨stopped, rfl⟩
    exact ⟨_, ⟨stopped, rfl⟩, rfl⟩
  · rintro ⟨_, ⟨stopped, rfl⟩, rfl⟩
    exact ⟨stopped, rfl⟩

/-- **Every failed read leaves the decoder where its fault says.** The reads of a decoder fail in the ways
told of them, which the unread bytes decide, and in no other; the cursor is then in front of the bytes left.
Whatever is scanned within a payload, of any message or by any loop, it is behind the payload, wherever the
scan came to its fault. The payload of a string is refused if and only if it is the bytes of no text. -/
theorem read_failed (decoder after : Decoder) (fault : Fault) :
    (∀ what : Read, decoder.read what.reader = (.error fault, after) ↔
      ∃ rest, what.Fails decoder.unread fault rest ∧ after = { decoder with unread := rest }) ∧
    (∀ {α : Type} (scanner : Scanner α),
      (decoder.scan (Scanner.within scanner)).2 = (some fault, after) ↔
        ∃ rest, Payload.FailsInside scanner.Faulty decoder.unread fault rest ∧
          after = { decoder with unread := rest }) ∧
    ∀ payload, (∃ cause, Utf8.decode payload = .error cause) ↔ ∀ text, payload ≠ Utf8.encode text := by
  refine ⟨fun what => ?_, fun scanner => ?_, fun payload => Utf8.decode_refuses_iff⟩
  · simp only [read_eq_error_iff, what.reader_eq_error]
  · simp only [scan_eq_fault_iff, Scanner.within_eq_error]

/-- The key of an entry is cut by the end of the entry. What is behind would complete it, and is left. -/
example : (ofBytes [0x02, 0x08, 0x96, 0x01]).read (Entry.read .int32 .string)
    = (.error (.bufferOverrun 1 0), ⟨[0x02, 0x08, 0x96, 0x01], [0x01]⟩) := by cbv

/-! ### Sessions -/

/-- What an operation reads, if it is one read. -/
def Operation.read? : Operation → Option Read
  | scalar type => some (.scalar type)
  | tag => some .tag
  | enter => some .payload
  | skip wire => some (.skip wire)
  | «repeated» wire element type => some (.repeated wire element type [])
  | entry key value => some (.entry key value)
  | message type => some (.message type Message.empty)
  | fork | leave | skipField => none

namespace Session

variable {session next : Session} {fault : Fault}

theorem read_eq_fault_iff {reader : Reader α} {finding : α → Finding} :
    ((session.read reader finding).1.fault = some fault ∧ (session.read reader finding).2 = next) ↔
      ∃ rest, reader session.top.unread = .error fault rest ∧
        next = { session with top := { session.top with unread := rest } } := by
  unfold read Decoder.read
  cases reader session.top.unread <;> simp [eq_comm]

theorem scan_eq_fault_iff {scanner : Scanner α} {finding : List α → Finding} :
    ((session.scan scanner finding).1.fault = some fault ∧ (session.scan scanner finding).2 = next) ↔
      ∃ rest, scanner.collect session.top.unread = .error fault rest ∧
        next = { session with top := { session.top with unread := rest } } := by
  simp only [scan, Decoder.scan, Scanner.collect_eq_error]
  constructor
  · rintro ⟨stopped, rfl⟩
    exact ⟨_, ⟨stopped, rfl⟩, rfl⟩
  · rintro ⟨_, ⟨stopped, rfl⟩, rfl⟩
    exact ⟨stopped, rfl⟩

/-- **A session goes on with what a failed read leaves**, and with the decoders below as they were. -/
theorem step_failed {operation : Operation} {what : Read} (asks : operation.read? = some what) :
    ((session.step operation).1.fault = some fault ∧ (session.step operation).2 = next) ↔
      ∃ rest, what.Fails session.top.unread fault rest ∧
        next = { session with top := { session.top with unread := rest } } := by
  simp only [← what.reader_eq_error]
  cases operation with
  | scalar type =>
    cases asks
    exact read_eq_fault_iff
  | tag =>
    cases asks
    exact read_eq_fault_iff
  | enter =>
    cases asks
    simp only [step, Decoder.read, Read.reader, Reader.map_eq_error]
    cases Payload.read session.top.unread <;> simp [eq_comm]
  | skip wire =>
    cases asks
    exact read_eq_fault_iff
  | «repeated» wire element type =>
    cases asks
    simp only [Read.reader, Reader.map_eq_error]
    exact scan_eq_fault_iff
  | entry key value =>
    cases asks
    exact read_eq_fault_iff
  | message type =>
    cases asks
    simp only [Read.reader, Reader.map_eq_error]
    exact scan_eq_fault_iff
  | fork => cases asks
  | leave => cases asks
  | skipField => cases asks

end Session

end Decoder

end Protobuf

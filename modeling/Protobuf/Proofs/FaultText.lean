/-
**The text of a fault is short.**

A fault tells numbers: a position, a length, a tag. They are numbers of 64 bits, if the bytes that are
read are so many, and a text that tells two of them has at most a hundred bytes.

* `Utf8.length_encode_repr`: a number of 64 bits is told in twenty digits;
* `Fault.length_message_le`: so the text of a fault is short if its numbers are (`Fault.Fits`);
* `Reader.FaultsFit`: a reader has no other faults, in bytes of an admitted number. Sequences of such
  readers are such, and so are scanners and the loops over them;
* `Utf8.Fault.fits_of_decode`, `Payload.read_faultsFit`, `Tag.read_faultsFit`, … : all readers of the
  library are such;
* `MessageType.length_message_le`: so the fault of a message of whatever type has a short text.
-/

import Mathlib.Data.Nat.Digits.Defs
import Protobuf.Proofs.Width

namespace Protobuf

variable {α β : Type}

/-! ### Texts -/

namespace Utf8

theorem encode_append (first second : String) :
    encode (first ++ second) = encode first ++ encode second := by
  rw [encode, String.toList_append, List.flatMap_append]
  rfl

/-- Digits are written in a byte each. -/
theorem length_flatMap_digits {chars : List Char} (digits : ∀ char ∈ chars, char.isDigit = true) :
    (chars.flatMap String.utf8EncodeChar).length = chars.length := by
  induction chars with
  | nil => rfl
  | cons char chars ih =>
    obtain ⟨first, others⟩ := List.forall_mem_cons.mp digits
    simp only [Char.isDigit, Bool.and_eq_true, decide_eq_true_eq] at first
    have ascii : char.utf8Size = 1 :=
      Char.utf8Size_eq_one_iff.mpr (UInt32.le_trans first.2 (by decide))
    rw [List.flatMap_cons, List.length_append, String.length_utf8EncodeChar, ascii, ih others,
      List.length_cons, Nat.add_comm]

theorem length_encode_repr {n : Nat} (fits : n < UInt64.size) : (encode n.repr).length ≤ 20 := by
  have digits : ∀ char ∈ n.repr.toList, char.isDigit = true := fun char member => by
    rw [Nat.repr, String.toList_ofList] at member
    exact Nat.isDigit_of_mem_toDigits (by decide) (by decide) member
  rw [encode, length_flatMap_digits digits, String.length_toList]
  exact Nat.repr_length n 20 (by decide) (Nat.lt_trans fits (by decide))

/-- Whether the numbers of a fault have at most 64 bits. -/
def Fault.Fits : Fault → Prop
  | incomplete index => index < UInt64.size
  | invalid length index => length < UInt64.size ∧ index < UInt64.size

theorem Fault.length_message_le {fault : Fault} (fits : fault.Fits) :
    (encode fault.message).length ≤ 84 := by
  cases fault with
  | incomplete index =>
    have text : (encode "incomplete utf-8 byte sequence from index ").length = 42 := by decide +kernel
    have number := length_encode_repr fits
    show (encode ("incomplete utf-8 byte sequence from index " ++ index.repr)).length ≤ 84
    rw [encode_append, List.length_append]
    omega
  | invalid length index =>
    have text : (encode "invalid utf-8 sequence of ").length = 26 := by decide +kernel
    have middle : (encode " bytes from index ").length = 18 := by decide +kernel
    have one := length_encode_repr fits.1
    have two := length_encode_repr fits.2
    show (encode ("invalid utf-8 sequence of " ++ length.repr ++ " bytes from index "
      ++ index.repr)).length ≤ 84
    simp only [encode_append, List.length_append]
    omega

end Utf8

/-- Whether the numbers of a fault have at most 64 bits. A misuse is no fault of what is read. -/
def Fault.Fits : Fault → Prop
  | bufferOverrun needed remaining => needed < UInt64.size ∧ remaining < UInt64.size
  | invalidTag raw => raw < UInt64.size
  | unknownWireType wire => wire < UInt64.size
  | malformedLength length => length < UInt64.size
  | invalidVarint => True
  | invalidUtf8 fault => fault.Fits
  | misuse _ => False

/-- **The text of a fault has at most a hundred bytes.** -/
theorem Fault.length_message_le {fault : Fault} (fits : fault.Fits) :
    (Utf8.encode fault.message).length ≤ 100 := by
  cases fault with
  | bufferOverrun needed remaining =>
    have text : (Utf8.encode "buffer overrun: needed ").length = 23 := by decide +kernel
    have middle : (Utf8.encode " bytes, ").length = 8 := by decide +kernel
    have last : (Utf8.encode " remaining").length = 10 := by decide +kernel
    have one := Utf8.length_encode_repr fits.1
    have two := Utf8.length_encode_repr fits.2
    show (Utf8.encode ("buffer overrun: needed " ++ needed.repr ++ " bytes, " ++ remaining.repr
      ++ " remaining")).length ≤ 100
    simp only [Utf8.encode_append, List.length_append]
    omega
  | invalidTag raw =>
    have text : (Utf8.encode "invalid tag: ").length = 13 := by decide +kernel
    have number := Utf8.length_encode_repr fits
    show (Utf8.encode ("invalid tag: " ++ raw.repr)).length ≤ 100
    rw [Utf8.encode_append, List.length_append]
    omega
  | unknownWireType wire =>
    have text : (Utf8.encode "unknown wire type: ").length = 19 := by decide +kernel
    have number := Utf8.length_encode_repr fits
    show (Utf8.encode ("unknown wire type: " ++ wire.repr)).length ≤ 100
    rw [Utf8.encode_append, List.length_append]
    omega
  | malformedLength length =>
    have text : (Utf8.encode "malformed length: ").length = 18 := by decide +kernel
    have number := Utf8.length_encode_repr fits
    show (Utf8.encode ("malformed length: " ++ length.repr)).length ≤ 100
    rw [Utf8.encode_append, List.length_append]
    omega
  | invalidVarint =>
    show (Utf8.encode "invalid varint").length ≤ 100
    decide +kernel
  | invalidUtf8 fault =>
    have text : (Utf8.encode "invalid utf-8: ").length = 15 := by decide +kernel
    have inner := Utf8.Fault.length_message_le fits
    show (Utf8.encode ("invalid utf-8: " ++ fault.message)).length ≤ 100
    rw [Utf8.encode_append, List.length_append]
    omega
  | misuse cause => exact fits.elim

/-! ### Readers -/

namespace Reader

/-- Whether a reader of bytes of an admitted number has no faults but those with short numbers. -/
def FaultsFit (reader : Reader α) : Prop :=
  ∀ ⦃bytes fault unread⦄, bytes.length < UInt64.size → reader bytes = .error fault unread → fault.Fits

theorem FaultsFit.pure (value : α) : FaultsFit (Pure.pure value : Reader α) :=
  fun _ _ _ _ failed => nomatch failed

theorem FaultsFit.throw {fault : Fault} (fits : fault.Fits) : FaultsFit (throw fault : Reader α) := by
  intro bytes other unread _ failed
  cases failed
  exact fits

theorem FaultsFit.ofExcept {result : Except Fault α}
    (fits : ∀ fault, result = .error fault → fault.Fits) : (ofExcept result).FaultsFit := by
  cases result with
  | ok value => exact .pure value
  | error fault => exact .throw (fits fault rfl)

theorem FaultsFit.bind {first : Reader α} {next : α → Reader β} (one : first.FaultsFit)
    (bounded : first.Bounded)
    (two : ∀ {bytes value unread}, bytes.length < UInt64.size → first bytes = .ok value unread →
      (next value).FaultsFit) : (first >>= next).FaultsFit := by
  intro bytes fault unread small failed
  simp only [Bind.bind, EStateM.bind] at failed
  cases read : first bytes with
  | ok value between =>
    rw [read] at failed
    exact two small read (Nat.lt_of_le_of_lt (bounded read) small) failed
  | error other between =>
    rw [read] at failed
    cases failed
    exact one small read

theorem FaultsFit.map {reader : Reader α} (fits : reader.FaultsFit) (change : α → β) :
    (change <$> reader).FaultsFit := by
  intro bytes fault unread small failed
  simp only [Functor.map, EStateM.map] at failed
  cases read : reader bytes with
  | ok value between =>
    rw [read] at failed
    cases failed
  | error other between =>
    rw [read] at failed
    cases failed
    exact fits small read

theorem exactly_faultsFit {count : Nat} (admitted : count < UInt64.size) :
    (exactly count).FaultsFit := by
  intro bytes fault unread small failed
  simp only [exactly, Bind.bind, EStateM.bind, atLeast, take] at failed
  by_cases short : bytes.length < count
  · rw [if_pos short] at failed
    cases failed
    exact ⟨admitted, small⟩
  · simp only [if_neg short] at failed
    cases failed

end Reader

/-- A varint is cut, or has too many bits. -/
theorem Varint.readFrom_error {width shift value : Nat} {bytes unread : Bytes} {fault : Fault}
    (failed : readFrom width shift value bytes = .error fault unread) :
    fault = .bufferOverrun 1 0 ∨ fault = .invalidVarint ∨ ∃ cause, fault = .misuse cause := by
  induction bytes generalizing shift value with
  | nil =>
    cases failed
    exact .inl rfl
  | cons byte rest ih =>
    simp only [readFrom] at failed
    split at failed
    · cases failed
      exact .inr (.inr ⟨_, rfl⟩)
    split at failed
    · cases failed
      exact .inr (.inl rfl)
    split at failed
    · cases failed
    · exact ih failed

theorem Varint.read_faultsFit {width : Nat} (positive : 0 < width) : (read width).FaultsFit := by
  intro bytes fault unread small failed
  rcases readFrom_error failed with rfl | rfl | ⟨cause, rfl⟩
  · exact ⟨by decide, by decide⟩
  · exact trivial
  · have ends := read_safe positive bytes
    rw [failed] at ends
    exact ends.2.elim

theorem Tag.read_faultsFit : Tag.read.FaultsFit := by
  refine (Varint.read_faultsFit (by decide)).bind (Varint.read_consuming 64).bounded
    fun {bytes} {raw} {unread} _ taken => .ofExcept fun fault refused => ?_
  obtain ⟨front, -, spells⟩ := Varint.spells_of_read taken
  unfold ofRaw at refused
  split at refused
  · cases refused
    exact spells.fits
  · cases refused

/-- The framing of a tag is three bits. -/
theorem Tag.wire_lt_of_read {bytes unread : Bytes} {tag : Tag}
    (taken : Tag.read bytes = .ok tag unread) : tag.wire < 8 := by
  obtain ⟨raw, between, one, two⟩ := Reader.bind_eq_ok.mp taken
  unfold ofRaw at two
  split at two
  · cases two
  · cases two
    exact Nat.mod_lt raw (by decide)

namespace Payload

theorem maxLength_lt : maxLength < UInt64.size := by decide

theorem read_faultsFit : read.FaultsFit := by
  rw [read_eq]
  refine (Varint.read_faultsFit (by decide)).bind (Varint.read_consuming 64).bounded
    fun {bytes} {length} {unread} _ taken => ?_
  obtain ⟨front, -, spells⟩ := Varint.spells_of_read taken
  split
  · exact .throw spells.fits
  · exact Reader.exactly_faultsFit spells.fits

theorem readFixed_faultsFit {width : Nat} (admitted : width < UInt64.size) :
    (readFixed width).FaultsFit := by
  rw [readFixed_eq]
  exact (Reader.exactly_faultsFit admitted).map _

theorem skip_faultsFit {wire : Nat} (admitted : wire < UInt64.size) : (skip wire).FaultsFit := by
  refine Reader.FaultsFit.bind (.ofExcept fun fault refused => ?_) (.ofExcept _)
    fun {bytes} {known} {unread} _ _ => ?_
  · unfold WireType.ofId at refused
    split at refused <;> cases refused
    exact admitted
  · cases known with
    | varint =>
      exact (Varint.read_faultsFit (by decide)).bind (Varint.read_consuming 64).bounded
        fun _ _ => .pure _
    | fixed64 =>
      show (discard 8).FaultsFit
      rw [discard_eq]
      exact (Reader.exactly_faultsFit (by decide)).map _
    | fixed32 =>
      show (discard 4).FaultsFit
      rw [discard_eq]
      exact (Reader.exactly_faultsFit (by decide)).map _
    | lengthDelimited =>
      show (skip WireType.lengthDelimited.id).FaultsFit
      rw [skip_lengthDelimited]
      exact read_faultsFit.map _

end Payload

/-! ### Strings -/

namespace Utf8

theorem length_le_of_invalid {first : UInt8} {rest : Bytes} {length : Nat}
    (wrong : head first rest = .invalid length) : length ≤ 3 := by
  unfold head at wrong
  repeat' split at wrong
  all_goals cases wrong
  all_goals decide

theorem Fault.fits_of_decodeFrom {index : Nat} {bytes : Bytes} {fault : Fault}
    (small : index + bytes.length < UInt64.size) (failed : decodeFrom index bytes = .error fault) :
    fault.Fits := by
  fun_induction decodeFrom index bytes with
  | case1 => cases failed
  | case2 index first rest wrong =>
    cases failed
    exact Nat.lt_of_le_of_lt (Nat.le_add_right _ _) small
  | case3 index first rest length wrong =>
    cases failed
    exact ⟨Nat.lt_of_le_of_lt (length_le_of_invalid wrong) (by decide),
      Nat.lt_of_le_of_lt (Nat.le_add_right _ _) small⟩
  | case4 index first rest char left taken ih =>
    have shorter := length_le_of_head taken
    cases inner : decodeFrom (index + (rest.length + 1 - left.length)) left with
    | error other =>
      rw [inner] at failed
      cases failed
      refine ih ?_ inner
      rw [List.length_cons] at small
      omega
    | ok others =>
      rw [inner] at failed
      cases failed

theorem Fault.fits_of_decode {bytes : Bytes} {fault : Fault} (small : bytes.length < UInt64.size)
    (failed : decode bytes = .error fault) : fault.Fits := by
  unfold decode at failed
  cases inner : decodeFrom 0 bytes with
  | error other =>
    rw [inner] at failed
    cases failed
    exact fits_of_decodeFrom (by rwa [Nat.zero_add]) inner
  | ok chars =>
    rw [inner] at failed
    cases failed

end Utf8

namespace ScalarType

theorem readString_faultsFit : readString.FaultsFit := by
  refine Payload.read_faultsFit.bind Payload.read_consuming.bounded
    fun {bytes} {payload} {unread} _ taken => .ofExcept fun fault refused => ?_
  cases checked : Utf8.decode payload with
  | ok text =>
    rw [checked] at refused
    cases refused
  | error wrong =>
    rw [checked] at refused
    cases refused
    exact Utf8.Fault.fits_of_decode
      (Nat.lt_of_le_of_lt (Payload.length_le_of_read taken) Payload.maxLength_lt) checked

theorem read_faultsFit (type : ScalarType) : type.read.FaultsFit :=
  type.read_induction (P := Reader.FaultsFit) (fun change fits => fits.map change)
    (Varint.read_faultsFit (by decide)) (Payload.readFixed_faultsFit (by decide))
    (Payload.readFixed_faultsFit (by decide)) Payload.read_faultsFit readString_faultsFit

end ScalarType

/-! ### Scanners

A scanner has the faults of the reader of all its items. -/

namespace Scanner

/-- Whether a scanner of bytes of an admitted number has no faults but those with short numbers. -/
def FaultsFit (scanner : Scanner α) : Prop := scanner.collect.FaultsFit

theorem FaultsFit.fits {scanner : Scanner α} (fits : scanner.FaultsFit) {bytes : Bytes} {fault : Fault}
    (small : bytes.length < UInt64.size) (stopped : (scanner bytes).fault = some fault) : fault.Fits :=
  fits small (collect_eq_error.mpr ⟨stopped, rfl⟩)

theorem FaultsFit.ofReader {reader : Reader α} (fits : reader.FaultsFit) :
    (ofReader reader).FaultsFit := by
  rw [FaultsFit, collect_ofReader]
  exact fits.map _

theorem FaultsFit.silent {reader : Reader Unit} (fits : reader.FaultsFit) :
    (silent reader : Scanner α).FaultsFit := by
  rw [FaultsFit, collect_silent]
  exact fits.map _

theorem FaultsFit.map {scanner : Scanner α} (fits : scanner.FaultsFit) (change : α → β) :
    (scanner.map change).FaultsFit := by
  rw [FaultsFit, collect_map]
  exact Reader.FaultsFit.map fits _

theorem FaultsFit.after_tag {next : Tag → Scanner β}
    (fits : ∀ tag : Tag, tag.wire < 8 → (next tag).FaultsFit) : (after Tag.read next).FaultsFit := by
  rw [FaultsFit, collect_after]
  exact Tag.read_faultsFit.bind Tag.read_consuming.bounded
    fun _ taken => fits _ (Tag.wire_lt_of_read taken)

theorem FaultsFit.within {scanner : Scanner α} (fits : scanner.FaultsFit) :
    (within scanner).FaultsFit := by
  rw [FaultsFit, collect_within]
  refine Payload.read_faultsFit.bind Payload.read_consuming.bounded
    fun {bytes} {payload} {unread} _ taken => .ofExcept fun fault refused => ?_
  split at refused
  · cases refused
  · next found =>
    cases refused
    exact fits.fits (Nat.lt_of_le_of_lt (Payload.length_le_of_read taken) Payload.maxLength_lt) found

/-- **A loop has the faults of its rounds.** -/
theorem untilEnd_faultsFit {scanner : Scanner α} (consuming : scanner.Consuming)
    (fits : scanner.FaultsFit) : FaultsFit (untilEnd scanner consuming) := by
  intro bytes fault unread small failed
  obtain ⟨stopped, -⟩ := collect_eq_error.mp failed
  clear failed
  fun_induction untilEnd scanner consuming bytes with
  | case1 => cases stopped
  | case2 bytes more first continues ih =>
    exact ih (Nat.lt_trans (consuming continues) small) stopped
  | case3 bytes more first _ => exact fits.fits small stopped

end Scanner

theorem Repeated.scan_faultsFit (wire : Nat) (element : WireType) (type : ScalarType) :
    (Repeated.scan wire element type).FaultsFit := by
  have single : (Repeated.single type).FaultsFit := .ofReader type.read_faultsFit
  unfold Repeated.scan
  split
  · exact (Scanner.untilEnd_faultsFit (Repeated.single_consuming type) single).within
  · exact single

theorem Entry.read_faultsFit (key value : ScalarType) : (Entry.read key value).FaultsFit := by
  have body : (Entry.body key value).FaultsFit := by
    refine Scanner.untilEnd_faultsFit _ (.after_tag fun tag bits => ?_)
    unfold Entry.member
    split
    · exact (Scanner.FaultsFit.ofReader key.read_faultsFit).map _
    · split
      · exact (Scanner.FaultsFit.ofReader value.read_faultsFit).map _
      · exact .silent (Payload.skip_faultsFit (Nat.lt_trans bits (by decide)))
  rw [Entry.read_eq]
  exact Reader.FaultsFit.map body.within _

/-! ### Fields and messages -/

/-- Whether what is embedded, if anything is, has no faults but those with short numbers. -/
def Kind.FaultsFit : {V : Type} → Kind V → Prop
  | _, embedded N => (Message.scan N).FaultsFit
  | _, _ => True

theorem Kind.scan_faultsFit {V : Type} {kind : Kind V} (inner : kind.FaultsFit) (wire : Nat) :
    (kind.scan wire).FaultsFit := by
  cases kind with
  | singular type => exact (Scanner.FaultsFit.ofReader type.read_faultsFit).map _
  | enumeration => exact (Scanner.FaultsFit.ofReader (ScalarType.read_faultsFit .int32)).map _
  | «repeated» type => exact (Repeated.scan_faultsFit _ _ _).map _
  | embedded N =>
    rw [Scanner.FaultsFit, Kind.collect_embedded]
    exact Reader.FaultsFit.map ((Scanner.FaultsFit.within inner).map _) _
  | textMap => exact (Scanner.FaultsFit.ofReader (Entry.read_faultsFit _ _)).map _
  | alternative type => exact (Scanner.FaultsFit.ofReader type.read_faultsFit).map _

theorem Message.scan_faultsFit {M : Type} [Message M] {fields : List (Field M)}
    (table : ∀ tag, (payload tag : Scanner (Edit M)) = payloadOf fields tag)
    (inner : ∀ row ∈ fields, row.kind.FaultsFit) : (scan M).FaultsFit := by
  refine Scanner.untilEnd_faultsFit _ (.after_tag fun tag bits => ?_)
  rw [table, payloadOf]
  split
  · next row found =>
    exact (Kind.scan_faultsFit (inner row (List.mem_of_find?_eq_some found)) tag.wire).map _
  · exact .silent (Payload.skip_faultsFit (Nat.lt_trans bits (by decide)))

namespace MessageType

theorem faultsFit (type : MessageType) : ∀ row ∈ type.fields, row.kind.FaultsFit := by
  cases type
  all_goals
    simp only [fields, FooBar.Example1.fields, FooBar.Example1.Example2.fields, FooBar.Example2.fields,
      FizBaz.Example2.fields, Conformance.Request.fields, Conformance.Response.fields,
      Conformance.FailureSet.fields, List.forall_mem_cons, List.not_mem_nil, false_implies,
      implies_true, and_true]
    repeat' apply And.intro
  all_goals first
    | exact trivial
    | exact Message.scan_faultsFit (MessageType.payload_eq .example1Example2)
        (List.forall_mem_singleton.mpr trivial)
    | exact Message.scan_faultsFit (MessageType.payload_eq .example2)
        (List.forall_mem_singleton.mpr trivial)
    | exact Message.scan_faultsFit (MessageType.payload_eq .fizBazExample2)
        (List.forall_mem_singleton.mpr trivial)

/-- **The fault of a message has a short text**, of whatever type the message is. -/
theorem length_message_le (type : MessageType) {bytes : Bytes} {fault : Fault}
    (small : bytes.length < UInt64.size)
    (failed : (Message.decode bytes : Except Fault type.Value) = .error fault) :
    (Utf8.encode fault.message).length ≤ 100 := by
  have scan : (Message.scan type.Value).FaultsFit :=
    Message.scan_faultsFit type.payload_eq type.faultsFit
  refine Fault.length_message_le (scan.fits small ?_)
  simp only [Message.decode, Message.merge] at failed
  split at failed
  · cases failed
  · next stopped =>
    cases failed
    exact stopped

end MessageType

end Protobuf

/-
**No primitive is called outside its domain.**

`Reader.Safe` says what holds of a reader however it ends: what it leaves unread is an end of the bytes
it was given, so that no byte is met twice, and its fault, if there is one, is a fault of the input. It
is never a `Misuse`, that is, no more bytes are taken than are left and no digit is placed at or beyond
the width of its number.

* `Reader.Safe.bind`, `Reader.Safe.map`: sequences of safe readers are safe;
* `Reader.exactly_safe`: taking bytes is safe behind the check that they are there;
* `Varint.readFrom_eq_round`: the bytes of a varint are taken so too;
* `Varint.readFrom_safe`: the loop over them keeps its shift below the width. The byte that reaches the
  width is refused if it has its high bit set, since that bit counts among its digits;
* `ScalarType.read_safe`, `Entry.read_safe`, `Payload.skip_safe`, … : so are all readers of the library;
* `Scanner.untilEnd_safe`, `Message.scan_safe`: and the loops over them. What is embedded is safe by the
  table of its own type (`Kind.Sound`).
-/

import Protobuf.Proofs.Truncation
import Protobuf.Proofs.UnknownFields

namespace Protobuf

variable {α β : Type}

/-- Whether a fault is one of the input, not of the reader. -/
def Fault.OfInput : Fault → Prop
  | misuse _ => False
  | _ => True

/-! ### Readers -/

namespace Reader

/-- Whether a reader of these bytes may end so. -/
def Ends (bytes : Bytes) : Result α → Prop
  | .ok _ unread => unread <:+ bytes
  | .error fault unread => unread <:+ bytes ∧ fault.OfInput

/-- Leaves an end of what it is given, and fails for the input alone. -/
def Safe (reader : Reader α) : Prop := ∀ bytes, Ends bytes (reader bytes)

theorem Ends.trans {first second : Bytes} {result : Result α} (ends : Ends second result)
    (suffix : second <:+ first) : Ends first result := by
  cases result with
  | ok value unread => exact List.IsSuffix.trans ends suffix
  | error fault unread => exact ⟨ends.1.trans suffix, ends.2⟩

theorem Safe.pure (value : α) : Safe (Pure.pure value : Reader α) :=
  fun bytes => List.suffix_refl bytes

theorem Safe.throw {fault : Fault} (proper : fault.OfInput) : Safe (throw fault : Reader α) :=
  fun bytes => ⟨List.suffix_refl bytes, proper⟩

theorem Safe.bind {first : Reader α} {next : α → Reader β} (one : first.Safe)
    (two : ∀ value, (next value).Safe) : (first >>= next).Safe := by
  intro bytes
  have begun := one bytes
  simp only [Bind.bind, EStateM.bind]
  cases read : first bytes with
  | ok value unread =>
    rw [read] at begun
    exact (two value unread).trans begun
  | error fault unread =>
    rw [read] at begun
    exact begun

theorem Safe.map {reader : Reader α} (safe : reader.Safe) (change : α → β) :
    (change <$> reader).Safe := by
  intro bytes
  have ends := safe bytes
  simp only [Functor.map, EStateM.map]
  cases read : reader bytes with
  | ok value unread =>
    rw [read] at ends
    exact ends
  | error fault unread =>
    rw [read] at ends
    exact ends

theorem Safe.ofExcept {result : Except Fault α}
    (proper : ∀ fault, result = .error fault → fault.OfInput) : (ofExcept result).Safe := by
  cases result with
  | ok value => exact .pure value
  | error fault => exact .throw (proper fault rfl)

/-- **Taking bytes is safe behind the check that they are there.** -/
theorem exactly_safe (count : Nat) : (exactly count).Safe := by
  intro bytes
  simp only [exactly, bind, EStateM.bind, atLeast, take]
  by_cases short : bytes.length < count
  · rw [if_pos short]
    exact ⟨List.suffix_refl bytes, trivial⟩
  · simp only [if_neg short]
    exact List.drop_suffix count bytes

end Reader

/-! ### Varints -/

namespace Varint

/-- Reads on as `readFrom` does, but takes the next byte as all other bytes are taken. -/
def round (width shift value : Nat) : Reader Nat := do
  let byte ← Bytes.ofLittleEndian <$> Reader.exactly 1
  fun rest =>
    if width ≤ shift then .error (.misuse (.overshift shift width)) rest
    else if width - shift ≤ 7 ∧ width - shift < bitLength byte then .error .invalidVarint rest
    else if byte < 128 then .ok (value + byte <<< shift) rest
    else readFrom width (shift + 7) (value + (byte % 128) <<< shift) rest

/-- **The bytes of a varint are taken behind a check that they are there.** -/
theorem readFrom_eq_round (width shift value : Nat) :
    readFrom width shift value = round width shift value := by
  funext bytes
  cases bytes with
  | nil => rfl
  | cons byte rest =>
    have taken : (Bytes.ofLittleEndian <$> Reader.exactly 1 : Reader Nat) (byte :: rest)
        = .ok byte.toNat rest := by
      refine Reader.map_eq_ok.mpr ⟨[byte], Reader.exactly_eq_ok.mpr ⟨rfl, rfl⟩, ?_⟩
      simp [Bytes.ofLittleEndian]
    simp only [round, bind, EStateM.bind, taken, readFrom]

theorem le_bitLength {n : Nat} (large : 128 ≤ n) : 8 ≤ bitLength n := by
  have nonzero : n ≠ 0 := by omega
  have digits : 7 ≤ n.log2 := (Nat.le_log2 nonzero).mpr large
  rw [bitLength, if_neg nonzero]
  omega

/-- **The shift stays below the width.** -/
theorem readFrom_safe {width shift : Nat} (room : shift < width) (value : Nat) :
    Reader.Safe (readFrom width shift value) := by
  intro bytes
  induction bytes generalizing shift value with
  | nil => exact ⟨List.suffix_refl _, trivial⟩
  | cons byte rest ih =>
    have suffix : rest <:+ byte :: rest := List.suffix_cons byte rest
    simp only [readFrom, if_neg (Nat.not_le_of_lt room)]
    by_cases surplus : width - shift ≤ 7 ∧ width - shift < bitLength byte.toNat
    · rw [if_pos surplus]
      exact ⟨suffix, trivial⟩
    rw [if_neg surplus]
    by_cases last : byte.toNat < 128
    · rw [if_pos last]
      exact suffix
    · rw [if_neg last]
      have digits := le_bitLength (Nat.le_of_not_lt last)
      have further : shift + 7 < width := by omega
      exact (ih further _).trans suffix

theorem read_safe {width : Nat} (positive : 0 < width) : (read width).Safe :=
  readFrom_safe positive 0

end Varint

/-! ### The readers of the library -/

theorem Tag.read_safe : Tag.read.Safe := by
  refine (Varint.read_safe (by decide)).bind fun raw => .ofExcept fun fault refused => ?_
  unfold ofRaw at refused
  split at refused
  · cases refused
    exact trivial
  · cases refused

namespace Payload

theorem read_safe : read.Safe := by
  rw [read_eq]
  refine (Varint.read_safe (by decide)).bind fun length => ?_
  split
  · exact .throw trivial
  · exact Reader.exactly_safe length

theorem readFixed_safe (width : Nat) : (readFixed width).Safe :=
  (Reader.exactly_safe width).bind fun _ => .pure _

theorem discard_safe (count : Nat) : (discard count).Safe := by
  rw [discard_eq]
  exact (Reader.exactly_safe count).map _

theorem skip_safe (wire : Nat) : (skip wire).Safe := by
  refine Reader.Safe.bind (.ofExcept fun fault refused => ?_) fun known => ?_
  · unfold WireType.ofId at refused
    split at refused <;> cases refused
    exact trivial
  · cases known with
    | varint => exact (Varint.read_safe (by decide)).bind fun _ => .pure _
    | fixed64 => exact discard_safe 8
    | fixed32 => exact discard_safe 4
    | lengthDelimited =>
      show (skip WireType.lengthDelimited.id).Safe
      rw [skip_lengthDelimited]
      exact read_safe.map _

end Payload

theorem ScalarType.readString_safe : readString.Safe := by
  refine Payload.read_safe.bind fun payload => .ofExcept fun fault refused => ?_
  cases checked : Utf8.decode payload with
  | ok text =>
    rw [checked] at refused
    cases refused
  | error wrong =>
    rw [checked] at refused
    cases refused
    exact trivial

theorem ScalarType.read_safe (type : ScalarType) : type.read.Safe :=
  type.read_induction (P := Reader.Safe) (fun change safe => safe.map change)
    (Varint.read_safe (by decide)) (Payload.readFixed_safe 4) (Payload.readFixed_safe 8)
    Payload.read_safe readString_safe

/-! ### Scanners

A scanner is safe if the reader of all its items is. -/

namespace Scanner

/-- Leaves an end of what it is given, and stops for the input alone. -/
def Safe (scanner : Scanner α) : Prop := scanner.collect.Safe

theorem safe_iff {scanner : Scanner α} :
    scanner.Safe ↔ ∀ bytes, (scanner bytes).unread <:+ bytes ∧
      ∀ fault ∈ (scanner bytes).fault, fault.OfInput := by
  refine forall_congr' fun bytes => ?_
  unfold collect
  obtain ⟨items, fault, unread⟩ := scanner bytes
  cases fault <;> simp [Reader.Ends]

theorem Safe.ofReader {reader : Reader α} (safe : reader.Safe) : (ofReader reader).Safe := by
  rw [Safe, collect_ofReader]
  exact safe.map _

theorem Safe.silent {reader : Reader Unit} (safe : reader.Safe) :
    (silent reader : Scanner α).Safe := by
  rw [Safe, collect_silent]
  exact safe.map _

theorem Safe.map {scanner : Scanner α} (safe : scanner.Safe) (change : α → β) :
    (scanner.map change).Safe := by
  rw [Safe, collect_map]
  exact Reader.Safe.map safe _

theorem Safe.after {reader : Reader α} {next : α → Scanner β} (one : reader.Safe)
    (two : ∀ value, (next value).Safe) : (after reader next).Safe := by
  rw [Safe, collect_after]
  exact one.bind two

theorem Safe.within {scanner : Scanner α} (safe : scanner.Safe) : (within scanner).Safe := by
  rw [Safe, collect_within]
  refine Payload.read_safe.bind fun payload => .ofExcept fun fault refused => ?_
  obtain ⟨-, proper⟩ := safe_iff.mp safe payload
  split at refused
  · cases refused
  · next found =>
    cases refused
    exact proper fault found

/-- **A loop over a safe scanner is safe.** -/
theorem untilEnd_safe {scanner : Scanner α} (consuming : scanner.Consuming) (safe : scanner.Safe) :
    Safe (untilEnd scanner consuming) := by
  refine safe_iff.mpr fun bytes => ?_
  fun_induction untilEnd scanner consuming bytes with
  | case1 => exact ⟨List.suffix_refl _, fun _ none => absurd none (Option.not_mem_none _)⟩
  | case2 bytes more first continues ih =>
    exact ⟨ih.1.trans (safe_iff.mp safe bytes).1, ih.2⟩
  | case3 bytes more first stopped => exact safe_iff.mp safe bytes

end Scanner

theorem Repeated.scan_safe (wire : Nat) (element : WireType) (type : ScalarType) :
    (Repeated.scan wire element type).Safe := by
  have single : (Repeated.single type).Safe := .ofReader type.read_safe
  unfold Repeated.scan
  split
  · exact (Scanner.untilEnd_safe (Repeated.single_consuming type) single).within
  · exact single

theorem Entry.body_safe (key value : ScalarType) : (Entry.body key value).Safe := by
  refine Scanner.untilEnd_safe _ (.after Tag.read_safe fun tag => ?_)
  unfold Entry.member
  split
  · exact (Scanner.Safe.ofReader key.read_safe).map _
  · split
    · exact (Scanner.Safe.ofReader value.read_safe).map _
    · exact .silent (Payload.skip_safe tag.wire)

theorem Entry.read_safe (key value : ScalarType) : (Entry.read key value).Safe := by
  rw [Entry.read_eq]
  exact Reader.Safe.map (Entry.body_safe key value).within _

/-! ### Fields and messages -/

/-- Whether what is embedded, if anything is, can be read safely. -/
def Kind.Sound : {V : Type} → Kind V → Prop
  | _, embedded N => ∀ tag, (Message.payload tag : Scanner (Edit N)).Safe
  | _, _ => True

namespace Message

theorem scan_safe {M : Type} [Message M] (safe : ∀ tag, (payload tag : Scanner (Edit M)).Safe) :
    (scan M).Safe :=
  Scanner.untilEnd_safe _ (.after Tag.read_safe safe)

end Message

theorem Kind.scan_safe {V : Type} {kind : Kind V} (sound : kind.Sound) (wire : Nat) :
    (kind.scan wire).Safe := by
  cases kind with
  | singular type => exact (Scanner.Safe.ofReader type.read_safe).map _
  | enumeration => exact (Scanner.Safe.ofReader (ScalarType.read_safe .int32)).map _
  | «repeated» type => exact (Repeated.scan_safe _ _ _).map _
  | embedded N =>
    rw [Scanner.Safe, Kind.collect_embedded]
    exact Reader.Safe.map ((Message.scan_safe sound).within.map _) _
  | textMap => exact (Scanner.Safe.ofReader (Entry.read_safe _ _)).map _
  | alternative type => exact (Scanner.Safe.ofReader type.read_safe).map _

theorem Message.payloadOf_safe {M : Type} {fields : List (Field M)}
    (sound : ∀ row ∈ fields, row.kind.Sound) (tag : Tag) : (payloadOf fields tag).Safe := by
  unfold payloadOf
  split
  · next row found => exact (Kind.scan_safe (sound row (List.mem_of_find?_eq_some found)) tag.wire).map _
  · exact .silent (Payload.skip_safe tag.wire)

namespace MessageType

theorem sound (type : MessageType) : ∀ row ∈ type.fields, row.kind.Sound := by
  cases type
  all_goals
    simp only [fields, FooBar.Example1.fields, FooBar.Example1.Example2.fields, FooBar.Example2.fields,
      FizBaz.Example2.fields, Conformance.Request.fields, Conformance.Response.fields,
      Conformance.FailureSet.fields, List.forall_mem_cons, List.not_mem_nil, false_implies,
      implies_true, and_true]
    repeat' apply And.intro
  all_goals first
    | exact trivial
    | exact Message.payloadOf_safe (List.forall_mem_singleton.mpr trivial)

/-- **Merging a message is safe**, of whatever type. -/
theorem scan_safe (type : MessageType) : (Message.scan type.Value).Safe := by
  refine Message.scan_safe fun tag => ?_
  rw [type.payload_eq]
  exact Message.payloadOf_safe type.sound tag

end MessageType

end Protobuf

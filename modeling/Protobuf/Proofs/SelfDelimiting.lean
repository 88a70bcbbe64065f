/-
**Readers look at nothing behind what they take.**

`Reader.Reads reader taken value` says that the reader takes exactly these bytes and gives this value
*whatever bytes follow*. A reader is `SelfDelimiting` if every success of it is such a read: then
neither its value nor its end depends on what comes next. Both notions exist for scanners too.

* `Reader.Reads.bind`, `Reader.SelfDelimiting.bind`: sequences compose;
* `Varint.read_selfDelimiting`, `Payload.read_selfDelimiting`, `ScalarType.read_selfDelimiting`, … :
  every reader of the library is self-delimiting. The check for enough bytes (`Reader.atLeast`) alone
  is not: it succeeds because of bytes that it leaves. It is so together with the `take` that follows;
* `Payload.Announces`: the bytes in front of a payload. It is read behind such bytes and nowhere else
  (`Payload.announces_of_read`);
* `Scanner.untilEnd_append`: a loop that came to the end of some bytes without a fault goes on, in
  longer ones, as if it started behind them;
* `Message.payloadOf_selfDelimiting`: so is the payload of any field of any table, since an embedded
  message is read within a payload and cannot look past it.
-/

import Protobuf.MessageType

namespace Protobuf

variable {α β : Type}

namespace Reader

/-- Takes exactly these bytes and gives this value, whatever follows. -/
def Reads (reader : Reader α) (taken : Bytes) (value : α) : Prop :=
  ∀ more, reader (taken ++ more) = .ok value more

/-- Every success takes some bytes and would do so whatever followed them. -/
def SelfDelimiting (reader : Reader α) : Prop :=
  ∀ ⦃bytes value unread⦄, reader bytes = .ok value unread →
    ∃ taken, bytes = taken ++ unread ∧ reader.Reads taken value

theorem Reads.pure (value : α) : (Pure.pure value : Reader α).Reads [] value :=
  fun _ => rfl

theorem Reads.bind {first : Reader α} {next : α → Reader β} {head tail : Bytes} {middle : α}
    {value : β} (one : first.Reads head middle) (two : (next middle).Reads tail value) :
    (first >>= next).Reads (head ++ tail) value := by
  intro more
  rw [List.append_assoc]
  exact bind_eq_ok.mpr ⟨middle, tail ++ more, one _, two more⟩

/-- A step that takes nothing leaves the bytes of the step before it. -/
theorem Reads.bind_nil {first : Reader α} {next : α → Reader β} {taken : Bytes} {middle : α}
    {value : β} (one : first.Reads taken middle) (two : (next middle).Reads [] value) :
    (first >>= next).Reads taken value := by
  have whole := one.bind two
  rwa [List.append_nil] at whole

theorem Reads.map {reader : Reader α} {taken : Bytes} {value : α} (reads : reader.Reads taken value)
    (change : α → β) : (change <$> reader).Reads taken (change value) :=
  fun more => map_eq_ok.mpr ⟨value, reads more, rfl⟩

theorem Reads.ofExcept {result : Except Fault α} {value : α} (success : result = .ok value) :
    (ofExcept result).Reads [] value := by
  subst success
  exact Reads.pure value

theorem SelfDelimiting.pure (value : α) : SelfDelimiting (Pure.pure value : Reader α) := by
  intro bytes result unread read
  cases read
  exact ⟨[], rfl, Reads.pure value⟩

theorem SelfDelimiting.bind {first : Reader α} {next : α → Reader β}
    (one : first.SelfDelimiting) (two : ∀ value, (next value).SelfDelimiting) :
    (first >>= next).SelfDelimiting := by
  intro bytes value unread read
  obtain ⟨middle, between, readFirst, readNext⟩ := bind_eq_ok.mp read
  obtain ⟨head, rfl, readsFirst⟩ := one readFirst
  obtain ⟨tail, rfl, readsNext⟩ := two middle readNext
  exact ⟨head ++ tail, (List.append_assoc _ _ _).symm, readsFirst.bind readsNext⟩

theorem SelfDelimiting.map {reader : Reader α} (delimited : reader.SelfDelimiting)
    (change : α → β) : (change <$> reader).SelfDelimiting := by
  intro bytes value unread read
  obtain ⟨inner, readInner, rfl⟩ := map_eq_ok.mp read
  obtain ⟨taken, rfl, reads⟩ := delimited readInner
  exact ⟨taken, rfl, reads.map change⟩

theorem SelfDelimiting.throw (fault : Fault) : SelfDelimiting (throw fault : Reader α) := by
  intro bytes value unread read
  cases read

theorem SelfDelimiting.ofExcept (result : Except Fault α) : SelfDelimiting (ofExcept result) := by
  cases result with
  | ok value => exact SelfDelimiting.pure value
  | error fault => exact SelfDelimiting.throw fault

theorem exactly_eq_ok {count : Nat} {bytes value unread : Bytes} :
    exactly count bytes = .ok value unread ↔ value.length = count ∧ bytes = value ++ unread := by
  constructor
  · intro read
    obtain ⟨_, between, enough, taken⟩ := bind_eq_ok.mp read
    obtain ⟨-, rfl⟩ := atLeast_eq_ok.mp enough
    obtain ⟨fits, rfl, rfl⟩ := take_eq_ok.mp taken
    exact ⟨List.length_take_of_le fits, (List.take_append_drop _ _).symm⟩
  · rintro ⟨rfl, rfl⟩
    have fits : value.length ≤ (value ++ unread).length := by simp
    exact bind_eq_ok.mpr ⟨(), _, atLeast_eq_ok.mpr ⟨fits, rfl⟩,
      take_eq_ok.mpr ⟨fits, (List.take_left).symm, (List.drop_left).symm⟩⟩

theorem exactly_reads (taken : Bytes) : (exactly taken.length).Reads taken taken :=
  fun _ => exactly_eq_ok.mpr ⟨rfl, rfl⟩

theorem exactly_selfDelimiting (count : Nat) : (exactly count).SelfDelimiting := by
  intro bytes value unread read
  obtain ⟨rfl, rfl⟩ := exactly_eq_ok.mp read
  exact ⟨value, rfl, exactly_reads value⟩

end Reader

namespace Scanner

/-- Takes exactly these bytes and finds these items without a fault, whatever follows. -/
def Reads (scanner : Scanner α) (taken : Bytes) (items : List α) : Prop :=
  ∀ more, scanner (taken ++ more) = ⟨items, none, more⟩

/-- Every scan without a fault takes some bytes and would do so whatever followed them. -/
def SelfDelimiting (scanner : Scanner α) : Prop :=
  ∀ ⦃bytes⦄, (scanner bytes).fault = none →
    ∃ taken, bytes = taken ++ (scanner bytes).unread ∧ scanner.Reads taken (scanner bytes).items

theorem Reads.ofReader {reader : Reader α} {taken : Bytes} {item : α}
    (reads : reader.Reads taken item) : (ofReader reader).Reads taken [item] := by
  intro more
  simp only [Scanner.ofReader, reads more]

theorem Reads.silent {reader : Reader Unit} {taken : Bytes} (reads : reader.Reads taken ()) :
    (silent reader : Scanner α).Reads taken [] := by
  intro more
  simp only [Scanner.silent, reads more]

theorem Reads.map {scanner : Scanner α} {taken : Bytes} {items : List α}
    (reads : scanner.Reads taken items) (change : α → β) :
    (scanner.map change).Reads taken (items.map change) := by
  intro more
  simp only [Scanner.map, reads more, Scan.map]

theorem Reads.after {reader : Reader α} {next : α → Scanner β} {head tail : Bytes} {value : α}
    {items : List β} (one : reader.Reads head value) (two : (next value).Reads tail items) :
    (after reader next).Reads (head ++ tail) items := by
  intro more
  rw [List.append_assoc]
  simp only [Scanner.after, one (tail ++ more), two more]

/-- What is inside a payload need not be self-delimiting: the length before it says where it ends. -/
theorem Reads.within {scanner : Scanner α} {taken payload : Bytes}
    (reads : Payload.read.Reads taken payload) (ended : (scanner payload).fault = none) :
    (within scanner).Reads taken (scanner payload).items := by
  intro more
  simp only [Scanner.within, reads more, ended]

theorem SelfDelimiting.ofReader {reader : Reader α} (delimited : reader.SelfDelimiting) :
    (ofReader reader).SelfDelimiting := by
  intro bytes ended
  cases read : reader bytes with
  | error fault unread => simp only [Scanner.ofReader, read, reduceCtorEq] at ended
  | ok item unread =>
    obtain ⟨taken, rfl, reads⟩ := delimited read
    simp only [Scanner.ofReader, read]
    exact ⟨taken, rfl, Reads.ofReader reads⟩

theorem SelfDelimiting.silent {reader : Reader Unit} (delimited : reader.SelfDelimiting) :
    (silent reader : Scanner α).SelfDelimiting := by
  intro bytes ended
  cases read : reader bytes with
  | error fault unread => simp only [Scanner.silent, read, reduceCtorEq] at ended
  | ok item unread =>
    obtain ⟨taken, rfl, reads⟩ := delimited read
    simp only [Scanner.silent, read]
    exact ⟨taken, rfl, Reads.silent reads⟩

theorem SelfDelimiting.map {scanner : Scanner α} (delimited : scanner.SelfDelimiting)
    (change : α → β) : (scanner.map change).SelfDelimiting := by
  intro bytes ended
  obtain ⟨taken, same, reads⟩ := delimited ended
  exact ⟨taken, same, reads.map change⟩

theorem SelfDelimiting.after {reader : Reader α} {next : α → Scanner β}
    (one : reader.SelfDelimiting) (two : ∀ value, (next value).SelfDelimiting) :
    (after reader next).SelfDelimiting := by
  intro bytes ended
  cases read : reader bytes with
  | error fault unread => simp only [Scanner.after, read, reduceCtorEq] at ended
  | ok value unread =>
    obtain ⟨head, rfl, readsHead⟩ := one read
    simp only [Scanner.after, read] at ended ⊢
    obtain ⟨tail, same, readsTail⟩ := two value ended
    refine ⟨head ++ tail, ?_, Reads.after readsHead readsTail⟩
    rw [List.append_assoc, ← same]

/-! ### The loop -/

/-- A scanner that has to consume something takes at least one byte. -/
theorem Reads.ne_nil {scanner : Scanner α} (consuming : scanner.Consuming) {taken : Bytes}
    {items : List α} (reads : scanner.Reads taken items) : taken ≠ [] := by
  intro nothing
  have whole := reads []
  have less := @consuming (taken ++ []) (by rw [whole])
  rw [whole, nothing] at less
  exact Nat.lt_irrefl 0 less

/-- One round of the loop, in front of anything. -/
theorem untilEnd_of_reads {scanner : Scanner α} (consuming : scanner.Consuming) {taken : Bytes}
    {items : List α} (reads : scanner.Reads taken items) (more : Bytes) :
    untilEnd scanner consuming (taken ++ more)
      = (untilEnd scanner consuming more).prepend items := by
  have some_bytes : taken ++ more ≠ [] := by
    intro nothing
    exact reads.ne_nil consuming (List.append_eq_nil_iff.mp nothing).1
  rw [untilEnd_of_items consuming some_bytes (by rw [reads more]), reads more]

/-- **The loop over a concatenation.** Where the first part was read to its end without a fault, the
whole is read as the second part is, behind the items of the first. -/
theorem untilEnd_append {scanner : Scanner α} {consuming : scanner.Consuming}
    (delimited : scanner.SelfDelimiting) {bytes : Bytes}
    (ended : (untilEnd scanner consuming bytes).fault = none) (more : Bytes) :
    untilEnd scanner consuming (bytes ++ more)
      = (untilEnd scanner consuming more).prepend (untilEnd scanner consuming bytes).items := by
  fun_induction untilEnd scanner consuming bytes with
  | case1 => simp [Scan.prepend]
  | case2 bytes some_bytes first continues ih =>
    obtain ⟨taken, same, reads⟩ := delimited continues
    rw [same, List.append_assoc, untilEnd_of_reads consuming reads, ih ended]
    simp [Scan.prepend, first]
  | case3 bytes some_bytes first stopped => exact absurd ended stopped

end Scanner

/-! ### The readers of the library -/

theorem Varint.readFrom_append {width shift value result : Nat} {bytes unread : Bytes}
    (read : readFrom width shift value bytes = .ok result unread) :
    ∃ taken, bytes = taken ++ unread ∧
      ∀ more, readFrom width shift value (taken ++ more) = .ok result more := by
  induction bytes generalizing shift value with
  | nil => cases read
  | cons byte rest ih =>
    simp only [readFrom] at read
    split at read
    · cases read
    · next room =>
      split at read
      · cases read
      · next fits =>
        split at read
        · next last =>
          cases read
          refine ⟨[byte], rfl, fun more => ?_⟩
          simp only [List.singleton_append, readFrom, if_neg room, if_neg fits, if_pos last]
        · next goes_on =>
          obtain ⟨taken, rfl, reads⟩ := ih read
          refine ⟨byte :: taken, rfl, fun more => ?_⟩
          simp only [List.cons_append, readFrom, if_neg room, if_neg fits, if_neg goes_on]
          exact reads more

theorem Varint.read_selfDelimiting (width : Nat) : (Varint.read width).SelfDelimiting :=
  fun _ _ _ read => Varint.readFrom_append read

theorem Tag.read_selfDelimiting : Tag.read.SelfDelimiting :=
  (Varint.read_selfDelimiting 64).bind fun _ => .ofExcept _

namespace Payload

/-- A payload is its length, which is checked, and as many bytes. -/
theorem read_eq : read = (do
    let length ← Varint.read 64
    if maxLength < length then throw (.malformedLength length) else Reader.exactly length) := by
  funext bytes
  simp only [read, readLength, bind, EStateM.bind]
  cases Varint.read 64 bytes with
  | error fault unread => rfl
  | ok length unread =>
    by_cases long : maxLength < length
    · simp only [if_pos long]
      rfl
    · simp only [if_neg long, Reader.exactly, bind, EStateM.bind, pure, EStateM.pure]
      cases Reader.atLeast length unread <;> rfl

theorem read_selfDelimiting : read.SelfDelimiting := by
  rw [read_eq]
  refine (Varint.read_selfDelimiting 64).bind fun length => ?_
  split
  · exact .throw _
  · exact Reader.exactly_selfDelimiting length

/-- Bytes that announce a payload, of an admitted length. -/
structure Announces (header payload : Bytes) : Prop where
  /-- They are read as its length. -/
  length : (Varint.read 64).Reads header payload.length
  /-- The length is admitted. -/
  fits : payload.length ≤ maxLength

/-- A payload is read behind bytes that announce it. -/
theorem Announces.reads {header payload : Bytes} (announces : Announces header payload) :
    read.Reads (header ++ payload) payload := by
  rw [read_eq]
  refine announces.length.bind ?_
  rw [if_neg (Nat.not_lt_of_le announces.fits)]
  exact Reader.exactly_reads payload

/-- And nowhere else. -/
theorem announces_of_read {bytes payload rest : Bytes} (taken : read bytes = .ok payload rest) :
    ∃ header, Announces header payload ∧ bytes = header ++ payload ++ rest := by
  rw [read_eq] at taken
  obtain ⟨length, behind, first, second⟩ := Reader.bind_eq_ok.mp taken
  obtain ⟨header, rfl, reads⟩ := Varint.read_selfDelimiting 64 first
  split at second
  · cases second
  · next admitted =>
    obtain ⟨rfl, rfl⟩ := Reader.exactly_eq_ok.mp second
    exact ⟨header, ⟨reads, Nat.le_of_not_lt admitted⟩, (List.append_assoc _ _ _).symm⟩

theorem readFixed_selfDelimiting (width : Nat) : (readFixed width).SelfDelimiting :=
  (Reader.exactly_selfDelimiting width).bind fun _ => .pure _

/-- Passing over some bytes is reading them and forgetting them. -/
theorem discard_eq (count : Nat) : discard count = (fun _ => ()) <$> Reader.exactly count := by
  funext bytes
  simp only [discard, Reader.exactly, bind, EStateM.bind, Functor.map, EStateM.map]
  cases Reader.atLeast count bytes with
  | error fault unread => rfl
  | ok value unread => cases Reader.take count unread <;> rfl

/-- Skipping a payload is reading it and forgetting it. -/
theorem skip_lengthDelimited : skip WireType.lengthDelimited.id = (fun _ => ()) <$> read := by
  funext bytes
  show (do
    let length ← readLength
    let _ ← Reader.take length : Reader Unit) bytes = _
  simp only [read, bind, EStateM.bind, Functor.map, EStateM.map]
  cases readLength bytes with
  | error fault unread => rfl
  | ok length unread => cases Reader.take length unread <;> rfl

theorem discard_selfDelimiting (count : Nat) : (discard count).SelfDelimiting := by
  rw [discard_eq]
  exact (Reader.exactly_selfDelimiting count).map _

theorem skip_selfDelimiting (wire : Nat) : (skip wire).SelfDelimiting := by
  refine (Reader.SelfDelimiting.ofExcept _).bind fun known => ?_
  cases known with
  | varint => exact (Varint.read_selfDelimiting 64).bind fun _ => .pure _
  | fixed64 => exact discard_selfDelimiting 8
  | fixed32 => exact discard_selfDelimiting 4
  | lengthDelimited =>
    show (skip WireType.lengthDelimited.id).SelfDelimiting
    rw [skip_lengthDelimited]
    exact read_selfDelimiting.map _

end Payload

theorem Scanner.SelfDelimiting.within (scanner : Scanner α) :
    (Scanner.within scanner).SelfDelimiting := by
  intro bytes ended
  cases read : Payload.read bytes with
  | error fault unread => simp only [Scanner.within, read, reduceCtorEq] at ended
  | ok payload unread =>
    obtain ⟨taken, rfl, reads⟩ := Payload.read_selfDelimiting read
    simp only [Scanner.within, read] at ended ⊢
    exact ⟨taken, rfl, Scanner.Reads.within reads ended⟩

theorem ScalarType.read_selfDelimiting (type : ScalarType) : type.read.SelfDelimiting :=
  type.read_induction (P := Reader.SelfDelimiting) (fun change delimited => delimited.map change)
    (Varint.read_selfDelimiting 64) (Payload.readFixed_selfDelimiting 4)
    (Payload.readFixed_selfDelimiting 8) Payload.read_selfDelimiting
    (Payload.read_selfDelimiting.bind fun _ => .ofExcept _)

theorem Entry.read_selfDelimiting (key value : ScalarType) :
    (Entry.read key value).SelfDelimiting := by
  intro bytes entry unread read
  simp only [Entry.read] at read
  split at read
  · next ended =>
    cases read
    obtain ⟨taken, same, reads⟩ := Scanner.SelfDelimiting.within (Entry.body key value) ended
    refine ⟨taken, same, fun more => ?_⟩
    simp only [Entry.read, reads more, Scan.apply]
  · cases read

theorem Repeated.scan_selfDelimiting (wire : Nat) (element : WireType) (type : ScalarType) :
    (Repeated.scan wire element type).SelfDelimiting := by
  unfold Repeated.scan
  split
  · exact Scanner.SelfDelimiting.within _
  · exact .ofReader type.read_selfDelimiting

/-! ### Fields and messages -/

theorem Kind.scan_selfDelimiting {V : Type} (kind : Kind V) (wire : Nat) :
    (kind.scan wire).SelfDelimiting := by
  cases kind with
  | singular type => exact (Scanner.SelfDelimiting.ofReader type.read_selfDelimiting).map _
  | enumeration =>
    exact (Scanner.SelfDelimiting.ofReader (ScalarType.read_selfDelimiting .int32)).map _
  | repeated type => exact (Repeated.scan_selfDelimiting _ _ _).map _
  | embedded N =>
    -- the edit that makes the message present comes before the edits of its fields
    intro bytes ended
    obtain ⟨taken, same, reads⟩ := Scanner.SelfDelimiting.within (Message.scan N) ended
    refine ⟨taken, same, fun more => ?_⟩
    simp only [Kind.scan, reads more, Scan.map]
  | textMap => exact (Scanner.SelfDelimiting.ofReader (Entry.read_selfDelimiting _ _)).map _
  | alternative type => exact (Scanner.SelfDelimiting.ofReader type.read_selfDelimiting).map _

theorem Message.payloadOf_selfDelimiting {M : Type} (fields : List (Field M)) (tag : Tag) :
    (Message.payloadOf fields tag).SelfDelimiting := by
  unfold Message.payloadOf
  split
  · next field _ => exact (field.kind.scan_selfDelimiting tag.wire).map _
  · exact .silent (Payload.skip_selfDelimiting tag.wire)

end Protobuf

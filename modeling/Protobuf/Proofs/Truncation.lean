/-
**No silent truncation.**

A reader is `Demanding` if it needs all bytes that it takes: on any proper part of them, from the front,
it stops with a buffer overrun. Such readers compose (`Reader.Demanding.bind`), since a cut either falls
into what the first one takes or leaves it whole. Whatever is read inside a payload, a cut payload is
already refused by its length (`Scanner.within_demanding`).

* `Message.payloadOf_demanding`: the fields of every table are of that kind;
* `Message.scan_front`: where whole fields are cut, either a field ends there, and what is left is read
  to its end, or a buffer overrun follows;
* `MessageType.merge_take`: so a cut message is not taken for a whole one.
-/

import Protobuf.Proofs.Skipping
import Protobuf.Proofs.WireFields

namespace Protobuf

variable {α β : Type}

/-- Whether a fault is a want of more bytes. -/
def Fault.IsOverrun (fault : Fault) : Prop :=
  ∃ needed remaining, fault = .bufferOverrun needed remaining

namespace Reader

/-- Stops for want of more bytes. -/
def Overruns (reader : Reader α) (bytes : Bytes) : Prop :=
  ∃ fault unread, reader bytes = .error fault unread ∧ fault.IsOverrun

/-- Stops for want of more bytes on every proper front of what it takes. -/
def Demanding (reader : Reader α) : Prop :=
  ∀ ⦃cut rest value⦄, reader (cut ++ rest) = .ok value [] → rest ≠ [] → reader.Overruns cut

theorem Demanding.pure (value : α) : Demanding (Pure.pure value : Reader α) := by
  intro cut rest result read more
  obtain ⟨-, nothing⟩ := pure_eq_ok.mp read
  exact absurd (List.append_eq_nil_iff.mp nothing).2 more

theorem Demanding.throw (fault : Fault) : Demanding (throw fault : Reader α) := by
  intro cut rest value read
  cases read

theorem Demanding.ofExcept (result : Except Fault α) : Demanding (ofExcept result) := by
  cases result with
  | ok value => exact Demanding.pure value
  | error fault => exact Demanding.throw fault

/-- What the first step is cut short of, the whole is. -/
theorem Overruns.bind {first : Reader α} {bytes : Bytes} (short : first.Overruns bytes)
    (next : α → Reader β) : (first >>= next).Overruns bytes := by
  obtain ⟨fault, unread, stopped, overrun⟩ := short
  refine ⟨fault, unread, ?_, overrun⟩
  simp only [Bind.bind, EStateM.bind, stopped]

theorem Reads.bind_overruns {first : Reader α} {next : α → Reader β} {head cut : Bytes} {value : α}
    (reads : first.Reads head value) (short : (next value).Overruns cut) :
    (first >>= next).Overruns (head ++ cut) := by
  obtain ⟨fault, unread, stopped, overrun⟩ := short
  refine ⟨fault, unread, ?_, overrun⟩
  simp only [Bind.bind, EStateM.bind, reads cut, stopped]

/-- **A sequence needs what its steps need.** -/
theorem Demanding.bind {first : Reader α} {next : α → Reader β} (delimited : first.SelfDelimiting)
    (one : first.Demanding) (two : ∀ value, (next value).Demanding) :
    (first >>= next).Demanding := by
  intro cut rest value read more
  obtain ⟨middle, between, readFirst, readNext⟩ := bind_eq_ok.mp read
  obtain ⟨head, same, reads⟩ := delimited readFirst
  rcases List.append_eq_append_iff.mp same with ⟨left, rfl, rfl⟩ | ⟨left, rfl, rfl⟩
  · -- the cut is within the first step, or behind it with nothing of the second
    by_cases whole : left = []
    · subst whole
      rw [List.append_nil] at reads
      have short : (next middle).Overruns [] := two middle readNext more
      have behind := reads.bind_overruns short
      rwa [List.append_nil] at behind
    · have alone := reads []
      rw [List.append_nil] at alone
      exact (one alone whole).bind next
  · exact reads.bind_overruns (two middle readNext more)

theorem Demanding.map {reader : Reader α} (demanding : reader.Demanding) (change : α → β) :
    (change <$> reader).Demanding := by
  intro cut rest value read more
  obtain ⟨inner, readInner, -⟩ := map_eq_ok.mp read
  obtain ⟨fault, unread, stopped, overrun⟩ := demanding readInner more
  refine ⟨fault, unread, ?_, overrun⟩
  simp only [Functor.map, EStateM.map, stopped]

theorem exactly_demanding (count : Nat) : (exactly count).Demanding := by
  intro cut rest value read more
  obtain ⟨rfl, same⟩ := exactly_eq_ok.mp read
  rw [List.append_nil] at same
  subst same
  have short : cut.length < (cut ++ rest).length := by
    rw [List.length_append]
    exact Nat.lt_add_of_pos_right (List.length_pos_iff.mpr more)
  refine ⟨.bufferOverrun (cut ++ rest).length cut.length, cut, ?_, _, _, rfl⟩
  show (atLeast (cut ++ rest).length >>= fun _ => take (cut ++ rest).length) cut = _
  simp only [Bind.bind, EStateM.bind, atLeast, if_pos short]

end Reader

/-! ### The readers of the library -/

theorem Varint.readFrom_overruns {width shift value result : Nat} {cut rest : Bytes}
    (read : readFrom width shift value (cut ++ rest) = .ok result []) (more : rest ≠ []) :
    Reader.Overruns (readFrom width shift value) cut := by
  induction cut generalizing shift value with
  | nil => exact ⟨_, [], rfl, _, _, rfl⟩
  | cons byte cut ih =>
    simp only [List.cons_append, readFrom] at read
    split at read
    · cases read
    · next room =>
      split at read
      · cases read
      · next fits =>
        split at read
        · injection read with _ nothing
          exact absurd (List.append_eq_nil_iff.mp nothing).2 more
        · next goes_on =>
          obtain ⟨fault, unread, stopped, overrun⟩ := ih read
          refine ⟨fault, unread, ?_, overrun⟩
          simp only [readFrom, if_neg room, if_neg fits, if_neg goes_on, stopped]

theorem Varint.read_demanding (width : Nat) : (Varint.read width).Demanding :=
  fun _ _ _ read more => Varint.readFrom_overruns read more

theorem Tag.read_demanding : Tag.read.Demanding :=
  .bind (Varint.read_selfDelimiting 64) (Varint.read_demanding 64) fun _ => .ofExcept _

namespace Payload

theorem read_demanding : read.Demanding := by
  rw [read_eq]
  refine .bind (Varint.read_selfDelimiting 64) (Varint.read_demanding 64) fun length => ?_
  split
  · exact .throw _
  · exact Reader.exactly_demanding length

theorem readFixed_demanding (width : Nat) : (readFixed width).Demanding :=
  .bind (Reader.exactly_selfDelimiting width) (Reader.exactly_demanding width) fun _ => .pure _

theorem discard_demanding (count : Nat) : (discard count).Demanding := by
  rw [discard_eq]
  exact (Reader.exactly_demanding count).map _

theorem skip_demanding (wire : Nat) : (skip wire).Demanding := by
  refine .bind (.ofExcept _) (.ofExcept _) fun known => ?_
  cases known with
  | varint =>
    exact .bind (Varint.read_selfDelimiting 64) (Varint.read_demanding 64) fun _ => .pure _
  | fixed64 => exact discard_demanding 8
  | fixed32 => exact discard_demanding 4
  | lengthDelimited =>
    show (skip WireType.lengthDelimited.id).Demanding
    rw [skip_lengthDelimited]
    exact read_demanding.map _

end Payload

theorem ScalarType.read_demanding (type : ScalarType) : type.read.Demanding :=
  type.read_induction (P := Reader.Demanding) (fun change demanding => demanding.map change)
    (Varint.read_demanding 64) (Payload.readFixed_demanding 4) (Payload.readFixed_demanding 8)
    Payload.read_demanding
    (.bind Payload.read_selfDelimiting Payload.read_demanding fun _ => .ofExcept _)

/-! ### Scanners

What a scanner takes, and where it stops, is what the reader of all its items does. -/

namespace Scanner

theorem collect_ofReader (reader : Reader α) :
    (ofReader reader).collect = (fun value => [value]) <$> reader := by
  funext bytes
  simp only [collect, ofReader, Functor.map, EStateM.map]
  cases reader bytes <;> rfl

theorem collect_silent (reader : Reader Unit) :
    (silent reader : Scanner α).collect = (fun _ => []) <$> reader := by
  funext bytes
  simp only [collect, silent, Functor.map, EStateM.map]
  cases reader bytes <;> rfl

theorem collect_map (scanner : Scanner α) (change : α → β) :
    (scanner.map change).collect = List.map change <$> scanner.collect := by
  funext bytes
  simp only [collect, map, Scan.map, Functor.map, EStateM.map]
  cases (scanner bytes).fault <;> rfl

theorem collect_after (reader : Reader α) (next : α → Scanner β) :
    (after reader next).collect = reader >>= fun value => (next value).collect := by
  funext bytes
  simp only [collect, after, bind, EStateM.bind]
  cases reader bytes <;> rfl

/-- A payload is read, and what is in it decides whether the whole succeeds. -/
theorem collect_within (scanner : Scanner α) :
    (within scanner).collect = Payload.read >>= fun payload =>
      Reader.ofExcept (match (scanner payload).fault with
        | none => .ok (scanner payload).items
        | some fault => .error fault) := by
  funext bytes
  simp only [collect, within, bind, EStateM.bind]
  cases Payload.read bytes with
  | error fault unread => rfl
  | ok payload unread =>
    simp only
    cases (scanner payload).fault <;> rfl

theorem collect_eq_error {scanner : Scanner α} {bytes rest : Bytes} {fault : Fault} :
    scanner.collect bytes = .error fault rest ↔
      (scanner bytes).fault = some fault ∧ (scanner bytes).unread = rest := by
  unfold collect
  obtain ⟨items, found, unread⟩ := scanner bytes
  cases found <;> simp

/-- Stops for want of more bytes on every proper front of what it takes. -/
def Demanding (scanner : Scanner α) : Prop := scanner.collect.Demanding

theorem Demanding.ofReader {reader : Reader α} (demanding : reader.Demanding) :
    (ofReader reader).Demanding := by
  rw [Demanding, collect_ofReader]
  exact demanding.map _

theorem Demanding.silent {reader : Reader Unit} (demanding : reader.Demanding) :
    (silent reader : Scanner α).Demanding := by
  rw [Demanding, collect_silent]
  exact demanding.map _

theorem Demanding.map {scanner : Scanner α} (demanding : scanner.Demanding) (change : α → β) :
    (scanner.map change).Demanding := by
  rw [Demanding, collect_map]
  exact Reader.Demanding.map demanding _

theorem Demanding.after {reader : Reader α} {next : α → Scanner β}
    (delimited : reader.SelfDelimiting) (one : reader.Demanding)
    (two : ∀ value, (next value).Demanding) : (after reader next).Demanding := by
  rw [Demanding, collect_after]
  exact .bind delimited one two

/-- A cut payload is refused by its length, whatever is in it. -/
theorem within_demanding (scanner : Scanner α) : (within scanner).Demanding := by
  rw [Demanding, collect_within]
  exact .bind Payload.read_selfDelimiting Payload.read_demanding fun _ => .ofExcept _

end Scanner

theorem Entry.read_eq (key value : ScalarType) :
    Entry.read key value = (fun edits => Edit.all edits (key.default, value.default)) <$>
      (Scanner.within (Entry.body key value)).collect := by
  funext bytes
  simp only [Entry.read, Scanner.collect, Functor.map, EStateM.map]
  cases (Scanner.within (Entry.body key value) bytes).fault <;> rfl

theorem Entry.read_demanding (key value : ScalarType) : (Entry.read key value).Demanding := by
  rw [Entry.read_eq]
  exact Reader.Demanding.map (Scanner.within_demanding (Entry.body key value)) _

theorem Repeated.scan_demanding (wire : Nat) (element : WireType) (type : ScalarType) :
    (Repeated.scan wire element type).Demanding := by
  unfold Repeated.scan
  split
  · exact Scanner.within_demanding _
  · exact .ofReader type.read_demanding

/-- The tag of an embedded message makes it present before its payload is read. -/
theorem Kind.collect_embedded (N : Type) [Message N] (wire : Nat) :
    ((embedded N).scan wire).collect
      = List.cons (fun message => some (message.getD Message.empty)) <$>
        ((Scanner.within (Message.scan N)).map fun edit message => message.map edit).collect := by
  funext bytes
  simp only [Kind.scan, Scanner.collect, Scanner.map, Scan.map, Functor.map, EStateM.map]
  cases (Scanner.within (Message.scan N) bytes).fault <;> rfl

theorem Kind.scan_demanding {V : Type} (kind : Kind V) (wire : Nat) :
    (kind.scan wire).Demanding := by
  cases kind with
  | singular type => exact (Scanner.Demanding.ofReader type.read_demanding).map _
  | enumeration => exact (Scanner.Demanding.ofReader (ScalarType.read_demanding .int32)).map _
  | repeated type => exact (Repeated.scan_demanding _ _ _).map _
  | embedded N =>
    rw [Scanner.Demanding, Kind.collect_embedded]
    exact Reader.Demanding.map ((Scanner.within_demanding (Message.scan N)).map _) _
  | textMap => exact (Scanner.Demanding.ofReader (Entry.read_demanding _ _)).map _
  | alternative type => exact (Scanner.Demanding.ofReader type.read_demanding).map _

theorem Message.payloadOf_demanding {M : Type} (fields : List (Field M)) (tag : Tag) :
    (Message.payloadOf fields tag).Demanding := by
  unfold Message.payloadOf
  split
  · next field _ => exact (field.kind.scan_demanding tag.wire).map _
  · exact .silent (Payload.skip_demanding tag.wire)

theorem MessageType.payload_demanding (type : MessageType) (tag : Tag) :
    (Message.payload tag : Scanner (Edit type.Value)).Demanding := by
  cases type <;> exact Message.payloadOf_demanding _ tag

/-! ### Cut messages -/

theorem WireField.le_of_mem_ends {fields : List WireField} {start offset : Nat}
    (member : offset ∈ ends start fields) : start ≤ offset := by
  induction fields generalizing start with
  | nil => cases member
  | cons field fields ih =>
    rcases List.mem_cons.mp member with rfl | later
    · exact Nat.le_add_right _ _
    · exact Nat.le_of_add_right_le (ih later)

namespace Message

variable {M : Type} [Message M]

theorem field_demanding (demanding : ∀ tag, (payload tag : Scanner (Edit M)).Demanding) :
    (field M).Demanding :=
  .after Tag.read_selfDelimiting Tag.read_demanding demanding

/-- A whole field in front leaves the fault of what follows. -/
theorem scan_whole {field : WireField} (whole : field.Whole M) (more : Bytes) :
    (scan M (field.bytes ++ more)).fault = (scan M more).fault := by
  rw [scan, Scanner.untilEnd_of_reads _ whole.reads]
  rfl

/-- A field that is begun and cut is missed. -/
theorem scan_cut (demanding : ∀ tag, (payload tag : Scanner (Edit M)).Demanding)
    {field : WireField} (whole : field.Whole M) {cut left : Bytes} (same : field.bytes = cut ++ left)
    (begun : cut ≠ []) (more : left ≠ []) :
    ∃ fault, (scan M cut).fault = some fault ∧ fault.IsOverrun := by
  have reads := whole.reads []
  rw [List.append_nil, same] at reads
  obtain ⟨fault, unread, failed, overrun⟩ :=
    field_demanding demanding (Scanner.collect_eq_ok.mpr reads) more
  have stopped := (Scanner.collect_eq_error.mp failed).1
  refine ⟨fault, ?_, overrun⟩
  rw [scan, Scanner.untilEnd_of_fault _ begun stopped, stopped]

/-- **Where whole fields are cut, a field ends, or a buffer overrun follows.** -/
theorem scan_front (demanding : ∀ tag, (payload tag : Scanner (Edit M)).Demanding)
    {fields : List WireField} (whole : ∀ field ∈ fields, field.Whole M) {cut rest : Bytes}
    (same : WireField.join fields = cut ++ rest) (start : Nat) :
    if start + cut.length = start ∨ start + cut.length ∈ WireField.ends start fields then
      (scan M cut).fault = none
    else ∃ fault, (scan M cut).fault = some fault ∧ fault.IsOverrun := by
  induction fields generalizing cut start with
  | nil =>
    obtain ⟨rfl, -⟩ := List.append_eq_nil_iff.mp same.symm
    rw [if_pos (.inl rfl), scan, Scanner.untilEnd_nil]
  | cons head fields ih =>
    obtain ⟨wholeHead, wholeRest⟩ := List.forall_mem_cons.mp whole
    by_cases nothing : cut = []
    · subst nothing
      rw [if_pos (.inl rfl), scan, Scanner.untilEnd_nil]
    have begun : 0 < cut.length := List.length_pos_iff.mpr nothing
    rw [WireField.join_cons] at same
    rcases List.append_eq_append_iff.mp same with ⟨left, rfl, joined⟩ | ⟨left, bytes, rfl⟩
    · -- the first field is left whole, and the cut is behind it
      have later := ih wholeRest joined (start + head.bytes.length)
      rw [scan_whole wholeHead]
      rw [List.length_append, ← Nat.add_assoc] at *
      have place : (start + head.bytes.length + left.length = start ∨
          start + head.bytes.length + left.length ∈ WireField.ends start (head :: fields)) ↔
          (start + head.bytes.length + left.length = start + head.bytes.length ∨
            start + head.bytes.length + left.length ∈
              WireField.ends (start + head.bytes.length) fields) := by
        rw [WireField.ends, List.mem_cons, or_iff_right (by omega)]
      simp only [place]
      exact later
    · by_cases whole : left = []
      · subst whole
        rw [List.append_nil] at bytes
        have ended : (scan M head.bytes).fault = none := by
          have alone := scan_whole wholeHead []
          rw [List.append_nil] at alone
          rw [alone, scan, Scanner.untilEnd_nil]
        rw [← bytes, WireField.ends, if_pos (.inr List.mem_cons_self)]
        exact ended
      · have before : start + cut.length < start + head.bytes.length := by
          rw [bytes, List.length_append]
          have := List.length_pos_iff.mpr whole
          omega
        have inside : ¬ (start + cut.length = start ∨
            start + cut.length ∈ WireField.ends start (head :: fields)) := by
          rintro (first | member)
          · omega
          · rcases List.mem_cons.mp member with first | later
            · omega
            · exact Nat.not_le_of_lt before (WireField.le_of_mem_ends later)
        rw [if_neg inside]
        exact scan_cut demanding wholeHead bytes nothing whole

end Message

/-- **A cut message is not taken for a whole one.** Where the bytes are merged without a fault, their
first `cut` ones are so exactly if there are none of them or a field ends with them; otherwise the fault
is a buffer overrun. -/
theorem MessageType.merge_take (type : MessageType) (target : type.Value) {bytes : Bytes}
    (complete : (Message.merge bytes target).fault = none) {cut : Nat} (within : cut < bytes.length) :
    ((Message.merge (bytes.take cut) target).fault = none ↔
      cut = 0 ∨ cut ∈ WireField.ends 0 (Message.wireFields type.Value bytes)) ∧
    ∀ fault, (Message.merge (bytes.take cut) target).fault = some fault →
      ∃ needed remaining, fault = .bufferOverrun needed remaining := by
  obtain ⟨joined, whole⟩ := Message.join_wireFields complete
  have split : WireField.join (Message.wireFields type.Value bytes)
      = bytes.take cut ++ bytes.drop cut := by
    rw [joined, List.take_append_drop]
  have front := Message.scan_front type.payload_demanding whole split 0
  rw [List.length_take_of_le (Nat.le_of_lt within), Nat.zero_add] at front
  simp only [Message.merge]
  split at front
  · next place =>
    refine ⟨iff_of_true front place, fun fault stopped => ?_⟩
    rw [front] at stopped
    cases stopped
  · next inside =>
    obtain ⟨fault, stopped, overrun⟩ := front
    rw [stopped]
    refine ⟨iff_of_false (Option.some_ne_none fault) inside, fun other same => ?_⟩
    cases same
    exact overrun

/-- An embedded message with a string, and an integer behind it. -/
def FooBar.Example1.embeddedBytes : Bytes :=
  [0xAA, 0x01, 0x03, 0x0A, 0x01, 0x61, 0x18, 0x96, 0x01]

/-- Cut behind the embedded message the bytes are shorter but whole; cut within its string they are
refused. -/
theorem MessageType.merge_take_embedded :
    (Message.merge (M := MessageType.example1.Value)
      (FooBar.Example1.embeddedBytes.take 6) {}).fault = none ∧
    (Message.merge (M := MessageType.example1.Value)
      (FooBar.Example1.embeddedBytes.take 5) {}).fault ≠ none := by
  have complete : (Message.merge (M := MessageType.example1.Value)
      FooBar.Example1.embeddedBytes {}).fault = none := by decide +kernel
  have ends : WireField.ends 0 (Message.wireFields MessageType.example1.Value
      FooBar.Example1.embeddedBytes) = [6, 9] := by decide +kernel
  have behind := (MessageType.merge_take .example1 {} complete
    (show 6 < FooBar.Example1.embeddedBytes.length by decide)).1
  have inside := (MessageType.merge_take .example1 {} complete
    (show 5 < FooBar.Example1.embeddedBytes.length by decide)).1
  rw [ends] at behind inside
  exact ⟨behind.mpr (by decide), fun whole => absurd (inside.mp whole) (by decide)⟩

end Protobuf

/-
**What is read is neither shortened nor lengthened.**

The reads of a decoder are a family (`Decoder.Read`), each with the result it gives. No two byte strings
that one of them takes are such that one begins with the other:

* `Reader.Takes`: the bytes that a reader takes, of which there is at least one. Whatever follows them,
  they are taken with the same result, and each proper part of them, from the front, is too short;
* `Reader.takes_of_ok`: a reader takes such bytes whenever it succeeds, if it is `Consuming`,
  `SelfDelimiting` and `Demanding`;
* `Decoder.Read.consuming`, `Decoder.Read.selfDelimiting`, `Decoder.Read.demanding`: every read is all of
  this. What has a length before it is so by its length, whatever loop reads what is inside;
* `Decoder.read_prefixFree`: so a decoder advances with every read that succeeds, and where it stops does
  not depend on what is behind.
-/

import Protobuf.Decoder
import Protobuf.Proofs.Truncation

namespace Protobuf

variable {α : Type}

/-! ### Readers -/

/-- The bytes that a reader takes for a value. -/
structure Reader.Takes (reader : Reader α) (taken : Bytes) (value : α) : Prop where
  /-- There is at least one. -/
  nonempty : taken ≠ []
  /-- They are taken whatever follows. -/
  reads : reader.Reads taken value
  /-- Fewer are not enough. -/
  least : ∀ count < taken.length, reader.Overruns (taken.take count)

/-- **A success is the taking of some bytes.** -/
theorem Reader.takes_of_ok {reader : Reader α} (consuming : reader.Consuming)
    (delimited : reader.SelfDelimiting) (demanding : reader.Demanding) {bytes unread : Bytes}
    {value : α} (read : reader bytes = .ok value unread) :
    ∃ taken, bytes = taken ++ unread ∧ reader.Takes taken value := by
  obtain ⟨taken, rfl, reads⟩ := delimited read
  refine ⟨taken, rfl, ?_, reads, fun count short => ?_⟩
  · rintro rfl
    exact Nat.lt_irrefl _ (consuming read)
  · have alone := reads []
    rw [List.append_nil] at alone
    rw [← List.take_append_drop count taken] at alone
    refine demanding alone fun nothing => ?_
    exact Nat.not_le_of_lt short (List.drop_eq_nil_iff.mp nothing)

theorem Scanner.collect_consuming {scanner : Scanner α} (consuming : scanner.Consuming) :
    scanner.collect.Consuming := by
  intro bytes items unread taken
  have found := collect_eq_ok.mp taken
  have less := @consuming bytes (by rw [found])
  rwa [found] at less

namespace Decoder

/-! ### The reads of a decoder -/

/-- What can be read off a decoder. -/
inductive Read where
  /-- A tag. -/
  | tag
  /-- The payload of a scalar. -/
  | scalar (type : ScalarType)
  /-- A payload with a length before it, for a decoder of its own. -/
  | payload
  /-- Any payload under some framing bits, which is skipped. -/
  | skip (wire : Nat)
  /-- One occurrence of a repeated field, for a list that has some values. -/
  | repeated (wire : Nat) (element : WireType) (type : ScalarType) (values : List type.Value)
  /-- A map entry. -/
  | entry (key value : ScalarType)
  /-- An embedded message, for a message that is there. -/
  | message (type : MessageType) (target : type.Value)

namespace Read

/-- What a read gives. -/
abbrev Result : Read → Type
  | tag => Tag
  | scalar type => type.Value
  | payload => Decoder
  | skip _ => Unit
  | repeated _ _ type _ => List type.Value
  | entry key value => key.Value × value.Value
  | message type _ => type.Value

/-- How it is read. -/
def reader : (read : Read) → Reader read.Result
  | tag => Tag.read
  | scalar type => type.read
  | payload => ofBytes <$> Payload.read
  | skip wire => Payload.skip wire
  | repeated wire element type values =>
    (fun more => values ++ more) <$> (Repeated.scan wire element type).collect
  | entry key value => Entry.read key value
  | message type target =>
    (fun edits => Edit.all edits target) <$> (Scanner.within (Message.scan type.Value)).collect

theorem consuming (read : Read) : read.reader.Consuming := by
  cases read with
  | tag => exact Tag.read_consuming
  | scalar type => exact type.read_consuming
  | payload => exact Payload.read_consuming.map _
  | skip wire => exact Payload.skip_consuming wire
  | repeated wire element type values =>
    exact (Scanner.collect_consuming (Repeated.scan_consuming wire element type)).map _
  | entry key value => exact Entry.read_consuming key value
  | message type target => exact (Scanner.collect_consuming (Scanner.within_consuming _)).map _

theorem selfDelimiting (read : Read) : read.reader.SelfDelimiting := by
  cases read with
  | tag => exact Tag.read_selfDelimiting
  | scalar type => exact type.read_selfDelimiting
  | payload => exact Payload.read_selfDelimiting.map _
  | skip wire => exact Payload.skip_selfDelimiting wire
  | repeated wire element type values =>
    exact (Repeated.scan_selfDelimiting wire element type).collect.map _
  | entry key value => exact Entry.read_selfDelimiting key value
  | message type target => exact (Scanner.SelfDelimiting.within _).collect.map _

theorem demanding (read : Read) : read.reader.Demanding := by
  cases read with
  | tag => exact Tag.read_demanding
  | scalar type => exact type.read_demanding
  | payload => exact Payload.read_demanding.map _
  | skip wire => exact Payload.skip_demanding wire
  | repeated wire element type values =>
    exact Reader.Demanding.map (Repeated.scan_demanding wire element type) _
  | entry key value => exact Entry.read_demanding key value
  | message type target => exact Reader.Demanding.map (Scanner.within_demanding _) _

end Read

theorem read_eq_ok {reader : Reader α} {decoder after : Decoder} {value : α} :
    decoder.read reader = (.ok value, after) ↔
      reader decoder.unread = .ok value after.unread ∧ after.span = decoder.span := by
  obtain ⟨span, unread⟩ := after
  unfold read
  cases reader decoder.unread with
  | error fault rest => simp
  | ok found rest =>
    simp only [Prod.mk.injEq, Except.ok.injEq, Decoder.mk.injEq, EStateM.Result.ok.injEq]
    constructor
    · rintro ⟨rfl, rfl, rfl⟩
      exact ⟨⟨rfl, rfl⟩, rfl⟩
    · rintro ⟨⟨rfl, rfl⟩, rfl⟩
      exact ⟨rfl, rfl, rfl⟩

theorem read_eq_error {reader : Reader α} {decoder : Decoder} {fault : Fault} {unread : Bytes}
    (failed : reader decoder.unread = .error fault unread) :
    decoder.read reader = (.error fault, { decoder with unread }) := by
  unfold read
  rw [failed]

/-- **Every read is decided by the bytes it takes.** A read that succeeds takes some bytes, at least one.
A decoder at these bytes reads the same, whatever is behind them, and has then come as far; and one that
is left a proper part of them, from the front, fails for want of more. -/
theorem read_prefixFree (what : Read) {decoder after : Decoder} {value : what.Result}
    (done : decoder.read what.reader = (.ok value, after)) :
    ∃ count, 1 ≤ count ∧ count ≤ decoder.remaining ∧
      after = { decoder with unread := decoder.unread.drop count } ∧
      (∀ (other : Decoder) (more : Bytes), other.unread = decoder.unread.take count ++ more →
        other.read what.reader = (.ok value, { other with unread := more })) ∧
      ∀ fewer < count, ∀ other : Decoder, other.unread = decoder.unread.take fewer →
        ∃ needed left behind,
          other.read what.reader = (.error (.bufferOverrun needed left), behind) := by
  obtain ⟨succeeded, span⟩ := read_eq_ok.mp done
  obtain ⟨taken, same, takes⟩ :=
    Reader.takes_of_ok what.consuming what.selfDelimiting what.demanding succeeded
  refine ⟨taken.length, List.length_pos_iff.mpr takes.nonempty, ?_, ?_, ?_, ?_⟩
  · rw [remaining, same, List.length_append]
    exact Nat.le_add_right _ _
  · obtain ⟨_, rest⟩ := after
    rw [same, List.drop_left]
    cases span
    rfl
  · intro other more front
    rw [same, List.take_left] at front
    exact read_eq_ok.mpr ⟨front ▸ takes.reads more, rfl⟩
  · intro fewer short other front
    rw [same, List.take_append_of_le_length (Nat.le_of_lt short)] at front
    obtain ⟨_, unread, stopped, needed, left, rfl⟩ := takes.least fewer short
    exact ⟨needed, left, _, read_eq_error (front ▸ stopped)⟩

/-- A packed run of integers, the last of which has a needless digit, in front of anything. -/
theorem read_prefixFree_run :
    (ofBytes [0x04, 0x96, 0x01, 0x85, 0x00, 0x2A]).read
      (Read.repeated 2 .varint .int64 [7]).reader
        = (.ok [7, 150, 5], ⟨[0x04, 0x96, 0x01, 0x85, 0x00, 0x2A], [0x2A]⟩) ∧
    (∀ more, (ofBytes ([0x04, 0x96, 0x01, 0x85, 0x00] ++ more)).read
      (Read.repeated 2 .varint .int64 [7]).reader
        = (.ok [7, 150, 5], ⟨[0x04, 0x96, 0x01, 0x85, 0x00] ++ more, more⟩)) ∧
    ∃ needed left behind, (ofBytes [0x04, 0x96, 0x01, 0x85]).read
      (Read.repeated 2 .varint .int64 [7]).reader
        = (.error (.bufferOverrun needed left), behind) := by
  have done : (ofBytes [0x04, 0x96, 0x01, 0x85, 0x00, 0x2A]).read
      (Read.repeated 2 .varint .int64 [7]).reader
        = (.ok [7, 150, 5], ⟨[0x04, 0x96, 0x01, 0x85, 0x00, 0x2A], [0x2A]⟩) := by cbv
  obtain ⟨count, -, short, after, same, less⟩ := read_prefixFree _ done
  have five : count = 5 := by
    have left := congrArg (fun decoder : Decoder => decoder.unread.length) after
    simp only [ofBytes, remaining, List.length_drop, List.length_cons, List.length_nil] at left short
    omega
  subst five
  exact ⟨done, fun more => same (ofBytes _) more rfl, less 4 (by decide) (ofBytes _) rfl⟩

end Decoder

end Protobuf

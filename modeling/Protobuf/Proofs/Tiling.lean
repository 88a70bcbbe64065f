/-
**Fields lie one behind the other.**

A walk reads tags and skips payloads, and covers its bytes without a gap: a field begins where the payload
before it ends.

* `Extent.Tiles`: some bytes are those of fields with these extents, in order, in front of what is left;
* `Extent.Tiles.length_le`: a field has a byte of its tag and one of its payload, so there are at most half
  as many fields as bytes;
* `Extent.tile_of_read`: one field;
* `Extent.walkFrom_tiles`: all fields, and why there are no more of them;
* `Extent.walk_tiles`: a walk skips payloads the way they are read, tiles its bytes, and ends without a fault
  exactly if nothing is left.
-/

import Protobuf.Proofs.Alike
import Protobuf.Proofs.Conforming

namespace Protobuf

/-- A tag has a field number that fields can have. -/
theorem Tag.number_of_reads {head : Bytes} {tag : Tag} (reads : Tag.read.Reads head tag) :
    1 ≤ tag.number ∧ tag.number ≤ maxFieldNumber := by
  obtain ⟨raw, between, -, made⟩ := Reader.bind_eq_ok.mp (reads [])
  unfold ofRaw at made
  split at made
  · cases made
  · next admitted =>
    cases made
    rw [not_or, Nat.not_lt] at admitted
    exact ⟨Nat.one_le_iff_ne_zero.mpr admitted.1, admitted.2⟩

theorem Reader.Reads.length_pos {α : Type} {reader : Reader α} (consuming : reader.Consuming)
    {taken : Bytes} {value : α} (reads : reader.Reads taken value) : 1 ≤ taken.length := by
  have less := consuming (reads [])
  rwa [List.append_nil] at less

namespace Extent

/-- Some bytes, the first of which has a position, are fields with these extents and a rest behind them. -/
inductive Tiles : (start : Nat) → (bytes : Bytes) → List Extent → (rest : Bytes) → Prop where
  /-- There are no fields. -/
  | done (start : Nat) (rest : Bytes) : Tiles start rest [] rest
  /-- A field, a tag and a payload that is skipped, lies before the others. -/
  | field {start : Nat} {head payload behind rest : Bytes} {tag : Tag} {others : List Extent}
      (tagged : Tag.read.Reads head tag) (skipped : (Payload.skip tag.wire).Reads payload ())
      (tiles : Tiles (start + head.length + payload.length) behind others rest) :
      Tiles start (head ++ payload ++ behind) (⟨start, tag, payload.length⟩ :: others) rest

namespace Tiles

variable {start : Nat} {bytes rest : Bytes} {extents : List Extent}

/-- Every field has two bytes at least. -/
theorem length_le (tiles : Tiles start bytes extents rest) :
    2 * extents.length + rest.length ≤ bytes.length := by
  induction tiles with
  | done => simp
  | field tagged skipped _ ih =>
    have one := tagged.length_pos Tag.read_consuming
    have two := skipped.length_pos (Payload.skip_consuming _)
    simp only [List.length_append, List.length_cons]
    omega

theorem number_le (tiles : Tiles start bytes extents rest) :
    ∀ extent ∈ extents, 1 ≤ extent.tag.number ∧ extent.tag.number ≤ maxFieldNumber := by
  induction tiles with
  | done => exact List.forall_mem_nil _
  | field tagged _ _ ih => exact List.forall_mem_cons.mpr ⟨Tag.number_of_reads tagged, ih⟩

end Tiles

/-- One field is a tag and a payload. -/
theorem tile_of_read {total : Nat} {bytes behind : Bytes} {extent : Extent}
    (taken : read total bytes = .ok extent behind) :
    ∃ head payload tag, bytes = head ++ payload ++ behind ∧ Tag.read.Reads head tag ∧
      (Payload.skip tag.wire).Reads payload () ∧
      extent = ⟨total - bytes.length, tag, payload.length⟩ := by
  obtain ⟨tag, body, first, second, same⟩ := read_eq_ok.mp taken
  obtain ⟨head, rfl, tagged⟩ := Tag.read_selfDelimiting first
  obtain ⟨payload, rfl, skipped⟩ := Payload.skip_selfDelimiting tag.wire second
  refine ⟨head, payload, tag, (List.append_assoc _ _ _).symm, tagged, skipped, ?_⟩
  rw [same]
  simp

/-- **A walk tiles what it is given**, up to a field that cannot be read. -/
theorem walkFrom_tiles {total start : Nat} {bytes : Bytes} (left : start + bytes.length = total) :
    ∃ rest, Tiles start bytes (walkFrom total bytes).items rest ∧
      ((walkFrom total bytes).fault = none ↔ rest = []) ∧
      ∀ fault, (walkFrom total bytes).fault = some fault →
        read total rest = .error fault (walkFrom total bytes).unread := by
  induction size : bytes.length using Nat.strongRecOn generalizing start bytes with
  | ind count ih =>
    by_cases nothing : bytes = []
    · subst nothing
      rw [walkFrom, Scanner.untilEnd_nil]
      refine ⟨[], .done start [], iff_of_true rfl rfl, fun fault stopped => ?_⟩
      exact absurd stopped.symm (Option.some_ne_none fault)
    · cases taken : read total bytes with
      | error fault unread =>
        rw [walkFrom, Scanner.untilEnd_ofReader_error nothing taken]
        refine ⟨bytes, .done start bytes, iff_of_false (Option.some_ne_none fault) nothing, ?_⟩
        rintro _ ⟨⟩
        exact taken
      | ok extent behind =>
        have walked : walkFrom total bytes = (walkFrom total behind).prepend [extent] :=
          Scanner.untilEnd_ofReader_ok taken
        obtain ⟨head, payload, tag, rfl, tagged, skipped, rfl⟩ := tile_of_read taken
        have fewer : behind.length < count := size ▸ read_consuming total taken
        simp only [List.length_append] at left size
        have next : start + head.length + payload.length + behind.length = total := by omega
        obtain ⟨rest, tiles, ends⟩ := ih behind.length fewer next rfl
        have position : total - (head ++ payload ++ behind).length = start := by
          simp only [List.length_append]
          omega
        rw [walked, position]
        exact ⟨rest, .field tagged skipped tiles, ends⟩

/-- **A walk skips payloads as they are read, and the fields that it finds tile its bytes.** What it leaves is
where the next field would have to be. -/
theorem walk_tiles :
    (∀ decoder : Decoder,
      Decoder.Alike (fun _ _ => True) (decoder.read (Payload.skip 0))
        (decoder.read (ScalarType.read .uint64)) ∧
      Decoder.Alike (fun _ _ => True) (decoder.read (Payload.skip 1))
        (decoder.read (ScalarType.read .fixed64)) ∧
      Decoder.Alike (fun _ _ => True) (decoder.read (Payload.skip 2))
        (decoder.read (ScalarType.read .bytes)) ∧
      Decoder.Alike (fun _ _ => True) (decoder.read (Payload.skip 5))
        (decoder.read (ScalarType.read .fixed32)) ∧
      ∀ wire, wire ∉ [0, 1, 2, 5] →
        decoder.read (Payload.skip wire) = (.error (.unknownWireType wire), decoder)) ∧
    ∀ bytes, ∃ rest, Tiles 0 bytes (walk bytes).items rest ∧
      (walk bytes).items.length ≤ bytes.length / 2 ∧
      (∀ extent ∈ (walk bytes).items, 1 ≤ extent.tag.number ∧ extent.tag.number ≤ 2 ^ 29 - 1) ∧
      ((walk bytes).fault = none ↔ rest = []) ∧
      ∀ fault, (walk bytes).fault = some fault →
        read bytes.length rest = .error fault (walk bytes).unread := by
  refine ⟨fun decoder => ?_, fun bytes => ?_⟩
  · have alike (type : ScalarType) (unchecked : type ≠ .string) :
        Decoder.Alike (fun _ _ => True) (decoder.read (Payload.skip type.wireType.id))
          (decoder.read type.read) :=
      decoder.alike_skip unchecked
    refine ⟨alike .uint64 (by decide), alike .fixed64 (by decide), alike .bytes (by decide),
      alike .fixed32 (by decide), fun wire other => decoder.skip_other fun framing same => other ?_⟩
    rw [same]
    cases framing <;> decide
  · obtain ⟨rest, tiles, ends⟩ := walkFrom_tiles (Nat.zero_add bytes.length)
    have two := tiles.length_le
    refine ⟨rest, tiles, ?_, tiles.number_le, ends⟩
    show (walkFrom bytes.length bytes).items.length ≤ _
    omega

/-- A walk that meets a group behind a varint. -/
theorem walk_tiles_group :
    3 ∉ [0, 1, 2, 5] ∧
      (Decoder.ofBytes [0x2A]).read (Payload.skip 3)
        = (.error (.unknownWireType 3), Decoder.ofBytes [0x2A]) ∧
      (walk [0x08, 0x96, 0x01, 0x0B, 0x2A]).fault = some (.unknownWireType 3) ∧
      ∃ rest, rest ≠ [] ∧ Tiles 0 [0x08, 0x96, 0x01, 0x0B, 0x2A] [⟨0, ⟨1, 0⟩, 2⟩] rest ∧
        read 5 rest = .error (.unknownWireType 3) [0x2A] := by
  have strange : 3 ∉ [0, 1, 2, 5] := by decide
  have found : (walk [0x08, 0x96, 0x01, 0x0B, 0x2A]).items = [⟨0, ⟨1, 0⟩, 2⟩] := by decide +kernel
  have stopped : (walk [0x08, 0x96, 0x01, 0x0B, 0x2A]).fault = some (.unknownWireType 3) := by
    decide +kernel
  have left : (walk [0x08, 0x96, 0x01, 0x0B, 0x2A]).unread = [0x2A] := by decide +kernel
  obtain ⟨rest, tiles, -, -, covered, failed⟩ := walk_tiles.2 [0x08, 0x96, 0x01, 0x0B, 0x2A]
  refine ⟨strange, (walk_tiles.1 _).2.2.2.2 3 strange, stopped, rest, fun nothing => ?_, found ▸ tiles,
    left ▸ failed _ stopped⟩
  exact absurd (stopped.symm.trans (covered.mpr nothing)) (Option.some_ne_none _)

end Extent

end Protobuf

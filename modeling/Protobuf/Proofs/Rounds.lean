/-
**A writer that stalls cuts the output, and changes nothing else.**

What a service writes does not depend on the writer: it is a list of framed responses and, behind them, a
result. How much of it becomes visible is all that the writer decides.

* `Source.length_le_of_fill`: a reader gets no more bytes than it asks for;
* `Closing`: how a round ends that is the last one;
* `serve_round`: one round, whatever the source: it is the last one, or it has a response to write;
* `Sink.settle`: the end of a service that has some responses to write, and a result;
* `serve_settles`: so every service has responses to write and a result, with whatever writer;
* `Frame.count`: the number of whole frames that some bytes begin with, read off their lengths;
* `Sink.settle_unlimited`, `Sink.settle_enough`, `Sink.settle_short`: what becomes visible with a writer
  that accepts everything, with one that has room enough, and with one that has not;
* `serve_stalled`: a writer with too little room accepts the front of the output, fails, and was flushed
  once for every whole frame in that front.
-/

import Protobuf.Proofs.Batch
import Protobuf.Proofs.ReadBack

namespace Protobuf.Conformance

/-! ### One round -/

theorem Source.length_le_of_fill {count : Nat} {source rest : Source} {bytes : Bytes}
    (filled : fill count source = (.ok bytes, rest)) : bytes.length ≤ count := by
  fun_induction fill count source generalizing bytes rest with
  | case1 => cases filled; exact Nat.le_refl 0
  | case2 => cases filled; exact Nat.zero_le _
  | case3 => cases filled
  | case4 count source ih => exact ih filled
  | case5 => cases filled; exact Nat.zero_le _
  | case6 count chunk source empty long =>
    cases filled
    exact List.length_take_le _ _
  | case7 count chunk source empty short more after same ih =>
    cases more with
    | error text => cases filled
    | ok more =>
      cases filled
      have := ih same
      rw [List.length_append]
      omega

namespace Frame

theorem le_of_announced {limit length : Nat} {bytes : Bytes}
    (admitted : announced limit bytes = .ok (some length)) : length ≤ limit := by
  unfold announced at admitted
  split at admitted
  · cases admitted
  · split at admitted
    · dsimp only at admitted
      split at admitted
      · cases admitted
      · next fits =>
        cases admitted
        exact Nat.le_of_not_lt fits
    · cases admitted

/-- The answer to a body is a frame with a response whose length can be written. -/
theorem answer_eq_ok {length : Nat} {body frame : Bytes} (answered : answer length body = .ok frame) :
    ∃ response, frame = encode response ∧ response.length ≤ maxLength := by
  by_cases whole : body.length = length
  · rw [answer_of_length whole] at answered
    cases handled : Testee.handleRaw body with
    | error fault =>
      rw [handled] at answered
      cases answered
    | ok response =>
      rw [handled] at answered
      dsimp only at answered
      split at answered
      · cases answered
      · next short =>
        cases answered
        exact ⟨response, rfl, Nat.le_of_not_lt short⟩
  · rw [answer, if_pos whole] at answered
    cases answered

end Frame

/-- How a service may end by itself in a round, `served` requests being answered already. -/
inductive Closing (limit served : Nat) : Except Failure Nat → Prop where
  /-- The input is at an end. -/
  | finished : Closing limit served (.ok served)
  /-- A read fails. -/
  | broken (text : String) : Closing limit served (.error (.io text))
  /-- The length of a request is cut or not admitted. -/
  | announced {bytes : Bytes} {failure : Failure} : Frame.announced limit bytes = .error failure →
    Closing limit served (.error failure)
  /-- A request is cut, or is none, or has a response that is too long. -/
  | answered {length : Nat} {body : Bytes} {failure : Failure} : length ≤ limit →
    body.length ≤ length → Frame.answer length body = .error failure →
    Closing limit served (.error failure)

/-- **One round.** Whatever the writer, a round is the last one, or it has a response to write and leaves
less to read. -/
theorem serve_round (limit : Nat) (source : Source) (served : Nat) :
    (∃ result, Closing limit served result ∧
      ∀ sink, serve limit source sink served = ⟨result, sink⟩) ∨
    ∃ (response : Bytes) (rest : Source), response.length ≤ Frame.maxLength ∧
      rest.weight < source.weight ∧
      ∀ sink : Sink, serve limit source sink served =
        match sink.write (Frame.encode response) with
        | (.error failure, sink) => ⟨.error failure, sink⟩
        | (.ok _, sink) => serve limit rest sink.flush (served + 1) := by
  simp only [serve_eq limit _ served source]
  cases head : source.fill Frame.prefixLength with
  | mk read behind =>
  cases read with
  | error text => exact .inl ⟨_, .broken text, fun sink => rfl⟩
  | ok bytes =>
  dsimp only
  cases length : Frame.announced limit bytes with
  | error failure => exact .inl ⟨_, .announced length, fun sink => rfl⟩
  | ok announced =>
  cases announced with
  | none => exact .inl ⟨_, .finished, fun sink => rfl⟩
  | some count =>
  dsimp only
  cases filled : behind.fill count with
  | mk read rest =>
  cases read with
  | error text => exact .inl ⟨_, .broken text, fun sink => rfl⟩
  | ok body =>
  simp only [serveBody]
  cases answered : Frame.answer count body with
  | error failure =>
    exact .inl ⟨_, .answered (Frame.le_of_announced length) (Source.length_le_of_fill filled) answered,
      fun sink => rfl⟩
  | ok frame =>
    obtain ⟨response, rfl, short⟩ := Frame.answer_eq_ok answered
    refine .inr ⟨response, rest, short, ?_, fun sink => rfl⟩
    have begun : bytes.length ≠ 0 := by
      intro nothing
      rw [Frame.announced, if_pos nothing] at length
      cases length
    have one := Source.length_add_weight_le head
    have two := Source.length_add_weight_le filled
    omega

/-! ### All rounds -/

/-- The end of a service that writes responses one by one, each with its length before it, and flushes
the writer behind each. The result counts if all of them are accepted. -/
def Sink.settle : (responses : List Bytes) → (result : Except Failure Nat) → Sink → Served
  | [], result, sink => ⟨result, sink⟩
  | response :: responses, result, sink =>
    match sink.write (Frame.encode response) with
    | (.error failure, sink) => ⟨.error failure, sink⟩
    | (.ok _, sink) => settle responses result sink.flush

/-- **The writer has no part in what is written.** -/
theorem serve_settles (limit : Nat) (source : Source) (served : Nat) :
    ∃ responses result, (∀ response ∈ responses, response.length ≤ Frame.maxLength) ∧
      ∀ sink : Sink, serve limit source sink served = sink.settle responses result := by
  induction size : source.weight using Nat.strong_induction_on generalizing source served with
  | _ size ih =>
    subst size
    rcases serve_round limit source served with ⟨result, -, ended⟩ | ⟨response, rest, short, less, round⟩
    · exact ⟨[], result, fun _ member => absurd member List.not_mem_nil, ended⟩
    · obtain ⟨responses, result, others, settled⟩ := ih _ less rest (served + 1) rfl
      refine ⟨response :: responses, result, List.forall_mem_cons.mpr ⟨short, others⟩, fun sink => ?_⟩
      rw [round, Sink.settle]
      obtain ⟨written, after⟩ := sink.write (Frame.encode response)
      cases written with
      | error failure => rfl
      | ok _ => exact settled after.flush

/-! ### Counting frames -/

namespace Frame

/-- The number of whole frames that some bytes begin with. -/
def count (bytes : Bytes) : Nat :=
  if prefixLength ≤ bytes.length ∧
      Bytes.ofLittleEndian (bytes.take prefixLength) ≤ bytes.length - prefixLength then
    count (bytes.drop (prefixLength + Bytes.ofLittleEndian (bytes.take prefixLength))) + 1
  else 0
termination_by bytes.length
decreasing_by
  have positive : 0 < prefixLength := by decide
  rw [List.length_drop]
  omega

variable {response : Bytes}

theorem ofLittleEndian_length (short : response.length ≤ maxLength) :
    Bytes.ofLittleEndian (Bytes.littleEndian prefixLength response.length) = response.length :=
  Bytes.ofLittleEndian_littleEndian _ _ (Nat.lt_of_le_of_lt short (by decide))

theorem length_encode (response : Bytes) :
    (encode response).length = prefixLength + response.length := by
  rw [encode, List.length_append, Bytes.length_littleEndian]

theorem take_encode_append (response rest : Bytes) :
    (encode response ++ rest).take prefixLength
      = Bytes.littleEndian prefixLength response.length := by
  rw [encode, List.append_assoc, List.take_left' (Bytes.length_littleEndian _ _)]

theorem count_encode_append (short : response.length ≤ maxLength) (rest : Bytes) :
    count (encode response ++ rest) = count rest + 1 := by
  have length : (encode response ++ rest).length = prefixLength + response.length + rest.length := by
    rw [List.length_append, length_encode]
  rw [count, take_encode_append, ofLittleEndian_length short, if_pos (by omega), ← length_encode,
    List.drop_left]

/-- The front of a frame holds no whole one. -/
theorem count_take_encode (short : response.length ≤ maxLength) {room : Nat}
    (cut : room < (encode response).length) : count ((encode response).take room) = 0 := by
  rw [length_encode] at cut
  have length : ((encode response).take room).length = room := by
    rw [List.length_take_of_le]
    rw [length_encode]
    exact Nat.le_of_lt cut
  rw [count]
  refine if_neg fun ⟨announced, whole⟩ => ?_
  have front := take_encode_append response []
  rw [List.append_nil] at front
  rw [length] at announced whole
  rw [List.take_take, Nat.min_eq_left announced, front, ofLittleEndian_length short] at whole
  omega

theorem count_flatMap {responses : List Bytes}
    (short : ∀ response ∈ responses, response.length ≤ maxLength) :
    count (responses.flatMap encode) = responses.length := by
  induction responses with
  | nil => rw [List.flatMap_nil, count]; rfl
  | cons response responses ih =>
    obtain ⟨first, others⟩ := List.forall_mem_cons.mp short
    rw [List.flatMap_cons, count_encode_append first, ih others, List.length_cons]

end Frame

/-! ### What becomes visible -/

namespace Sink

variable {sink : Sink} {room : Nat}

theorem write_enough (limited : sink.room = some room) {bytes : Bytes} (enough : bytes.length ≤ room) :
    sink.write bytes = (.ok (),
      { sink with accepted := sink.accepted ++ bytes, room := some (room - bytes.length) }) := by
  simp only [write, limited, if_pos enough, List.take_of_length_le enough]

theorem write_short (limited : sink.room = some room) {bytes : Bytes} (short : room < bytes.length) :
    sink.write bytes = (.error (.io stalled),
      { sink with accepted := sink.accepted ++ bytes.take room, room := some 0 }) := by
  simp only [write, limited, if_neg (Nat.not_le_of_lt short),
    Nat.sub_eq_zero_of_le (Nat.le_of_lt short)]

theorem after_nil (sink : Sink) : sink.after [] = sink := by
  simp only [after, List.flatMap_nil, List.append_nil, List.length_nil, Nat.add_zero]

/-- A writer that accepts everything is left with all responses. -/
theorem settle_unlimited (unlimited : sink.room = none) (responses : List Bytes)
    (result : Except Failure Nat) : sink.settle responses result = ⟨result, sink.after responses⟩ := by
  induction responses generalizing sink with
  | nil => rw [settle, after_nil]
  | cons response responses ih =>
    simp only [settle, write_unlimited unlimited]
    rw [ih (by exact unlimited), ← after_cons]
    simp only [flush, after, List.flatMap_cons, List.flatMap_nil, List.append_nil, List.length_singleton]

/-- So is one with room enough. -/
theorem settle_enough (limited : sink.room = some room) {responses : List Bytes}
    (enough : (responses.flatMap Frame.encode).length ≤ room) (result : Except Failure Nat) :
    sink.settle responses result = ⟨result, { sink.after responses with
      room := some (room - (responses.flatMap Frame.encode).length) }⟩ := by
  induction responses generalizing sink room with
  | nil =>
    rw [settle, after_nil, List.flatMap_nil, List.length_nil, Nat.sub_zero, ← limited]
  | cons response responses ih =>
    rw [List.flatMap_cons, List.length_append] at enough
    simp only [settle, write_enough limited (Nat.le_of_add_right_le enough)]
    have left : (responses.flatMap Frame.encode).length ≤ room - (Frame.encode response).length := by
      omega
    rw [ih rfl left, ← after_cons]
    simp only [flush, after, List.flatMap_cons, List.flatMap_nil, List.append_nil, List.length_singleton,
      List.length_append, Nat.sub_add_eq]

/-- **A writer with too little room** accepts what there is room for, and is flushed behind each whole
frame. -/
theorem settle_short (limited : sink.room = some room) {responses : List Bytes}
    (writable : ∀ response ∈ responses, response.length ≤ Frame.maxLength)
    (short : room < (responses.flatMap Frame.encode).length) (result : Except Failure Nat) :
    sink.settle responses result = ⟨.error (.io stalled),
      { accepted := sink.accepted ++ (responses.flatMap Frame.encode).take room
        room := some 0
        flushes := sink.flushes + Frame.count ((responses.flatMap Frame.encode).take room) }⟩ := by
  induction responses generalizing sink room with
  | nil => exact absurd short (Nat.not_lt_zero _)
  | cons response responses ih =>
    obtain ⟨first, others⟩ := List.forall_mem_cons.mp writable
    rw [List.flatMap_cons, List.length_append] at short
    by_cases fits : (Frame.encode response).length ≤ room
    · -- the frame is accepted and flushed, and the room that is left decides
      simp only [settle, write_enough limited fits]
      have left : room - (Frame.encode response).length < (responses.flatMap Frame.encode).length := by
        omega
      rw [ih rfl others left, List.flatMap_cons,
        List.take_append, List.take_of_length_le fits, Frame.count_encode_append first]
      simp only [flush, List.append_assoc, Nat.add_assoc, Nat.add_comm 1]
    · have cut := Nat.lt_of_not_le fits
      simp only [settle, write_short limited cut]
      rw [List.flatMap_cons, List.take_append_of_le_length (Nat.le_of_lt cut),
        Frame.count_take_encode first cut]
      rfl

end Sink

/-- **A writer that stalls.** Let a service be given a writer that accepts everything, and the same with
room for so many bytes. If there is room for the output, the output and the result are the same.
Otherwise the output is cut to the room, and the result is the failure of that write, whatever it was
before. Either way the writer was flushed once for every whole frame that it accepted. -/
theorem serve_stalled (limit : Nat) (source : Source) (room : Nat) :
    ((serve limit source {} 0).sink.accepted.length ≤ room →
      (serve limit source { room := some room } 0).result = (serve limit source {} 0).result ∧
      (serve limit source { room := some room } 0).sink.accepted
        = (serve limit source {} 0).sink.accepted) ∧
    (room < (serve limit source {} 0).sink.accepted.length →
      (serve limit source { room := some room } 0).result = .error (.io Sink.stalled) ∧
      (serve limit source { room := some room } 0).sink.accepted
        = (serve limit source {} 0).sink.accepted.take room) ∧
    (serve limit source { room := some room } 0).sink.flushes
      = Frame.count (serve limit source { room := some room } 0).sink.accepted ∧
    (serve limit source {} 0).sink.flushes = Frame.count (serve limit source {} 0).sink.accepted := by
  obtain ⟨responses, result, writable, settled⟩ := serve_settles limit source 0
  have whole : serve limit source {} 0 = ⟨result,
      { accepted := responses.flatMap Frame.encode, flushes := responses.length }⟩ := by
    rw [settled, Sink.settle_unlimited rfl]
    simp only [Sink.after, List.nil_append, Nat.zero_add]
  have frames := Frame.count_flatMap writable
  rw [whole]
  by_cases enough : (responses.flatMap Frame.encode).length ≤ room
  · rw [settled, Sink.settle_enough rfl enough]
    refine ⟨fun _ => ⟨rfl, List.nil_append _⟩, fun short => absurd enough (Nat.not_le_of_lt short), ?_,
      frames.symm⟩
    show 0 + responses.length = Frame.count ([] ++ responses.flatMap Frame.encode)
    rw [Nat.zero_add, List.nil_append, frames]
  · rw [settled, Sink.settle_short rfl writable (Nat.lt_of_not_le enough)]
    refine ⟨fun fits => absurd fits enough, fun _ => ⟨rfl, List.nil_append _⟩, ?_, frames.symm⟩
    rw [List.nil_append, Nat.zero_add]

/-- Two requests without a body, and the beginning of a third one. -/
def twoRequests : Source := [.chunk [0, 0, 0, 0, 0, 0, 0], .chunk [0, 1]]

/-- The room ends within the length of the second response: one frame was flushed, and that the input is
cut does not come up. -/
theorem serve_stalled_length :
    (serve 16 twoRequests {} 0).result = .error (.truncatedFrame 4 1) ∧
    35 < (serve 16 twoRequests {} 0).sink.accepted.length ∧
    (serve 16 twoRequests { room := some 35 } 0).result = .error (.io Sink.stalled) ∧
    (serve 16 twoRequests { room := some 35 } 0).sink.accepted
      = Frame.encode Testee.untyped ++ [0x1C, 0x00, 0x00] ∧
    (serve 16 twoRequests { room := some 35 } 0).sink.flushes = 1 := by
  have ended : (serve 16 twoRequests {} 0).result = .error (.truncatedFrame 4 1) := by cbv
  have output : (serve 16 twoRequests {} 0).sink.accepted
      = Frame.encode Testee.untyped ++ Frame.encode Testee.untyped := by cbv
  have short : 35 < (serve 16 twoRequests {} 0).sink.accepted.length := by
    rw [output]
    decide +kernel
  have front : (serve 16 twoRequests {} 0).sink.accepted.take 35
      = Frame.encode Testee.untyped ++ [0x1C, 0x00, 0x00] := by
    rw [output]
    decide +kernel
  obtain ⟨-, cut, flushed, -⟩ := serve_stalled 16 twoRequests 35
  obtain ⟨failed, accepted⟩ := cut short
  rw [front] at accepted
  refine ⟨ended, short, failed, accepted, ?_⟩
  rw [flushed, accepted]
  decide +kernel

end Protobuf.Conformance

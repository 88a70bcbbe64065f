/-
**Serving a stream is answering its frames one by one.**

What `serve` does with the bytes of a stream is said here without reading or writing. The bytes are
split into as many answered frames as they begin with, and a rest:

* `Frame.Answered`: a whole frame, within the limit, whose body is a request that has a response;
* `Frame.Splits`, `Frame.SplitsMost`: bytes as answered frames and a rest; with as many frames as there
  can be;
* `Frame.Ending`: how the service ends that comes to a rest;
* `serve_frames`: one answered frame after the other is answered, written and flushed;
* `serve_batch`: so the output is the framed responses, and the rest decides how the service ends.
-/

import Mathlib.Data.Nat.Find
import Protobuf.Proofs.Delivery

namespace Protobuf.Conformance

namespace Frame

/-- A whole frame whose body is a request with this response. -/
inductive Answered (limit : Nat) : (frame response : Bytes) → Prop where
  | intro {head body response : Bytes} : head.length = prefixLength →
    Bytes.ofLittleEndian head ≤ limit → body.length = Bytes.ofLittleEndian head →
    Testee.handleRaw body = .ok response → Answered limit (head ++ body) response

/-- Some bytes as answered frames, each with its response, and the rest of the bytes. -/
structure Splits (limit : Nat) (bytes : Bytes) (frames : List (Bytes × Bytes)) (rest : Bytes) :
    Prop where
  joined : bytes = frames.flatMap Prod.fst ++ rest
  answered : ∀ frame ∈ frames, Answered limit frame.1 frame.2

variable {limit : Nat} {bytes rest : Bytes} {frames : List (Bytes × Bytes)}

theorem Answered.prefixLength_le {frame response : Bytes}
    (answered : Answered limit frame response) : prefixLength ≤ frame.length := by
  cases answered with
  | intro length =>
    rw [List.length_append, length]
    exact Nat.le_add_right _ _

theorem Splits.length_le (splits : Splits limit bytes frames rest) :
    prefixLength * frames.length ≤ bytes.length := by
  obtain ⟨rfl, answered⟩ := splits
  induction frames with
  | nil => exact Nat.zero_le _
  | cons frame frames ih =>
    obtain ⟨first, others⟩ := List.forall_mem_cons.mp answered
    have least := first.prefixLength_le
    have shorter := ih others
    simp only [List.length_append, List.flatMap_cons, List.length_cons] at shorter ⊢
    rw [Nat.mul_succ]
    omega

end Frame

/-! ### The sink -/

/-- A sink to which some responses were written, each flushed. -/
def Sink.after (responses : List Bytes) (sink : Sink) : Sink :=
  { sink with
    accepted := sink.accepted ++ responses.flatMap Frame.encode
    flushes := sink.flushes + responses.length }

theorem Sink.after_cons (response : Bytes) (responses : List Bytes) (sink : Sink) :
    (sink.after [response]).after responses = sink.after (response :: responses) := by
  simp only [after, List.flatMap_cons, List.flatMap_nil, List.append_nil, List.append_assoc,
    List.length_cons, List.length_nil, Nat.zero_add, Nat.add_assoc, Nat.add_comm 1]

theorem Sink.write_unlimited {sink : Sink} (unlimited : sink.room = none) (bytes : Bytes) :
    sink.write bytes = (.ok (), { sink with accepted := sink.accepted ++ bytes }) := by
  unfold write
  rw [unlimited]

/-! ### Serving -/

variable {limit : Nat} {source : Source} {bytes rest : Bytes}

/-- An answered frame is answered, written and flushed; then comes the next round. -/
theorem serve_frame {frame response : Bytes} (answered : Frame.Answered limit frame response)
    (short : response.length ≤ Frame.maxLength) (delivers : source.Delivers (frame ++ rest)) :
    ∃ remaining : Source, remaining.Delivers rest ∧
      ∀ later (sink : Sink) served, sink.room = none →
        serve limit (source ++ later) sink served
          = serve limit (remaining ++ later) (sink.after [response]) (served + 1) := by
  cases answered with
  | @intro head body _ length admitted whole handled =>
    obtain ⟨remaining, delivered, round⟩ := serve_whole delivers length admitted whole
    refine ⟨remaining, delivered, fun later sink served unlimited => ?_⟩
    have answer : Frame.answer body.length body = .ok (Frame.encode response) := by
      rw [Frame.answer_of_length rfl, handled]
      exact if_neg (Nat.not_lt_of_le short)
    have flushed : ({ sink with accepted := sink.accepted ++ Frame.encode response } : Sink).flush
        = sink.after [response] := by
      simp only [Sink.flush, Sink.after, List.flatMap_cons, List.flatMap_nil, List.append_nil,
        List.length_singleton]
    rw [round, serveBody, answer]
    dsimp only
    rw [Sink.write_unlimited unlimited]
    dsimp only
    rw [flushed]

/-- **Frames are answered one after the other**, and nothing behind them is asked for before that. -/
theorem serve_frames {frames : List (Bytes × Bytes)}
    (answered : ∀ frame ∈ frames, Frame.Answered limit frame.1 frame.2)
    (short : ∀ frame ∈ frames, frame.2.length ≤ Frame.maxLength)
    (delivers : source.Delivers (frames.flatMap Prod.fst ++ rest)) :
    ∃ remaining : Source, remaining.Delivers rest ∧
      ∀ later (sink : Sink) served, sink.room = none →
        serve limit (source ++ later) sink served
          = serve limit (remaining ++ later) (sink.after (frames.map Prod.snd))
            (served + frames.length) := by
  induction frames generalizing source with
  | nil =>
    refine ⟨source, delivers, fun later sink served _ => ?_⟩
    have same : sink.after [] = sink := by
      simp only [Sink.after, List.flatMap_nil, List.append_nil, List.length_nil, Nat.add_zero]
    rw [List.map_nil, same]
    rfl
  | cons frame frames ih =>
    obtain ⟨firstAnswered, othersAnswered⟩ := List.forall_mem_cons.mp answered
    obtain ⟨firstShort, othersShort⟩ := List.forall_mem_cons.mp short
    rw [List.flatMap_cons, List.append_assoc] at delivers
    obtain ⟨middle, delivered, first⟩ := serve_frame firstAnswered firstShort delivers
    obtain ⟨remaining, last, others⟩ := ih othersAnswered othersShort delivered
    refine ⟨remaining, last, fun later sink served unlimited => ?_⟩
    rw [first later sink served unlimited,
      others later (sink.after [frame.2]) (served + 1) unlimited, Sink.after_cons, Nat.add_assoc,
      Nat.add_comm 1]
    rfl

/-- The response to a request without a message type. -/
def Testee.untyped : Bytes :=
  Message.encode (⟨some (.skipped "unsupported message type: ")⟩ : Response)

theorem Testee.handleRaw_nil : handleRaw [] = .ok untyped := by
  unfold untyped
  cbv

theorem Testee.answered_nil : Frame.Answered 16 [0, 0, 0, 0] untyped :=
  @Frame.Answered.intro 16 [0, 0, 0, 0] [] untyped rfl (by decide) rfl handleRaw_nil

end Protobuf.Conformance

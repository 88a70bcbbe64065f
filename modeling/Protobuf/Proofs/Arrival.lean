/-
**Serving does not depend on how the bytes arrive.**

Two sources that deliver the same bytes have the same rounds, since a round depends on the bytes alone
(`Proofs.Delivery`). What comes after the bytes is met in the same state:

* `serve_congr`: by the rounds of two sources, one after the other;
* `serve_failure`: by a failure in place of the end of the input. It takes the place of an end that the
  service found for want of bytes, and of no other;
* `serve_arrival`: so chunks and interruptions do not matter, a failing read costs no response, and
  every response is written and flushed when the first byte behind its request is asked for.
-/

import Protobuf.Proofs.Batch

namespace Protobuf.Conformance

variable {limit : Nat} {source : Source} {bytes : Bytes}

/-! ### Two sources -/

theorem serveBody_congr {one two : Source}
    (same : ∀ sink served, serve limit one sink served = serve limit two sink served) (sink : Sink)
    (served length : Nat) (body : Bytes) :
    serveBody limit sink served length body one = serveBody limit sink served length body two := by
  unfold serveBody
  cases Frame.answer length body with
  | error failure => rfl
  | ok frame =>
    dsimp only
    obtain ⟨written, sink⟩ := sink.write frame
    cases written with
    | error failure => rfl
    | ok _ => exact same sink.flush (served + 1)

/-- **Sources that deliver the same bytes are served alike**, whatever comes after the bytes. -/
theorem serve_congr {one two : Source} (first : one.Delivers bytes) (second : two.Delivers bytes)
    (later : Source) (sink : Sink) (served : Nat) :
    serve limit (one ++ later) sink served = serve limit (two ++ later) sink served := by
  induction size : bytes.length using Nat.strong_induction_on
    generalizing bytes one two sink served with
  | _ size ih =>
    subst size
    cases Frame.front limit bytes with
    | short short =>
      rw [serve_eq, first.fill_short short, serve_eq limit _ _ (two ++ later),
        second.fill_short short]
    | tooLarge length large =>
      rw [serve_too_large sink served first length large,
        serve_too_large sink served second length large]
    | cut length admitted short =>
      obtain ⟨oneLeft, firstLeft, firstRound⟩ := serve_admitted first length admitted
      obtain ⟨twoLeft, secondLeft, secondRound⟩ := serve_admitted second length admitted
      rw [firstRound, secondRound, firstLeft.fill_short short, secondLeft.fill_short short]
    | @whole head body rest length admitted whole =>
      obtain ⟨oneLeft, firstLeft, firstRound⟩ := serve_whole first length admitted whole
      obtain ⟨twoLeft, secondLeft, secondRound⟩ := serve_whole second length admitted whole
      have shorter := Frame.length_lt_of_head length body rest
      rw [firstRound, secondRound]
      exact serveBody_congr
        (fun sink served => ih _ shorter firstLeft secondLeft sink served rfl) sink served _ body

/-- One read of all bytes, which are none at the end of the input. -/
theorem serve_chunk (delivers : source.Delivers bytes) (sink : Sink) (served : Nat) :
    serve limit source sink served = serve limit [.chunk bytes] sink served := by
  by_cases empty : bytes = []
  · subst empty
    have short : ([] : Bytes).length < Frame.prefixLength := by decide
    rw [serve_eq, delivers.fill_end short, serve_eq limit _ _ [.chunk []]]
    rfl
  · have same := @serve_congr limit _ _ _ delivers (.single empty) [] sink served
    rwa [List.append_nil, List.append_nil] at same

/-! ### A failing read -/

/-- How a service ends where a read fails in place of the end of the input. -/
def Served.brokenOff (text : String) (served : Served) : Served :=
  { served with
    result := match served.result with
      | .ok _ | .error (.truncatedFrame _ _) => .error (.io text)
      | other => other }

theorem Sink.write_eq_error {sink after : Sink} {frame : Bytes} {failure : Failure}
    (written : sink.write frame = (.error failure, after)) : failure = .io stalled := by
  unfold write at written
  split at written
  · cases written
  · dsimp only at written
    split at written <;> cases written
    rfl

theorem serveBody_brokenOff {one two : Source} {text : String}
    (broken : ∀ sink served,
      serve limit one sink served = (serve limit two sink served).brokenOff text)
    (sink : Sink) (served : Nat) (body : Bytes) :
    serveBody limit sink served body.length body one
      = (serveBody limit sink served body.length body two).brokenOff text := by
  unfold serveBody
  rw [Frame.answer_of_length rfl]
  cases Testee.handleRaw body with
  | error fault => rfl
  | ok response =>
    dsimp only
    by_cases long : Frame.maxLength < response.length
    · rw [if_pos long]
      rfl
    · rw [if_neg long]
      dsimp only
      cases written : sink.write (Frame.encode response) with
      | mk result after =>
        cases result with
        | ok _ => exact broken after.flush (served + 1)
        | error failure =>
          rw [Sink.write_eq_error written]
          rfl

/-- **A failing read takes the place of the end of the input**, and of nothing else. -/
theorem serve_failure (delivers : source.Delivers bytes) (text : String) (later : Source)
    (sink : Sink) (served : Nat) :
    serve limit (source ++ .failure text :: later) sink served
      = (serve limit source sink served).brokenOff text := by
  induction size : bytes.length using Nat.strong_induction_on
    generalizing bytes source sink served with
  | _ size ih =>
    subst size
    cases Frame.front limit bytes with
    | short short =>
      rw [serve_eq, delivers.fill_failure short, serve_eq limit _ _ source,
        delivers.fill_end short]
      by_cases empty : bytes = []
      · subst empty
        rfl
      · dsimp only
        rw [Frame.announced_of_short empty short]
        rfl
    | tooLarge length large =>
      have ended := serve_too_large sink served delivers length large []
      rw [List.append_nil] at ended
      rw [serve_too_large sink served delivers length large, ended]
      rfl
    | cut length admitted short =>
      obtain ⟨left, delivered, round⟩ := serve_admitted delivers length admitted
      have ended := round [] sink served
      rw [List.append_nil, List.append_nil, delivered.fill_end short] at ended
      rw [round, delivered.fill_failure short, ended]
      dsimp only
      rw [serveBody, Frame.answer, if_pos (Nat.ne_of_lt short)]
      rfl
    | @whole head body rest length admitted whole =>
      obtain ⟨left, delivered, round⟩ := serve_whole delivers length admitted whole
      have ended := round [] sink served
      rw [List.append_nil, List.append_nil] at ended
      have shorter := Frame.length_lt_of_head length body rest
      rw [round, ended]
      exact serveBody_brokenOff
        (fun sink served => ih _ shorter delivered sink served rfl) sink served body

/-! ### Arrival -/

/-- **Only the bytes count.** However they arrive, they are served as if they came at once. A read
that fails behind them changes the result if the bytes were used up, and the output never. And when
all bytes are answered frames, whatever comes next is met with every response written and flushed. -/
theorem serve_arrival (limit : Nat) {source : Source} {bytes : Bytes}
    (delivers : source.Delivers bytes) :
    (∀ sink served, serve limit source sink served = serve limit [.chunk bytes] sink served) ∧
      (∀ text later sink served, serve limit (source ++ .failure text :: later) sink served
        = (serve limit [.chunk bytes] sink served).brokenOff text) ∧
      ∀ frames, Frame.Splits limit bytes frames [] →
        (∀ frame ∈ frames, frame.2.length ≤ Frame.maxLength) →
        ∀ later (sink : Sink) served, sink.room = none →
          serve limit (source ++ later) sink served
            = serve limit later (sink.after (frames.map Prod.snd)) (served + frames.length) := by
  refine ⟨serve_chunk delivers, fun text later sink served => ?_,
    fun frames splits short later sink served unlimited => ?_⟩
  · rw [serve_failure delivers, serve_chunk delivers]
  · rw [splits.joined] at delivers
    obtain ⟨left, delivered, round⟩ := serve_frames splits.answered short delivers
    rw [round later sink served unlimited, serve_congr delivered .nil]
    rfl

/-- A frame in two chunks around an interruption, and a pipe that breaks behind it: the response is
written and flushed. -/
theorem serve_arrival_broken :
    Source.Delivers [.chunk [0], .interrupted, .chunk [0, 0, 0]] [0, 0, 0, 0] ∧
      Frame.Splits 16 [0, 0, 0, 0] [([0, 0, 0, 0], Testee.untyped)] [] ∧
      Testee.untyped.length ≤ Frame.maxLength ∧
      serve 16 [.chunk [0], .interrupted, .chunk [0, 0, 0], .failure "broken pipe"] {} 0
        = ⟨.error (.io "broken pipe"),
          { accepted := Frame.encode Testee.untyped, flushes := 1 }⟩ := by
  have delivers : Source.Delivers [.chunk [0], .interrupted, .chunk [0, 0, 0]] [0, 0, 0, 0] :=
    .chunk (by decide) (.interrupted (.chunk (by decide) .nil))
  have splits : Frame.Splits 16 [0, 0, 0, 0] [([0, 0, 0, 0], Testee.untyped)] [] :=
    ⟨rfl, List.forall_mem_singleton.mpr Testee.answered_nil⟩
  have short : Testee.untyped.length ≤ Frame.maxLength := by decide +kernel
  have met := (serve_arrival 16 delivers).2.2 _ splits (List.forall_mem_singleton.mpr short)
    [.failure "broken pipe"] {} 0 rfl
  refine ⟨delivers, splits, short, met.trans ?_⟩
  rw [serve_eq, Sink.after, List.map_singleton, List.flatMap_singleton]
  rfl

end Protobuf.Conformance

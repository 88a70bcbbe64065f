/-
**What a source delivers, and one round of serving it.**

`Source.Delivers source bytes` says that the events of a source are these bytes, in chunks of any sizes
but none, with interruptions anywhere between them. What comes after these events is left open, so that
the laws hold whether the input ends, fails or goes on there:

* `Source.Delivers.fill_enough`: bytes that are there are read, and the rest is delivered still;
* `Source.Delivers.fill_short`: if too few are there, what comes after them decides;
* `Frame.Front`: the four ways in which bytes can begin, a whole frame being one of them;
* `serve_too_large`, `serve_whole`: so one round of serving depends on the bytes alone, and asks for
  none behind the frame it answers.
-/

import Mathlib.Data.List.Basic
import Protobuf.Conformance.Stream

namespace Protobuf.Conformance

namespace Source

/-- The bytes of some events, none of which fails or ends the input. -/
inductive Delivers : Source → Bytes → Prop where
  | nil : Delivers [] []
  | chunk {bytes rest : Bytes} {source : Source} :
    bytes ≠ [] → Delivers source rest → Delivers (.chunk bytes :: source) (bytes ++ rest)
  | interrupted {bytes : Bytes} {source : Source} :
    Delivers source bytes → Delivers (.interrupted :: source) bytes

theorem Delivers.single {bytes : Bytes} (nonempty : bytes ≠ []) : Delivers [.chunk bytes] bytes := by
  have delivers := Delivers.chunk nonempty .nil
  rwa [List.append_nil] at delivers

theorem fill_zero (source : Source) : fill 0 source = (.ok [], source) := by
  cases source with
  | nil => rfl
  | cons event source => cases event <;> rfl

/-- A chunk that is not more than what is asked for is taken whole. -/
theorem fill_chunk {count : Nat} {bytes : Bytes} (nonempty : bytes ≠ [])
    (inside : bytes.length ≤ count) (source : Source) :
    fill count (.chunk bytes :: source)
      = ((fill (count - bytes.length) source).1.map (bytes ++ ·),
        (fill (count - bytes.length) source).2) := by
  cases count with
  | zero => exact absurd (List.length_eq_zero_iff.mp (Nat.le_zero.mp inside)) nonempty
  | succ count => rw [fill, if_neg nonempty, if_neg (Nat.not_lt_of_le inside)]

/-- **Bytes that are there are read, and no others.** -/
theorem Delivers.fill_enough {source : Source} {bytes : Bytes} (delivers : source.Delivers bytes)
    {count : Nat} (enough : count ≤ bytes.length) :
    ∃ rest : Source, rest.Delivers (bytes.drop count) ∧
      ∀ later, fill count (source ++ later) = (.ok (bytes.take count), rest ++ later) := by
  induction delivers generalizing count with
  | nil =>
    have none : count = 0 := Nat.le_zero.mp enough
    subst none
    exact ⟨[], .nil, fun later => fill_zero later⟩
  | @interrupted bytes source delivers ih =>
    cases count with
    | zero => exact ⟨.interrupted :: source, delivers.interrupted, fun later => fill_zero _⟩
    | succ count => exact ih enough
  | @chunk bytes more source nonempty delivers ih =>
    by_cases inside : bytes.length ≤ count
    · have remaining : count - bytes.length ≤ more.length := by
        rw [List.length_append] at enough
        omega
      obtain ⟨rest, delivered, filled⟩ := ih remaining
      refine ⟨rest, ?_, fun later => ?_⟩
      · rwa [List.drop_append, List.drop_of_length_le inside, List.nil_append]
      · rw [List.cons_append, fill_chunk nonempty inside, filled later, List.take_append,
          List.take_of_length_le inside]
        rfl
    · -- the chunk is cut, and what is left of it answers the next call
      have inside := Nat.lt_of_not_le inside
      have left : bytes.drop count ≠ [] := by
        intro nothing
        have short := List.drop_eq_nil_iff.mp nothing
        omega
      refine ⟨.chunk (bytes.drop count) :: source, ?_, fun later => ?_⟩
      · rw [List.drop_append_of_le_length (Nat.le_of_lt inside)]
        exact .chunk left delivers
      · rw [List.take_append_of_le_length (Nat.le_of_lt inside), List.cons_append]
        cases count with
        | zero => rw [fill_zero]; rfl
        | succ count => rw [fill, if_neg nonempty, if_pos inside]; rfl

/-- **If too few bytes are there, what comes after them decides.** -/
theorem Delivers.fill_short {source : Source} {bytes : Bytes} (delivers : source.Delivers bytes)
    {count : Nat} (short : bytes.length < count) (later : Source) :
    fill count (source ++ later) = ((fill (count - bytes.length) later).1.map (bytes ++ ·),
      (fill (count - bytes.length) later).2) := by
  induction delivers generalizing count with
  | nil =>
    show fill count later = ((fill count later).1.map id, (fill count later).2)
    rw [Except.map_id]
    rfl
  | @interrupted bytes source delivers ih =>
    cases count with
    | zero => exact absurd short (Nat.not_lt_zero _)
    | succ count => exact ih short
  | @chunk bytes more source nonempty delivers ih =>
    rw [List.length_append] at short
    have inside : bytes.length ≤ count := by omega
    rw [List.cons_append, fill_chunk nonempty inside, ih (by omega), List.length_append,
      Nat.sub_add_eq]
    cases fill (count - bytes.length - more.length) later with
    | mk result rest =>
      cases result with
      | error text => rfl
      | ok found =>
        show (Except.ok (bytes ++ (more ++ found)), rest) = (Except.ok (bytes ++ more ++ found), rest)
        rw [List.append_assoc]

variable {source : Source} {bytes : Bytes} {count : Nat}

theorem Delivers.fill_end (delivers : source.Delivers bytes) (short : bytes.length < count) :
    fill count source = (.ok bytes, []) := by
  have filled := delivers.fill_short short []
  have more : count - bytes.length = count - bytes.length - 1 + 1 := by omega
  rw [List.append_nil, more] at filled
  rw [filled]
  show (Except.ok (bytes ++ []), ([] : Source)) = _
  rw [List.append_nil]

theorem Delivers.fill_failure (delivers : source.Delivers bytes) (short : bytes.length < count)
    (text : String) (later : Source) :
    fill count (source ++ .failure text :: later) = (.error text, later) := by
  have more : count - bytes.length = count - bytes.length - 1 + 1 := by omega
  rw [delivers.fill_short short, more]
  rfl

end Source

/-! ### The front of some bytes -/

namespace Frame

/-- How bytes begin, where requests of at most `limit` bytes are admitted. -/
inductive Front (limit : Nat) : Bytes → Prop where
  /-- Too few bytes for a length. -/
  | short {bytes : Bytes} : bytes.length < prefixLength → Front limit bytes
  /-- A length that is not admitted. -/
  | tooLarge {head rest : Bytes} : head.length = prefixLength →
    limit < Bytes.ofLittleEndian head → Front limit (head ++ rest)
  /-- A length, and fewer bytes than that. -/
  | cut {head rest : Bytes} : head.length = prefixLength → Bytes.ofLittleEndian head ≤ limit →
    rest.length < Bytes.ofLittleEndian head → Front limit (head ++ rest)
  /-- A length, and as many bytes. -/
  | whole {head body rest : Bytes} : head.length = prefixLength →
    Bytes.ofLittleEndian head ≤ limit → body.length = Bytes.ofLittleEndian head →
    Front limit (head ++ body ++ rest)

theorem front (limit : Nat) (bytes : Bytes) : Front limit bytes := by
  by_cases short : bytes.length < prefixLength
  · exact .short short
  · obtain ⟨head, rest, rfl, length⟩ : ∃ head rest, bytes = head ++ rest ∧ head.length = prefixLength :=
      ⟨bytes.take prefixLength, bytes.drop prefixLength, (List.take_append_drop _ _).symm,
        List.length_take_of_le (Nat.le_of_not_lt short)⟩
    by_cases large : limit < Bytes.ofLittleEndian head
    · exact .tooLarge length large
    · have admitted := Nat.le_of_not_lt large
      by_cases cut : rest.length < Bytes.ofLittleEndian head
      · exact .cut length admitted cut
      · have split := List.take_append_drop (Bytes.ofLittleEndian head) rest
        rw [← split, ← List.append_assoc]
        exact .whole length admitted (List.length_take_of_le (Nat.le_of_not_lt cut))

/-- What is behind a frame is shorter, by the length at least. -/
theorem length_lt_of_head {head : Bytes} (length : head.length = prefixLength) (body rest : Bytes) :
    rest.length < (head ++ body ++ rest).length := by
  rw [List.length_append, List.length_append, length]
  exact Nat.lt_add_of_pos_left (Nat.lt_add_right _ (by decide))

theorem announced_of_length {limit : Nat} {head : Bytes} (length : head.length = prefixLength) :
    announced limit head = if limit < Bytes.ofLittleEndian head
      then .error (.frameTooLarge (Bytes.ofLittleEndian head) limit)
      else .ok (some (Bytes.ofLittleEndian head)) := by
  have some_bytes : ¬ head.length = 0 := by
    rw [length]
    decide
  rw [announced, if_neg some_bytes, if_pos length]

theorem announced_of_short {limit : Nat} {bytes : Bytes} (nonempty : bytes ≠ [])
    (short : bytes.length < prefixLength) :
    announced limit bytes = .error (.truncatedFrame prefixLength bytes.length) := by
  have some_bytes : ¬ bytes.length = 0 := fun none => nonempty (List.length_eq_zero_iff.mp none)
  rw [announced, if_neg some_bytes, if_neg (Nat.ne_of_lt short)]

/-- The framed response to a body of the announced length. -/
theorem answer_of_length {length : Nat} {body : Bytes} (whole : body.length = length) :
    answer length body = match Testee.handleRaw body with
      | .error fault => .error (.codec fault)
      | .ok response => if maxLength < response.length
        then .error (.frameTooLarge response.length maxLength) else .ok (encode response) := by
  unfold answer
  rw [if_neg (not_not_intro whole)]
  cases Testee.handleRaw body with
  | error fault => rfl
  | ok response =>
    simp only [Except.mapError, bind, Except.bind]
    by_cases long : maxLength < response.length
    · rw [if_pos long, if_pos long]
      rfl
    · rw [if_neg long, if_neg long]
      rfl

end Frame

/-! ### One round -/

variable (limit : Nat) (sink : Sink) (served : Nat)

/-- The rest of a round, once the body of a frame is read; then the next round. -/
def serveBody (length : Nat) (body : Bytes) (source : Source) : Served :=
  match Frame.answer length body with
  | .error failure => ⟨.error failure, sink⟩
  | .ok frame =>
    match sink.write frame with
    | (.error failure, sink) => ⟨.error failure, sink⟩
    | (.ok _, sink) => serve limit source sink.flush (served + 1)

/-- A round reads a length and a body, and answers. -/
theorem serve_eq (source : Source) : serve limit source sink served =
    match source.fill Frame.prefixLength with
    | (.error text, _) => ⟨.error (.io text), sink⟩
    | (.ok head, source) =>
      match Frame.announced limit head with
      | .error failure => ⟨.error failure, sink⟩
      | .ok none => ⟨.ok served, sink⟩
      | .ok (some length) =>
        match source.fill length with
        | (.error text, _) => ⟨.error (.io text), sink⟩
        | (.ok body, source) => serveBody limit sink served length body source := by
  rw [serve]
  split
  · next filled => rw [filled]
  · next filled =>
    rw [filled]
    dsimp only
    split
    · next announced => rw [announced]
    · next announced => rw [announced]
    · next announced =>
      rw [announced]
      dsimp only
      split
      · next body => rw [body]
      · next body =>
        rw [body]
        rfl

variable {limit} {source : Source} {head body rest : Bytes}

/-- A length that is not admitted ends the service, whatever comes after it. -/
theorem serve_too_large (delivers : source.Delivers (head ++ rest))
    (length : head.length = Frame.prefixLength) (large : limit < Bytes.ofLittleEndian head)
    (later : Source) :
    serve limit (source ++ later) sink served
      = ⟨.error (.frameTooLarge (Bytes.ofLittleEndian head) limit), sink⟩ := by
  have enough : Frame.prefixLength ≤ (head ++ rest).length := by
    rw [List.length_append]
    omega
  obtain ⟨remaining, -, filled⟩ := delivers.fill_enough enough
  rw [serve_eq, filled, List.take_left' length]
  dsimp only
  rw [Frame.announced_of_length length, if_pos large]

/-- An admitted length is read, and the body after it is asked for. -/
theorem serve_admitted (delivers : source.Delivers (head ++ rest))
    (length : head.length = Frame.prefixLength) (admitted : Bytes.ofLittleEndian head ≤ limit) :
    ∃ remaining : Source, remaining.Delivers rest ∧ ∀ later sink served,
      serve limit (source ++ later) sink served =
        match (remaining ++ later).fill (Bytes.ofLittleEndian head) with
        | (.error text, _) => ⟨.error (.io text), sink⟩
        | (.ok body, source) =>
          serveBody limit sink served (Bytes.ofLittleEndian head) body source := by
  have enough : Frame.prefixLength ≤ (head ++ rest).length := by
    rw [List.length_append]
    omega
  obtain ⟨remaining, delivered, filled⟩ := delivers.fill_enough enough
  rw [List.drop_left' length] at delivered
  refine ⟨remaining, delivered, fun later sink served => ?_⟩
  rw [serve_eq, filled, List.take_left' length]
  dsimp only
  rw [Frame.announced_of_length length, if_neg (Nat.not_lt_of_le admitted)]

/-- **A whole frame is answered before anything behind it is asked for.** -/
theorem serve_whole (delivers : source.Delivers (head ++ body ++ rest))
    (length : head.length = Frame.prefixLength) (admitted : Bytes.ofLittleEndian head ≤ limit)
    (whole : body.length = Bytes.ofLittleEndian head) :
    ∃ remaining : Source, remaining.Delivers rest ∧ ∀ later sink served,
      serve limit (source ++ later) sink served
        = serveBody limit sink served body.length body (remaining ++ later) := by
  rw [List.append_assoc] at delivers
  obtain ⟨middle, delivers, served⟩ := serve_admitted delivers length admitted
  have enough : body.length ≤ (body ++ rest).length := by
    rw [List.length_append]
    exact Nat.le_add_right _ _
  obtain ⟨remaining, delivered, filled⟩ := delivers.fill_enough enough
  rw [List.drop_left] at delivered
  refine ⟨remaining, delivered, fun later sink count => ?_⟩
  rw [served, ← whole, filled, List.take_left]

end Protobuf.Conformance

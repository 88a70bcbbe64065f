/-
**Serving a stream of framed requests.**

The input is a list of events, in the order in which they answer calls to read; the output is a sink
that may accept only so many bytes.

* `Source.fill n`: reads until there are `n` bytes, the input is at an end, or a read fails. An
  interrupted read is repeated. No byte beyond the `n` is asked for;
* `Sink.write`: writes all bytes, or as many as the sink accepts and fails;
* `serve`: answers request after request. Every response is written and flushed before the next
  request is read. It ends at the end of the input or at the first failure.
-/

import Protobuf.Conformance.Frame

namespace Protobuf.Conformance

/-- What answers a call to read. -/
inductive ReadEvent where
  /-- Some bytes; those that do not fit answer the next call. No bytes at all end one `fill`. -/
  | chunk (bytes : Bytes)
  /-- A failure that asks for the call to be repeated. -/
  | interrupted
  /-- Any other failure. -/
  | failure (text : String)
  deriving DecidableEq, Repr

/-- The answers to the calls to read to come. After the last one the input is at an end. -/
abbrev Source := List ReadEvent

namespace Source

/-- Reads until there are so many bytes or no more. -/
def fill : (count : Nat) → Source → Except String Bytes × Source
  | 0, source => (.ok [], source)
  | _ + 1, [] => (.ok [], [])
  | _ + 1, .failure text :: source => (.error text, source)
  | count + 1, .interrupted :: source => fill (count + 1) source
  | count + 1, .chunk bytes :: source =>
    if bytes = [] then (.ok [], source)
    else if count + 1 < bytes.length then
      (.ok (bytes.take (count + 1)), .chunk (bytes.drop (count + 1)) :: source)
    else
      let (more, source) := fill (count + 1 - bytes.length) source
      (more.map (bytes ++ ·), source)

/-- A bound on the calls to read that can be answered. -/
def weight (source : Source) : Nat :=
  source.foldr (fun answer rest =>
    match answer with
    | .chunk bytes => bytes.length + 1 + rest
    | _ => 1 + rest) 0

/-- What is read is gone from the source. -/
theorem length_add_weight_le {count : Nat} {source rest : Source} {bytes : Bytes}
    (filled : fill count source = (.ok bytes, rest)) :
    bytes.length + weight rest ≤ weight source := by
  fun_induction fill count source generalizing bytes rest with
  | case1 => cases filled; simp
  | case2 => cases filled; simp
  | case3 => cases filled
  | case4 count source ih =>
    have := ih filled
    simp only [weight, List.foldr_cons] at this ⊢
    omega
  | case5 => cases filled; simp [weight]
  | case6 count chunk source empty long =>
    cases filled
    simp only [weight, List.foldr_cons, List.length_take, List.length_drop]
    omega
  | case7 count chunk source empty short more after same ih =>
    cases more with
    | error text => cases filled
    | ok more =>
      cases filled
      have := ih same
      simp only [weight, List.foldr_cons, List.length_append] at this ⊢
      omega

end Source

/-- A writer that may stop accepting bytes. -/
structure Sink where
  /-- The bytes accepted. -/
  accepted : Bytes := []
  /-- How many more bytes are accepted; any number if none is given. -/
  room : Option Nat := none
  /-- How often the writer was flushed. -/
  flushes : Nat := 0
  deriving DecidableEq, Repr

namespace Sink

/-- The text of the failure to write everything. -/
def stalled : String := "failed to write whole buffer"

/-- Writes all bytes, or as many as are accepted. -/
def write (bytes : Bytes) (sink : Sink) : Except Failure Unit × Sink :=
  match sink.room with
  | none => (.ok (), { sink with accepted := sink.accepted ++ bytes })
  | some room =>
    let after := { sink with
      accepted := sink.accepted ++ bytes.take room
      room := some (room - bytes.length) }
    if bytes.length ≤ room then (.ok (), after) else (.error (.io stalled), after)

/-- Flushes the writer. -/
def flush (sink : Sink) : Sink := { sink with flushes := sink.flushes + 1 }

end Sink

/-- How serving a stream ends. -/
structure Served where
  /-- The number of requests answered, or the failure. -/
  result : Except Failure Nat
  /-- The writer at the end. -/
  sink : Sink

/-- Answers the requests of a stream, `served` being answered already. -/
def serve (limit : Nat) (source : Source) (sink : Sink) (served : Nat) : Served :=
  match _head : source.fill Frame.prefixLength with
  | (.error text, _) => ⟨.error (.io text), sink⟩
  | (.ok head, source) =>
    match _length : Frame.announced limit head with
    | .error failure => ⟨.error failure, sink⟩
    | .ok none => ⟨.ok served, sink⟩
    | .ok (some length) =>
      match _body : source.fill length with
      | (.error text, _) => ⟨.error (.io text), sink⟩
      | (.ok body, source) =>
        match Frame.answer length body with
        | .error failure => ⟨.error failure, sink⟩
        | .ok frame =>
          match sink.write frame with
          | (.error failure, sink) => ⟨.error failure, sink⟩
          | (.ok _, sink) => serve limit source sink.flush (served + 1)
termination_by source.weight
decreasing_by
  have one := Source.length_add_weight_le _head
  have two := Source.length_add_weight_le _body
  have some_bytes : head.length ≠ 0 := by
    intro none
    simp [Frame.announced, none] at _length
  omega

end Protobuf.Conformance

/-
**How much storage an encoder sets aside.**

Nothing that is written looks at the encoder it is written to. A write comes to some chunks that are appended,
one reservation each, and then it may stop; so do writes one after the other:

* `Encoder.appendAll`, `Writer.Appending`: chunks appended in order, and the writers that do nothing else;
* `Encoder.perform_appending`, `Encoder.performAll_eq`: so does every write, and every run of writes;
* `Encoder.storage`: the capacities there are, each twice the one before. A first one below `initialCapacity`
  is followed by that;
* `Encoder.isLeast_grown`: what storage grows to is the first of them that covers the need;
* `Encoder.Stored.append`: so the capacity is always the least one that holds what is written;
* `Encoder.performAll_storage`: and is decided by the number of bytes alone.
-/

import Mathlib.Order.Bounds.Basic
import Mathlib.Order.Interval.Set.Defs
import Protobuf.Proofs.Writing

namespace Protobuf

open Encoder (Stop)

/-! ### A write as chunks -/

namespace Encoder

/-- Appends some chunks, in order. -/
def appendAll (chunks : List Bytes) (encoder : Encoder) : Encoder :=
  chunks.foldl (fun encoder chunk => encoder.append chunk) encoder

theorem appendAll_append (chunks others : List Bytes) (encoder : Encoder) :
    encoder.appendAll (chunks ++ others) = (encoder.appendAll chunks).appendAll others :=
  List.foldl_append

theorem appendAll_bytes (chunks : List Bytes) (encoder : Encoder) :
    (encoder.appendAll chunks).bytes = encoder.bytes ++ chunks.flatten := by
  induction chunks generalizing encoder with
  | nil => exact (List.append_nil _).symm
  | cons chunk chunks ih =>
    show ((encoder.append chunk).appendAll chunks).bytes = _
    rw [ih, append_bytes, List.flatten_cons, List.append_assoc]

end Encoder

namespace Writer

variable {first second : Writer}

/-- The end of a writer that may have stopped. -/
def ended (stop : Option Stop) (left : Encoder) : EStateM.Result Stop Encoder Unit :=
  match stop with
  | none => .ok () left
  | some stop => .error stop left

/-- Appends some chunks, the same to every encoder, and then may stop. -/
def Appending (writer : Writer) : Prop :=
  ∃ chunks stop, ∀ encoder : Encoder, writer encoder = ended stop (encoder.appendAll chunks)

theorem Appending.nothing : Appending (pure ()) := ⟨[], none, fun _ => rfl⟩

theorem Appending.stopped (stop : Stop) : Appending (throw stop) := ⟨[], some stop, fun _ => rfl⟩

theorem Appending.chunk {writer : Writer} {chunk : Bytes}
    (appends : ∀ encoder : Encoder, writer encoder = .ok () (encoder.append chunk)) :
    writer.Appending :=
  ⟨[chunk], none, appends⟩

/-- Behind a writer that stops nothing is done any more. -/
theorem Appending.seq (one : first.Appending) (two : second.Appending) :
    Appending (do first; second) := by
  obtain ⟨chunks, stop, same⟩ := one
  obtain ⟨others, stop', same'⟩ := two
  cases stop with
  | none =>
    refine ⟨chunks ++ others, stop', fun encoder => ?_⟩
    rw [seq_ok (same encoder), same', Encoder.appendAll_append]
  | some stop =>
    refine ⟨chunks, some stop, fun encoder => ?_⟩
    simp only [bind, EStateM.bind, same encoder, ended]

theorem varint_appending (n : Nat) : (varint n).Appending := .chunk (varint_eq n)

theorem tag_appending (number : Nat) (wire : WireType) : (tag number wire).Appending := by
  unfold tag
  split
  · exact varint_appending _
  · exact .stopped _

theorem payload_appending (content : Bytes) : (payload content).Appending := by
  unfold payload
  split
  · exact .stopped _
  · exact (varint_appending _).seq (.chunk fun _ => rfl)

theorem scalar_appending (content : Scalar) : (scalar content).Appending := by
  rcases scalar_cases content.type content.value with one | ⟨chunk, -, same, -⟩
  · exact .chunk fun encoder => (one encoder).1
  · exact (congrArg Appending same).mpr (payload_appending chunk)

theorem splice_appending (number : Nat) (child : Encoder) : (splice number child).Appending :=
  (tag_appending _ _).seq (payload_appending _)

/-- However a field is built, it is spliced or not there. -/
theorem nested_appending (number : Nat) (build : Writer) : (nested number build).Appending := by
  rcases nested_cases number build with ⟨stop, same⟩ | ⟨child, same⟩ <;> rw [same]
  · exact .stopped stop
  · exact splice_appending number child

end Writer

namespace Encoder

/-- **A write appends chunks**, the same to every encoder. -/
theorem perform_appending (write : Write) : (perform write).Appending := by
  cases write with
  | scalar scalar => exact Writer.scalar_appending scalar
  | tag number wire => exact Writer.tag_appending number wire
  | packed number type values =>
    simp only [perform, Writer.packed]
    split
    · exact .nothing
    · exact Writer.nested_appending number _
  | entry number key value => exact Writer.nested_appending number _
  | message number type message => exact Writer.nested_appending number _
  | child number child => exact Writer.splice_appending number child

/-- **So do writes one after the other**, some of which may stop. -/
theorem performAll_eq (writes : List Write) :
    ∃ chunks, ∀ encoder : Encoder, performAll writes encoder = encoder.appendAll chunks := by
  induction writes with
  | nil => exact ⟨[], fun _ => rfl⟩
  | cons write writes ih =>
    obtain ⟨chunks, stop, same⟩ := perform_appending write
    obtain ⟨others, same'⟩ := ih
    refine ⟨chunks ++ others, fun encoder => ?_⟩
    have one : (perform write).after encoder = encoder.appendAll chunks := by
      rw [Writer.after, same]
      cases stop <;> rfl
    show performAll writes ((perform write).after encoder) = _
    rw [same', one, appendAll_append]

theorem performAll_append (writes more : List Write) (encoder : Encoder) :
    performAll (writes ++ more) encoder = performAll more (performAll writes encoder) :=
  List.foldl_append

/-! ### The capacities there are -/

/-- The capacities that an encoder may have, from the one it is made with: each is twice the one before, or
`initialCapacity` if the first one is less. -/
def storage (initial : Nat) : Nat → Nat
  | 0 => initial
  | step + 1 =>
    if initialCapacity ≤ initial then 2 ^ (step + 1) * initial else 2 ^ step * initialCapacity

variable {initial needed : Nat}

theorem storage_succ (regular : initial ≤ 32 ∨ 64 ≤ initial) (step : Nat) :
    storage initial (step + 1) = max (2 * storage initial step) initialCapacity := by
  rcases regular with small | large
  · have least (step : Nat) : storage initial (step + 1) = 2 ^ step * initialCapacity :=
      if_neg (Nat.not_le_of_lt (Nat.lt_of_le_of_lt small (by decide)))
    cases step with
    | zero =>
      rw [least, storage, initialCapacity]
      omega
    | succ step =>
      have positive : 1 ≤ 2 ^ step := Nat.one_le_two_pow
      rw [least, least, initialCapacity, Nat.pow_succ]
      omega
  · have geometric (step : Nat) : storage initial step = 2 ^ step * initial := by
      cases step with
      | zero => exact (Nat.one_mul initial).symm
      | succ step => exact if_pos large
    have positive : initial ≤ 2 ^ step * initial :=
      Nat.le_mul_of_pos_left initial (Nat.two_pow_pos step)
    rw [geometric, geometric, Nat.pow_succ, Nat.mul_right_comm]
    unfold initialCapacity
    omega

theorem storage_monotone (regular : initial ≤ 32 ∨ 64 ≤ initial) : Monotone (storage initial) := by
  refine monotone_nat_of_le_succ fun step => ?_
  rw [storage_succ regular]
  omega

theorem le_doubled (capacity needed : Nat) : capacity ≤ doubled capacity needed := by
  fun_induction doubled capacity needed with
  | case1 capacity less ih => omega
  | case2 => exact Nat.le_refl _

/-- Doubling one of them ends at the first that covers the need. -/
theorem isLeast_doubled (regular : initial ≤ 32 ∨ 64 ≤ initial) {capacity step : Nat}
    (same : capacity = storage initial step) (large : initialCapacity ≤ capacity)
    (before : ∀ earlier < step, storage initial earlier < needed) :
    IsLeast (Set.range (storage initial) ∩ Set.Ici needed) (doubled capacity needed) := by
  -- doubling moves on to the next of them, and all that are passed are too small
  fun_induction doubled capacity needed generalizing step with
  | case1 capacity less ih =>
    have next : 2 * capacity = storage initial (step + 1) := by
      rw [storage_succ regular, ← same]
      omega
    refine ih next (by omega) fun earlier below => ?_
    rcases Nat.lt_succ_iff_lt_or_eq.mp below with below | rfl
    · exact before earlier below
    · rw [← same]
      exact less.2
  | case2 capacity enough =>
    have covers : needed ≤ capacity := by
      unfold initialCapacity at large
      omega
    refine ⟨⟨⟨step, same.symm⟩, covers⟩, ?_⟩
    rintro _ ⟨⟨other, rfl⟩, covered⟩
    rw [same]
    refine storage_monotone regular (Nat.le_of_not_lt fun below => ?_)
    exact Nat.not_lt_of_le covered (before other below)

/-- One that does not cover the need grows to what the next one is doubled to. -/
theorem grown_storage (regular : initial ≤ 32 ∨ 64 ≤ initial) {step : Nat}
    (less : storage initial step < needed) :
    grown (storage initial step) needed = doubled (storage initial (step + 1)) needed := by
  -- one doubling more or less makes no difference, since the first capacity is known to be too small
  have next : doubled (max (storage initial step) initialCapacity) needed
      = doubled (storage initial (step + 1)) needed := by
    rw [storage_succ regular]
    by_cases large : initialCapacity ≤ storage initial step
    · have positive : 0 < storage initial step := Nat.lt_of_lt_of_le (by decide) large
      rw [max_eq_left large, max_eq_left (by omega)]
      conv => lhs; unfold doubled
      rw [if_pos ⟨positive, less⟩]
    · -- only the first one is that small
      have small : 2 * storage initial step ≤ initialCapacity := by
        cases step with
        | zero =>
          simp only [storage, initialCapacity] at large ⊢
          omega
        | succ step =>
          rw [storage_succ regular] at large
          omega
      rw [max_eq_right (by omega), max_eq_right small]
  have twice : 2 * storage initial step ≤ doubled (storage initial (step + 1)) needed := by
    refine Nat.le_trans ?_ (le_doubled _ _)
    rw [storage_succ regular]
    exact Nat.le_max_left _ _
  rw [grown, next, max_eq_right twice]

/-- **Storage grows to the first capacity that covers the need.** -/
theorem isLeast_grown (regular : initial ≤ 32 ∨ 64 ≤ initial) {step : Nat}
    (less : storage initial step < needed) :
    IsLeast (Set.range (storage initial) ∩ Set.Ici needed) (grown (storage initial step) needed) := by
  rw [grown_storage regular less]
  refine isLeast_doubled regular rfl ?_ fun earlier below => ?_
  · rw [storage_succ regular]
    exact Nat.le_max_right _ _
  · exact Nat.lt_of_le_of_lt (storage_monotone regular (Nat.le_of_lt_succ below)) less

/-! ### The capacity is the least that holds what is written -/

/-- The capacity is the least one there is that holds what is written. -/
def Stored (initial : Nat) (encoder : Encoder) : Prop :=
  IsLeast (Set.range (storage initial) ∩ Set.Ici encoder.size) encoder.capacity

theorem stored_fresh (initial : Nat) (regular : initial ≤ 32 ∨ 64 ≤ initial) :
    Stored initial { capacity := initial } := by
  refine ⟨⟨⟨0, rfl⟩, Nat.zero_le _⟩, ?_⟩
  rintro _ ⟨⟨step, rfl⟩, -⟩
  exact storage_monotone regular (Nat.zero_le step)

/-- **It still is after a chunk is appended.** -/
theorem Stored.append (regular : initial ≤ 32 ∨ 64 ≤ initial) {encoder : Encoder}
    (stored : encoder.Stored initial) (chunk : Bytes) : (encoder.append chunk).Stored initial := by
  have size : (encoder.append chunk).size = encoder.size + chunk.length := by
    rw [Encoder.size, append_bytes, List.length_append]
    rfl
  obtain ⟨⟨⟨step, same⟩, _⟩, least⟩ := stored
  unfold Stored
  rw [size]
  by_cases room : encoder.size + chunk.length ≤ encoder.capacity
  · have kept : (encoder.append chunk).capacity = encoder.capacity := by
      simp only [Encoder.append, reserve, if_pos room]
    rw [kept]
    refine ⟨⟨⟨step, same⟩, room⟩, fun capacity covers => least ⟨covers.1, ?_⟩⟩
    exact Nat.le_trans (Nat.le_add_right _ _) covers.2
  · have grew : (encoder.append chunk).capacity
        = grown encoder.capacity (encoder.size + chunk.length) := by
      simp only [Encoder.append, reserve, if_neg room]
    rw [grew, ← same]
    exact isLeast_grown regular (same ▸ Nat.lt_of_not_le room)

theorem Stored.appendAll (regular : initial ≤ 32 ∨ 64 ≤ initial) {encoder : Encoder}
    (stored : encoder.Stored initial) (chunks : List Bytes) :
    (encoder.appendAll chunks).Stored initial := by
  induction chunks generalizing encoder with
  | nil => exact stored
  | cons chunk chunks ih => exact ih (stored.append regular chunk)

/-- It grows with what is written. -/
theorem Stored.capacity_le {encoder other : Encoder} (stored : encoder.Stored initial)
    (stored' : other.Stored initial) (fewer : encoder.size ≤ other.size) :
    encoder.capacity ≤ other.capacity :=
  stored.2 ⟨stored'.1.1, Nat.le_trans fewer stored'.1.2⟩

/-- **The storage of an encoder.** Whatever is written to an encoder that was made with a capacity of at most 32
or at least 64, and whether all of it is written or some writes stop, the capacity is the least of the
capacities there are that holds the bytes. It is the same for as many bytes written in any other way. What is
written after that keeps the bytes and does not lower the capacity. The bytes are the same with any capacity
at the beginning. -/
theorem performAll_storage (initial : Nat) (regular : initial ≤ 32 ∨ 64 ≤ initial)
    (writes : List Write) :
    let written := performAll writes { capacity := initial }
    written.size ≤ written.capacity ∧
      IsLeast (Set.range (storage initial) ∩ Set.Ici written.size) written.capacity ∧
      (∀ others : List Write, (performAll others { capacity := initial }).size = written.size →
        (performAll others { capacity := initial }).capacity = written.capacity) ∧
      (∀ more : List Write,
        written.bytes <+: (performAll (writes ++ more) { capacity := initial }).bytes ∧
        written.capacity ≤ (performAll (writes ++ more) { capacity := initial }).capacity) ∧
      ∀ other : Nat, (performAll writes { capacity := other }).bytes = written.bytes := by
  have stored (writes : List Write) :
      (performAll writes { capacity := initial }).Stored initial := by
    obtain ⟨chunks, same⟩ := performAll_eq writes
    rw [same]
    exact (stored_fresh initial regular).appendAll regular chunks
  intro written
  refine ⟨(stored writes).1.2, stored writes, fun others same => ?_, fun more => ?_, fun other => ?_⟩
  · exact Nat.le_antisymm ((stored others).capacity_le (stored writes) (Nat.le_of_eq same))
      ((stored writes).capacity_le (stored others) (Nat.le_of_eq same.symm))
  · have kept : written.bytes <+: (performAll (writes ++ more) { capacity := initial }).bytes := by
      obtain ⟨chunks, same⟩ := performAll_eq more
      rw [performAll_append, same, appendAll_bytes]
      exact List.prefix_append _ _
    exact ⟨kept, (stored writes).capacity_le (stored (writes ++ more)) kept.length_le⟩
  · obtain ⟨chunks, same⟩ := performAll_eq writes
    simp only [written, same, appendAll_bytes]

/-- An exact fit: 64 bytes in three writes, one of which is refused, to an encoder made with three. -/
theorem performAll_storage_exactFit :
    (performAll [.scalar ⟨.bytes, List.replicate 62 0⟩, .tag 0 .varint, .scalar ⟨.bool, true⟩]
        { capacity := 3 }).size = 64 ∧
      (performAll [.scalar ⟨.bytes, List.replicate 62 0⟩, .tag 0 .varint, .scalar ⟨.bool, true⟩]
        { capacity := 3 }).capacity = 64 := by
  have size : (performAll [.scalar ⟨.bytes, List.replicate 62 0⟩, .tag 0 .varint,
      .scalar ⟨.bool, true⟩] { capacity := 3 }).size = 64 := by decide +kernel
  have least := (performAll_storage 3 (.inl (by decide)) [.scalar ⟨.bytes, List.replicate 62 0⟩,
    .tag 0 .varint, .scalar ⟨.bool, true⟩]).2.1
  rw [size] at least
  exact ⟨size, Nat.le_antisymm (least.2 ⟨⟨1, rfl⟩, Nat.le_refl 64⟩) least.1.2⟩

end Encoder

end Protobuf

/-
**Readers.**

A `Reader` takes a value off the front of a byte string. It ends with the value or with a fault, and
either way with the bytes it left unread, so that a caller may go on after a fault.

* `atLeast n`: consumes nothing, and fails unless `n` bytes are left;
* `take n`: the next `n` bytes, for callers that know that they are there;
* `Bounded`, `Consuming`: on success at most, or fewer than, the given bytes are left unread. The
  loops of the library end because what they repeat is `Consuming`.
-/

import Protobuf.Fault

namespace Protobuf

/-- Takes a value off the front of a byte string. -/
abbrev Reader := EStateM Fault Bytes

namespace Reader

variable {α β : Type}

/-- What a reader ends with: a value or a fault, and the unread bytes. -/
abbrev Result (α : Type) := EStateM.Result Fault Bytes α

/-- Fails unless so many bytes are left; consumes nothing. -/
def atLeast (needed : Nat) : Reader Unit := fun bytes =>
  if bytes.length < needed then .error (.bufferOverrun needed bytes.length) bytes
  else .ok () bytes

/-- Takes the next bytes, which the caller knows to be there. -/
def take (count : Nat) : Reader Bytes := fun bytes =>
  if bytes.length < count then .error (.misuse (.overread count bytes.length)) bytes
  else .ok (bytes.take count) (bytes.drop count)

/-- Takes the next bytes if they are there, and nothing otherwise. -/
def exactly (count : Nat) : Reader Bytes := do
  atLeast count
  take count

/-- A value or its fault, without touching the bytes. -/
def ofExcept : Except Fault α → Reader α
  | .ok value => pure value
  | .error fault => throw fault

/-! ### What success leaves unread -/

/-- On success no more is left than was given. -/
def Bounded (reader : Reader α) : Prop :=
  ∀ ⦃bytes value unread⦄, reader bytes = .ok value unread → unread.length ≤ bytes.length

/-- On success less is left than was given. -/
def Consuming (reader : Reader α) : Prop :=
  ∀ ⦃bytes value unread⦄, reader bytes = .ok value unread → unread.length < bytes.length

theorem Consuming.bounded {reader : Reader α} (consuming : Consuming reader) : Bounded reader :=
  fun _ _ _ read => Nat.le_of_lt (consuming read)

/-- A sequence succeeds by two successes. -/
theorem bind_eq_ok {first : Reader α} {next : α → Reader β} {bytes unread : Bytes} {value : β} :
    (first >>= next) bytes = .ok value unread ↔
      ∃ middle between,
        first bytes = .ok middle between ∧ next middle between = .ok value unread := by
  simp only [bind, EStateM.bind]
  cases first bytes <;> simp [and_assoc]

/-- A mapped read succeeds by the read. -/
theorem map_eq_ok {reader : Reader α} {change : α → β} {bytes unread : Bytes} {value : β} :
    (change <$> reader) bytes = .ok value unread ↔
      ∃ inner, reader bytes = .ok inner unread ∧ change inner = value := by
  simp only [Functor.map, EStateM.map]
  cases reader bytes <;> grind

theorem pure_eq_ok {bytes unread : Bytes} {value result : α} :
    (pure value : Reader α) bytes = .ok result unread ↔ value = result ∧ bytes = unread := by
  show EStateM.Result.ok value bytes = _ ↔ _
  simp

/-- To ask for the unread bytes is to leave them as they are. -/
theorem get_eq_ok {bytes value unread : Bytes} :
    (get : Reader Bytes) bytes = .ok value unread ↔ value = bytes ∧ unread = bytes := by
  show EStateM.Result.ok bytes bytes = _ ↔ _
  simp [eq_comm]

theorem Bounded.pure (value : α) : Bounded (Pure.pure value : Reader α) := by
  intro bytes result unread read
  cases read
  exact Nat.le_refl _

theorem Bounded.bind {first : Reader α} {next : α → Reader β} (bounded : Bounded first)
    (then_bounded : ∀ value, Bounded (next value)) : Bounded (first >>= next) := by
  intro bytes value unread read
  obtain ⟨middle, between, one, two⟩ := bind_eq_ok.mp read
  exact Nat.le_trans (then_bounded _ two) (bounded one)

theorem Consuming.bind {first : Reader α} {next : α → Reader β} (consuming : Consuming first)
    (then_bounded : ∀ value, Bounded (next value)) : Consuming (first >>= next) := by
  intro bytes value unread read
  obtain ⟨middle, between, one, two⟩ := bind_eq_ok.mp read
  exact Nat.lt_of_le_of_lt (then_bounded _ two) (consuming one)

theorem Consuming.map {reader : Reader α} (consuming : Consuming reader) (change : α → β) :
    Consuming (change <$> reader) := by
  intro bytes value unread read
  obtain ⟨inner, one, -⟩ := map_eq_ok.mp read
  exact consuming one

theorem Bounded.ofExcept (result : Except Fault α) : Bounded (ofExcept result) := by
  cases result with
  | ok value => exact Bounded.pure value
  | error fault => intro bytes value unread read; cases read

theorem atLeast_eq_ok {needed : Nat} {bytes unread : Bytes} {value : Unit} :
    atLeast needed bytes = .ok value unread ↔ needed ≤ bytes.length ∧ unread = bytes := by
  unfold atLeast
  split <;> grind

theorem take_eq_ok {count : Nat} {bytes value unread : Bytes} :
    take count bytes = .ok value unread ↔
      count ≤ bytes.length ∧ value = bytes.take count ∧ unread = bytes.drop count := by
  unfold take
  split <;> grind

theorem atLeast_bounded (needed : Nat) : Bounded (atLeast needed) := by
  intro bytes value unread read
  obtain ⟨-, rfl⟩ := atLeast_eq_ok.mp read
  exact Nat.le_refl _

theorem take_bounded (count : Nat) : Bounded (take count) := by
  intro bytes value unread read
  obtain ⟨-, -, rfl⟩ := take_eq_ok.mp read
  simp

theorem take_consuming {count : Nat} (positive : 0 < count) : Consuming (take count) := by
  intro bytes value unread read
  obtain ⟨enough, -, rfl⟩ := take_eq_ok.mp read
  simp only [List.length_drop]
  omega

theorem exactly_consuming {count : Nat} (positive : 0 < count) : Consuming (exactly count) := by
  intro bytes value unread read
  obtain ⟨_, between, one, two⟩ := bind_eq_ok.mp read
  obtain ⟨-, rfl⟩ := atLeast_eq_ok.mp one
  exact take_consuming positive two

end Reader

end Protobuf

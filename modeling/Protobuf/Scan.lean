/-
**Scans: reading a span item by item.**

A `Scanner` reads some items off the front of a byte string. Unlike a `Reader` it keeps the items
found before a fault: what a failed scan leaves behind is part of its answer.

* `ofReader`, `silent`: a reader as a scanner of one item, or of none;
* `within s`: scans the next length-delimited payload, and leaves what follows that payload, however
  far the scan came inside it;
* `untilEnd s`: repeats `s` until nothing is left. It ends because `s` is `Consuming`;
* `collect`: all items, or the fault that kept some of them from being found;
* `Edit`, `Edit.all`, `Scan.apply`: where the items are changes to a value, they are made in order. A
  scan never sees the value it changes.
-/

import Protobuf.Payload

namespace Protobuf

/-- What was read off the front of a byte string. -/
structure Scan (α : Type) where
  /-- The items found, in order. -/
  items : List α
  /-- What stopped the scan, if anything did. -/
  fault : Option Fault
  /-- The bytes not consumed. -/
  unread : Bytes

/-- Reads items off the front of a byte string. -/
abbrev Scanner (α : Type) := Bytes → Scan α

/-- A change to a value. -/
abbrev Edit (α : Type) := α → α

/-- Some changes as one, made in order. -/
def Edit.all {α : Type} (edits : List (Edit α)) : Edit α := fun value =>
  edits.foldl (fun value edit => edit value) value

namespace Scan

variable {α β : Type}

/-- A scan with every item changed. -/
def map (change : α → β) (scan : Scan α) : Scan β :=
  { scan with items := scan.items.map change }

/-- A scan with some items before its own. -/
def prepend (items : List α) (scan : Scan α) : Scan α :=
  { scan with items := items ++ scan.items }

/-- Makes the changes of a scan, in order. -/
def apply (scan : Scan (Edit α)) (target : α) : α := Edit.all scan.items target

end Scan

namespace Scanner

variable {α β : Type}

/-- A reader as a scanner of one item. -/
def ofReader (reader : Reader α) : Scanner α := fun bytes =>
  match reader bytes with
  | .ok item unread => ⟨[item], none, unread⟩
  | .error fault unread => ⟨[], some fault, unread⟩

/-- A reader as a scanner of no item. -/
def silent (reader : Reader Unit) : Scanner α := fun bytes =>
  match reader bytes with
  | .ok _ unread => ⟨[], none, unread⟩
  | .error fault unread => ⟨[], some fault, unread⟩

/-- A scanner with every item changed. -/
def map (change : α → β) (scanner : Scanner α) : Scanner β := fun bytes =>
  (scanner bytes).map change

/-- Reads a value that selects the scanner of what follows. -/
def after (reader : Reader α) (next : α → Scanner β) : Scanner β := fun bytes =>
  match reader bytes with
  | .ok value unread => next value unread
  | .error fault unread => ⟨[], some fault, unread⟩

/-- Scans the next length-delimited payload and leaves what follows it. -/
def within (scanner : Scanner α) : Scanner α := fun bytes =>
  match Payload.read bytes with
  | .ok payload unread => { scanner payload with unread }
  | .error fault unread => ⟨[], some fault, unread⟩

/-- Reads the items of a scan without a fault. -/
def collect (scanner : Scanner α) : Reader (List α) := fun bytes =>
  let scan := scanner bytes
  match scan.fault with
  | none => .ok scan.items scan.unread
  | some fault => .error fault scan.unread

/-- Without a fault no more is left than was given. -/
def Bounded (scanner : Scanner α) : Prop :=
  ∀ ⦃bytes⦄, (scanner bytes).fault = none → (scanner bytes).unread.length ≤ bytes.length

/-- Without a fault less is left than was given. -/
def Consuming (scanner : Scanner α) : Prop :=
  ∀ ⦃bytes⦄, (scanner bytes).fault = none → (scanner bytes).unread.length < bytes.length

/-- Scans again and again until nothing is left. -/
def untilEnd (scanner : Scanner α) (consuming : scanner.Consuming) (bytes : Bytes) : Scan α :=
  if bytes = [] then ⟨[], none, []⟩
  else
    let first := scanner bytes
    if _ : first.fault = none then
      (untilEnd scanner consuming first.unread).prepend first.items
    else first
termination_by bytes.length
decreasing_by exact consuming ‹_›

/-! ### One step of the loop -/

theorem untilEnd_nil (scanner : Scanner α) (consuming : scanner.Consuming) :
    untilEnd scanner consuming [] = ⟨[], none, []⟩ := by
  unfold untilEnd
  exact if_pos rfl

/-- A fault ends the loop with what was found before it. -/
theorem untilEnd_of_fault {scanner : Scanner α} (consuming : scanner.Consuming) {bytes : Bytes}
    (more : bytes ≠ []) {fault : Fault} (stopped : (scanner bytes).fault = some fault) :
    untilEnd scanner consuming bytes = scanner bytes := by
  unfold untilEnd
  simp [more, stopped]

/-- Without a fault the loop goes on with the bytes left. -/
theorem untilEnd_of_items {scanner : Scanner α} (consuming : scanner.Consuming) {bytes : Bytes}
    (more : bytes ≠ []) (ended : (scanner bytes).fault = none) :
    untilEnd scanner consuming bytes =
      (untilEnd scanner consuming (scanner bytes).unread).prepend (scanner bytes).items := by
  conv => lhs; unfold untilEnd
  simp [more, ended]

theorem untilEnd_ofReader_ok {reader : Reader α} {consuming : (ofReader reader).Consuming}
    {bytes rest : Bytes} {item : α} (taken : reader bytes = .ok item rest) :
    untilEnd (ofReader reader) consuming bytes
      = (untilEnd (ofReader reader) consuming rest).prepend [item] := by
  have found : ofReader reader bytes = ⟨[item], none, rest⟩ := by simp only [ofReader, taken]
  have more : bytes ≠ [] := by
    rintro rfl
    have less := @consuming [] (by rw [found])
    rw [found] at less
    exact Nat.not_lt_zero _ less
  rw [untilEnd_of_items consuming more (by rw [found]), found]

theorem untilEnd_ofReader_error {reader : Reader α} {consuming : (ofReader reader).Consuming}
    {bytes rest : Bytes} {fault : Fault} (more : bytes ≠ [])
    (failed : reader bytes = .error fault rest) :
    untilEnd (ofReader reader) consuming bytes = ⟨[], some fault, rest⟩ := by
  have found : ofReader reader bytes = ⟨[], some fault, rest⟩ := by simp only [ofReader, failed]
  rw [untilEnd_of_fault consuming more (by rw [found]), found]

theorem collect_eq_ok {scanner : Scanner α} {bytes rest : Bytes} {items : List α} :
    scanner.collect bytes = .ok items rest ↔ scanner bytes = ⟨items, none, rest⟩ := by
  unfold collect
  obtain ⟨found, fault, unread⟩ := scanner bytes
  cases fault <;> simp

/-! ### Progress -/

theorem Consuming.bounded {scanner : Scanner α} (consuming : scanner.Consuming) :
    scanner.Bounded :=
  fun _ ended => Nat.le_of_lt (consuming ended)

theorem ofReader_consuming {reader : Reader α} (consuming : reader.Consuming) :
    (ofReader reader).Consuming := by
  intro bytes ended
  unfold ofReader at ended ⊢
  split at ended
  · next taken => exact consuming taken
  · cases ended

theorem silent_consuming {reader : Reader Unit} (consuming : reader.Consuming) :
    (silent reader : Scanner α).Consuming := by
  intro bytes ended
  unfold silent at ended ⊢
  split at ended
  · next taken => exact consuming taken
  · cases ended

theorem Consuming.map {scanner : Scanner α} (consuming : scanner.Consuming) (change : α → β) :
    (scanner.map change).Consuming :=
  fun _ ended => consuming ended

theorem within_consuming (scanner : Scanner α) : (within scanner).Consuming := by
  intro bytes ended
  unfold within at ended ⊢
  split at ended
  · next taken => exact Payload.read_consuming taken
  · cases ended

theorem collect_bounded {scanner : Scanner α} (bounded : scanner.Bounded) :
    scanner.collect.Bounded := by
  intro bytes items unread taken
  have found := collect_eq_ok.mp taken
  have less := @bounded bytes (by rw [found])
  rwa [found] at less

theorem after_consuming {reader : Reader α} {next : α → Scanner β} (consuming : reader.Consuming)
    (bounded : ∀ value, (next value).Bounded) : (after reader next).Consuming := by
  intro bytes ended
  unfold after at ended ⊢
  split at ended
  · next taken => exact Nat.lt_of_le_of_lt (bounded _ ended) (consuming taken)
  · cases ended

end Scanner

end Protobuf

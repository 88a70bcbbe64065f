/-
**Maps from strings to strings.**

A `TextMap` keeps its entries with strictly increasing keys, in the order of their UTF-8 bytes. So a
key occurs once, and two maps with the same entries are equal.

* `TextMap.insert`: sets the value of a key, whatever it was;
* `TextMap.get?`: the value of a key;
* `TextMap.union`: the entries of two maps, the later one deciding a key of both.
-/

import Protobuf.Utf8

namespace Protobuf

/-- A map from strings to strings. -/
structure TextMap where
  /-- The entries, by increasing keys. -/
  entries : List (String × String) := []
  /-- Keys strictly increase in the order of their UTF-8 bytes. -/
  increasing : entries.Pairwise fun one other => Utf8.encode one.1 < Utf8.encode other.1 := by
    exact .nil

namespace TextMap

/-- The map without entries. -/
def empty : TextMap := {}

/-- The entries with the value of one key set. -/
def insertEntry (key value : String) : List (String × String) → List (String × String)
  | [] => [(key, value)]
  | entry :: rest =>
    if key = entry.1 then (key, value) :: rest
    else if Utf8.encode key < Utf8.encode entry.1 then (key, value) :: entry :: rest
    else entry :: insertEntry key value rest

theorem mem_insertEntry {key value : String} {entries : List (String × String)}
    {entry : String × String} (member : entry ∈ insertEntry key value entries) :
    entry = (key, value) ∨ entry ∈ entries := by
  induction entries with
  | nil => simpa [insertEntry] using member
  | cons head rest ih =>
    unfold insertEntry at member
    split at member
    · grind
    · split at member
      · grind
      · grind

/-- Setting the value of a key keeps the order. -/
theorem insertEntry_increasing (key value : String) {entries : List (String × String)}
    (increasing : entries.Pairwise fun one other => Utf8.encode one.1 < Utf8.encode other.1) :
    (insertEntry key value entries).Pairwise
      fun one other => Utf8.encode one.1 < Utf8.encode other.1 := by
  induction entries with
  | nil => simp [insertEntry]
  | cons head rest ih =>
    obtain ⟨below, sorted⟩ := List.pairwise_cons.mp increasing
    unfold insertEntry
    split
    · next same =>
      subst same
      exact List.pairwise_cons.mpr ⟨below, sorted⟩
    · next other =>
      split
      · next before =>
        refine List.pairwise_cons.mpr ⟨fun entry member => ?_, increasing⟩
        rcases List.mem_cons.mp member with rfl | member
        · exact before
        · exact List.lt_trans before (below entry member)
      · next after =>
        refine List.pairwise_cons.mpr ⟨fun entry member => ?_, ih sorted⟩
        rcases mem_insertEntry member with rfl | member
        · rcases List.le_iff_lt_or_eq.mp (List.not_lt.mp after) with less | same
          · exact less
          · exact absurd (Utf8.encode_injective same).symm other
        · exact below entry member

/-- Sets the value of a key. -/
def insert (key value : String) (map : TextMap) : TextMap :=
  ⟨insertEntry key value map.entries, insertEntry_increasing key value map.increasing⟩

/-- The value of a key. -/
def get? (map : TextMap) (key : String) : Option String := map.entries.lookup key

/-- A map with some entries set, in order. -/
def insertAll (entries : List (String × String)) (map : TextMap) : TextMap :=
  entries.foldl (fun map entry => map.insert entry.1 entry.2) map

/-- The map of some entries set in order. -/
def ofList (entries : List (String × String)) : TextMap := insertAll entries empty

/-- The entries of two maps; a key of both has the value of the later one. -/
def union (earlier later : TextMap) : TextMap := insertAll later.entries earlier

/-- Maps are equal if their entries are. -/
@[ext] theorem ext {first second : TextMap} (same : first.entries = second.entries) :
    first = second := by
  cases first
  cases second
  simp_all

instance : DecidableEq TextMap := fun first second =>
  decidable_of_iff (first.entries = second.entries)
    ⟨ext, fun same => congrArg TextMap.entries same⟩

end TextMap

end Protobuf

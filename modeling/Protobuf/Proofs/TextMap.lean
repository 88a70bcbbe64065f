/-
**Maps by their lookups.**

* `TextMap.get?_insert`, `TextMap.get?_union`: what is found after setting a key, and in a union;
* `TextMap.get?_ofList`: what is found after setting some keys in order, the last setting of a key;
* `TextMap.mem_entries`: what is found is in the entries;
* `TextMap.ext_get?`: maps in which the same is found under every key are equal, because entries stand
  in the order of their keys;
* `TextMap.union_empty`: setting the entries of a map in the empty map rebuilds it.
-/

import Protobuf.TextMap

namespace Protobuf.TextMap

theorem lookup_cons_eq_ite (entry : String × String) (rest : List (String × String))
    (wanted : String) :
    (entry :: rest).lookup wanted = if wanted = entry.1 then some entry.2 else rest.lookup wanted := by
  rw [List.lookup_cons]
  by_cases hit : wanted = entry.1
  · rw [if_pos hit, beq_iff_eq.mpr hit]
  · rw [if_neg hit, beq_eq_false_iff_ne.mpr hit]

theorem lookup_insertEntry (key value wanted : String) (entries : List (String × String)) :
    (insertEntry key value entries).lookup wanted
      = if wanted = key then some value else entries.lookup wanted := by
  induction entries with
  | nil => exact lookup_cons_eq_ite (key, value) [] wanted
  | cons entry rest ih =>
    unfold insertEntry
    by_cases same : key = entry.1
    · rw [if_pos same, lookup_cons_eq_ite, lookup_cons_eq_ite, ← same]
      by_cases hit : wanted = key
      · rw [if_pos hit, if_pos hit]
      · rw [if_neg hit, if_neg hit, if_neg hit]
    · rw [if_neg same]
      by_cases before : Utf8.encode key < Utf8.encode entry.1
      · rw [if_pos before, lookup_cons_eq_ite]
      · rw [if_neg before, lookup_cons_eq_ite, lookup_cons_eq_ite, ih]
        by_cases hit : wanted = entry.1
        · rw [if_pos hit, if_pos hit, if_neg fun other => same (other.symm.trans hit)]
        · rw [if_neg hit, if_neg hit]

theorem get?_insert (key value wanted : String) (map : TextMap) :
    (map.insert key value).get? wanted = if wanted = key then some value else map.get? wanted :=
  lookup_insertEntry key value wanted map.entries

/-- Nothing is found below the first key. -/
theorem lookup_eq_none_of_lt {key : String} {entries : List (String × String)}
    (below : ∀ entry ∈ entries, Utf8.encode key < Utf8.encode entry.1) :
    entries.lookup key = none := by
  rw [List.lookup_eq_none_iff]
  intro entry member
  have less := below entry member
  rw [bne_iff_ne]
  rintro rfl
  exact List.lt_irrefl _ less

theorem get?_insertAll {entries : List (String × String)}
    (increasing : entries.Pairwise fun one other => Utf8.encode one.1 < Utf8.encode other.1)
    (map : TextMap) (key : String) :
    (insertAll entries map).get? key = (entries.lookup key).or (map.get? key) := by
  induction entries generalizing map with
  | nil => rfl
  | cons entry rest ih =>
    obtain ⟨below, sorted⟩ := List.pairwise_cons.mp increasing
    show (insertAll rest (map.insert entry.1 entry.2)).get? key = _
    rw [ih sorted, get?_insert, lookup_cons_eq_ite]
    by_cases same : key = entry.1
    · subst same
      rw [lookup_eq_none_of_lt below, if_pos rfl, if_pos rfl]
      rfl
    · rw [if_neg same, if_neg same]

/-- Of entries in any order the last one with a key decides. -/
theorem get?_insertAll_reverse (entries : List (String × String)) (map : TextMap) (key : String) :
    (insertAll entries map).get? key = (entries.reverse.lookup key).or (map.get? key) := by
  induction entries generalizing map with
  | nil => rfl
  | cons entry rest ih =>
    show (insertAll rest (map.insert entry.1 entry.2)).get? key = _
    rw [ih, get?_insert, List.reverse_cons, List.lookup_append, Option.or_assoc, lookup_cons_eq_ite]
    by_cases same : key = entry.1
    · rw [if_pos same, if_pos same, Option.some_or]
    · rw [if_neg same, if_neg same]
      rfl

theorem get?_ofList (entries : List (String × String)) (key : String) :
    (ofList entries).get? key = entries.reverse.lookup key :=
  (get?_insertAll_reverse entries empty key).trans Option.or_none

/-- Lists in the order of their keys hold what is found in them. -/
theorem mem_iff_lookup {entries : List (String × String)}
    (increasing : entries.Pairwise fun one other => Utf8.encode one.1 < Utf8.encode other.1)
    (key value : String) : (key, value) ∈ entries ↔ entries.lookup key = some value := by
  induction entries with
  | nil => simp
  | cons entry rest ih =>
    obtain ⟨below, sorted⟩ := List.pairwise_cons.mp increasing
    rw [List.mem_cons, lookup_cons_eq_ite, ih sorted]
    by_cases same : key = entry.1
    · subst same
      rw [if_pos rfl, lookup_eq_none_of_lt below, Option.some.injEq]
      simp [Prod.ext_iff, eq_comm]
    · rw [if_neg same]
      simp [Prod.ext_iff, same]

/-- **A map holds the entries that are found in it.** -/
theorem mem_entries (map : TextMap) (key value : String) :
    (key, value) ∈ map.entries ↔ map.get? key = some value :=
  mem_iff_lookup map.increasing key value

/-- **The later map decides a key of both.** -/
theorem get?_union (earlier later : TextMap) (key : String) :
    (earlier.union later).get? key = (later.get? key).or (earlier.get? key) :=
  get?_insertAll later.increasing earlier key

/-- Lists in the order of their keys are told apart by a lookup. -/
theorem eq_of_lookup_eq {first second : List (String × String)}
    (sorted : first.Pairwise fun one other => Utf8.encode one.1 < Utf8.encode other.1)
    (sorted' : second.Pairwise fun one other => Utf8.encode one.1 < Utf8.encode other.1)
    (same : ∀ key, first.lookup key = second.lookup key) : first = second := by
  induction first generalizing second with
  | nil =>
    cases second with
    | nil => rfl
    | cons entry rest =>
      have found := same entry.1
      rw [lookup_cons_eq_ite, if_pos rfl] at found
      cases found
  | cons entry rest ih =>
    cases second with
    | nil =>
      have found := same entry.1
      rw [lookup_cons_eq_ite, if_pos rfl] at found
      cases found
    | cons entry' rest' =>
      obtain ⟨below, sortedRest⟩ := List.pairwise_cons.mp sorted
      obtain ⟨below', sortedRest'⟩ := List.pairwise_cons.mp sorted'
      -- the smaller of two different first keys would be found on one side only
      have sameKey : entry.1 = entry'.1 := by
        by_cases less : Utf8.encode entry.1 < Utf8.encode entry'.1
        · have found := same entry.1
          rw [lookup_cons_eq_ite, if_pos rfl, lookup_eq_none_of_lt (List.forall_mem_cons.mpr
            ⟨less, fun other member => List.lt_trans less (below' other member)⟩)] at found
          cases found
        · rcases List.le_iff_lt_or_eq.mp (List.not_lt.mp less) with more | equal
          · have found := same entry'.1
            rw [lookup_cons_eq_ite entry' rest', if_pos rfl,
              lookup_eq_none_of_lt (List.forall_mem_cons.mpr
                ⟨more, fun other member => List.lt_trans more (below other member)⟩)] at found
            cases found
          · exact (Utf8.encode_injective equal).symm
      have sameValue : entry.2 = entry'.2 := by
        have found := same entry.1
        rw [lookup_cons_eq_ite, lookup_cons_eq_ite, if_pos rfl, if_pos sameKey] at found
        exact Option.some.inj found
      have sameRest : rest = rest' := ih sortedRest sortedRest' fun key => by
        by_cases hit : key = entry.1
        · subst hit
          rw [lookup_eq_none_of_lt below, sameKey, lookup_eq_none_of_lt below']
        · have found := same key
          rwa [lookup_cons_eq_ite, lookup_cons_eq_ite, ← sameKey, if_neg hit, if_neg hit] at found
      rw [sameRest, Prod.ext sameKey sameValue]

/-- **Maps in which the same is found are equal.** -/
theorem ext_get? {first second : TextMap} (same : ∀ key, first.get? key = second.get? key) :
    first = second :=
  TextMap.ext (eq_of_lookup_eq first.increasing second.increasing same)

theorem union_empty (map : TextMap) : union empty map = map :=
  ext_get? fun key => by
    rw [get?_union]
    exact Option.or_none

end Protobuf.TextMap

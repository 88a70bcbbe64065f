/-
**What is merged is written again in at most seven thirds of its bytes.**

Every byte that a message is written with is charged to a field that was merged: three bytes that a field
adds to what its member is written as are paid for by seven bytes of the field.

* `Scanner.Pays`: the edits of a scan cost no more than the bytes that it takes, and a credit, pay for;
* `Scanner.Pays.untilEnd`: a loop pays for what its rounds pay for;
* `Payload.length_encode_le_of_le`, `Payload.paid`: a longer payload needs a longer length, which the
  tag and the length of the field pay for;
* `Entry.body_pays`: the members of an entry are written also if they were left out. Only a tag of two
  bytes pays for them;
* `Kind.scan_pays`: so an occurrence, its tag being the credit, pays for what it changes in its member;
* `Message.scan_pays`, `Message.cost_le_of_decode`: and a merge pays for what it changes, and its bytes
  for the message, if the rows do;
* `Message.FrugalTable.scan_pays`: which they do where the members of other rows grow no longer;
* `FooBar.Example1.length_encode_le_of_decode`: so for the example.
-/

import Mathlib.Data.List.Nodup
import Protobuf.Proofs.CanonicalForm
import Protobuf.Proofs.Independence
import Protobuf.Proofs.Truncation
import Protobuf.Proofs.Width

namespace Protobuf

variable {α β : Type}

/-! ### Scans that pay for their edits -/

namespace Scanner

/-- Whether the edits of a scan without a fault cost no more than is paid for by the bytes that it takes,
each at a rate, and by a credit. -/
def Pays (scanner : Scanner (Edit β)) (cost : β → Nat) (rate credit : Nat) : Prop :=
  ∀ bytes, (scanner bytes).fault = none → ∀ value,
    cost (Edit.all (scanner bytes).items value) + rate * (scanner bytes).unread.length
      ≤ cost value + rate * bytes.length + credit

variable {cost : β → Nat} {rate credit : Nat}

theorem Pays.ofReader {reader : Reader α} {change : α → Edit β}
    (pays : ∀ {bytes value unread}, reader bytes = .ok value unread → ∀ before,
      cost (change value before) + rate * unread.length
        ≤ cost before + rate * bytes.length + credit) :
    ((Scanner.ofReader reader).map change).Pays cost rate credit := by
  intro bytes ended before
  simp only [Scanner.map, Scanner.ofReader] at ended ⊢
  cases taken : reader bytes with
  | error fault unread =>
    rw [taken] at ended
    cases ended
  | ok value unread => exact pays taken before

/-- What makes no edit pays for nothing. -/
theorem Pays.silent {reader : Reader Unit} (bounded : reader.Bounded) :
    (Scanner.silent reader : Scanner (Edit β)).Pays cost rate credit := by
  intro bytes ended value
  simp only [Scanner.silent] at ended ⊢
  cases taken : reader bytes with
  | error fault unread =>
    rw [taken] at ended
    cases ended
  | ok nothing unread =>
    have left := Nat.mul_le_mul_left rate (bounded taken)
    show cost value + rate * unread.length ≤ _
    omega

/-- What costs nothing is paid for. -/
theorem Pays.free {scanner : Scanner (Edit β)} (bounded : scanner.Bounded) :
    scanner.Pays (fun _ => 0) rate credit := by
  intro bytes ended value
  have left := Nat.mul_le_mul_left rate (bounded ended)
  dsimp only
  omega

/-- The bytes of a tag are a credit to what is read behind it. -/
theorem Pays.after_tag {next : Tag → Scanner (Edit β)}
    (pays : ∀ tag, (next tag).Pays cost rate (rate * Tag.width tag.number)) :
    (Scanner.after Tag.read next).Pays cost rate 0 := by
  intro bytes ended value
  simp only [Scanner.after] at ended ⊢
  cases taken : Tag.read bytes with
  | error fault unread =>
    rw [taken] at ended
    cases ended
  | ok tag behind =>
    rw [taken] at ended
    have paid := pays tag behind ended value
    have head := Nat.mul_le_mul_left rate (Tag.width_le_of_read taken)
    rw [Nat.mul_add] at head
    dsimp only
    omega

/-- **A loop pays for what its rounds pay for.** -/
theorem Pays.untilEnd {scanner : Scanner (Edit β)} (consuming : scanner.Consuming)
    (pays : scanner.Pays cost rate 0) : Pays (Scanner.untilEnd scanner consuming) cost rate 0 := by
  intro bytes ended value
  fun_induction Scanner.untilEnd scanner consuming bytes generalizing value with
  | case1 => exact Nat.le_refl _
  | case2 bytes more first continues ih =>
    have one := pays bytes continues value
    have rest := ih ended (Edit.all first.items value)
    simp only [Scan.prepend, Edit.all_append]
    exact Nat.le_trans rest one
  | case3 bytes more first stopped => exact absurd ended stopped

end Scanner

/-! ### Lengths before payloads -/

namespace Payload

theorem length_encode (payload : Bytes) :
    (encode payload).length = (Varint.encode payload.length).length + payload.length := by
  rw [encode, List.length_append]

/-- A payload that is longer by so much is written in so many more bytes, and those of their number. -/
theorem length_encode_le_of_le {before after : Bytes} {added : Nat}
    (le : after.length ≤ before.length + added) :
    (encode after).length ≤ (encode before).length + (Varint.encode added).length + added := by
  have longer := Varint.length_encode_mono le
  have sum := Varint.length_encode_add_le before.length added
  rw [length_encode, length_encode]
  omega

/-- **A tag and a length pay for a tag and a longer length.** -/
theorem paid (number : Nat) {added : Nat} {bytes payload unread : Bytes}
    (taken : read bytes = .ok payload unread) (le : 3 * added ≤ 7 * payload.length) :
    3 * (Tag.width number + (Varint.encode added).length + added) + 7 * unread.length
      ≤ 7 * bytes.length + 7 * Tag.width number := by
  have whole := length_encode_le_of_read taken
  have width := Tag.width_pos number
  have longer : (Varint.encode added).length ≤ (Varint.encode payload.length).length + 1 :=
    Varint.length_encode_le_succ (by omega)
  rw [length_encode] at whole
  omega

end Payload

/-- A field of one value is as long as its tag and its value. -/
theorem Scalar.length_field (number : Nat) (type : ScalarType) (value : type.Value) :
    (field number ⟨type, value⟩).length = Tag.width number + (type.encode value).length := by
  rw [field, List.length_append, Tag.length_encode]
  rfl

/-- A value that was read pays for a field. -/
theorem ScalarType.paid {type : ScalarType} (number : Nat) {value : type.Value} {bytes unread : Bytes}
    (taken : type.read bytes = .ok value unread) :
    3 * (Scalar.field number ⟨type, value⟩).length + 7 * unread.length
      ≤ 7 * bytes.length + 7 * Tag.width number := by
  have whole := type.length_encode_le_of_read taken
  rw [Scalar.length_field]
  omega

/-! ### Entries of maps -/

namespace Entry

/-- The bytes of the key and of the value of an entry. -/
def size (entry : String × String) : Nat :=
  (Payload.encode (Utf8.encode entry.1)).length + (Payload.encode (Utf8.encode entry.2)).length

theorem field_pays : (field .string .string).Pays size 1 0 := by
  refine .after_tag fun tag => ?_
  have positive := Tag.width_pos tag.number
  unfold member
  split
  · refine .ofReader fun {bytes} {text} {unread} taken before => ?_
    have whole := Payload.length_encode_le_of_read (ScalarType.readString_eq_ok.mp taken)
    simp only [size]
    omega
  · split
    · refine .ofReader fun {bytes} {text} {unread} taken before => ?_
      have whole := Payload.length_encode_le_of_read (ScalarType.readString_eq_ok.mp taken)
      simp only [size]
      omega
    · exact .silent (Payload.skip_consuming tag.wire).bounded

theorem length_encode (entry : String × String) :
    (encode (some ⟨.string, entry.1⟩) (some ⟨.string, entry.2⟩)).length = 2 + size entry := by
  have key : Tag.width keyNumber = 1 := by decide +kernel
  have value : Tag.width valueNumber = 1 := by decide +kernel
  simp only [encode, Option.elim, List.length_append, Scalar.length_field, key, value,
    ScalarType.encode, size]
  omega

/-- **An entry is written in at most four bytes more than it was read off**: the tags and the lengths of
a key and a value that were left out. -/
theorem length_encode_le_of_read {bytes unread : Bytes} {entry : String × String}
    (taken : read .string .string bytes = .ok entry unread) :
    ∃ payload, Payload.read bytes = .ok payload unread ∧
      (encode (some ⟨.string, entry.1⟩) (some ⟨.string, entry.2⟩)).length ≤ payload.length + 4 := by
  rw [read_eq] at taken
  obtain ⟨edits, found, rfl⟩ := Reader.map_eq_ok.mp taken
  have scanned := Scanner.collect_eq_ok.mp found
  simp only [Scanner.within] at scanned
  cases announced : Payload.read bytes with
  | error fault rest =>
    rw [announced] at scanned
    cases congrArg Scan.fault scanned
  | ok payload rest =>
    rw [announced] at scanned
    obtain rfl : rest = unread := congrArg Scan.unread scanned
    have ended : (body .string .string payload).fault = none := congrArg Scan.fault scanned
    have items : (body .string .string payload).items = edits := congrArg Scan.items scanned
    have paid := field_pays.untilEnd (field_consuming .string .string) payload ended
      (ScalarType.string.default, ScalarType.string.default)
    have empty : size (ScalarType.string.default, ScalarType.string.default) = 2 := by decide +kernel
    refine ⟨payload, rfl, ?_⟩
    show (encode (some ⟨.string, (Edit.all edits _).1⟩)
      (some ⟨.string, (Edit.all edits _).2⟩)).length ≤ _
    rw [length_encode, ← items]
    unfold body
    omega

/-- **A tag of two bytes pays for an entry**, even if it has neither a key nor a value. -/
theorem paid {number : Nat} (large : 16 ≤ number) {bytes unread : Bytes} {entry : String × String}
    (taken : read .string .string bytes = .ok entry unread) :
    3 * (Tag.encode number .lengthDelimited ++ Payload.encode
        (encode (some ⟨.string, entry.1⟩) (some ⟨.string, entry.2⟩))).length + 7 * unread.length
      ≤ 7 * bytes.length + 7 * Tag.width number := by
  obtain ⟨payload, announced, longer⟩ := length_encode_le_of_read taken
  have width := Tag.two_le_width large
  have whole := Payload.length_encode_le_of_read announced
  have length := Payload.length_encode_le_of_le longer
  have four : (Varint.encode 4).length = 1 := by decide +kernel
  rw [four] at length
  rw [List.length_append, Tag.length_encode]
  rw [Payload.length_encode payload] at whole length
  have positive := Varint.length_encode_pos payload.length
  by_cases nothing : payload.length = 0
  · -- the length of an empty entry is that of an entry of four bytes
    rw [Payload.length_encode]
    have small := Varint.length_encode_mono longer
    rw [nothing, Nat.zero_add, four] at small
    omega
  · omega

end Entry

theorem TextMap.length_flatMap_insertEntry (f : String × String → Bytes) (key value : String)
    (entries : List (String × String)) :
    ((insertEntry key value entries).flatMap f).length
      ≤ (entries.flatMap f).length + (f (key, value)).length := by
  induction entries with
  | nil => simp [insertEntry]
  | cons entry rest ih =>
    unfold insertEntry
    split
    · simp only [List.flatMap_cons, List.length_append]
      omega
    · split
      · simp only [List.flatMap_cons, List.length_append]
        omega
      · simp only [List.flatMap_cons, List.length_append] at ih ⊢
        omega

/-! ### Elements of lists -/

namespace Repeated

variable {type : ScalarType}

/-- The values of a run are written in at most seven thirds of its bytes. -/
theorem length_le_of_untilEnd {bytes : Bytes}
    (ended : (Scanner.untilEnd (single type) (single_consuming type) bytes).fault = none) :
    3 * ((Scanner.untilEnd (single type) (single_consuming type) bytes).items.flatMap
      type.encode).length ≤ 7 * bytes.length := by
  fun_induction Scanner.untilEnd (single type) (single_consuming type) bytes with
  | case1 => exact Nat.zero_le _
  | case2 bytes more first continues ih =>
    have rest := ih ended
    cases taken : type.read bytes with
    | error fault unread => simp only [first, single, Scanner.ofReader, taken, reduceCtorEq] at continues
    | ok value unread =>
      have found : first = ⟨[value], none, unread⟩ := by
        simp only [first, single, Scanner.ofReader, taken]
      rw [found] at rest ⊢
      have paid := type.length_encode_le_of_read taken
      simp only [Scan.prepend, List.singleton_append, List.flatMap_cons, List.length_append] at rest ⊢
      omega
  | case3 bytes more first stopped => exact absurd ended stopped

/-- Elements make a run longer by their bytes and the bytes of their number; the first ones need a tag
as well. -/
theorem length_packed_append (number : Nat) (values added : List type.Value) :
    (packed number type (values ++ added)).length ≤ (packed number type values).length
      + (Tag.width number + (Varint.encode (added.flatMap type.encode).length).length
        + (added.flatMap type.encode).length) := by
  unfold packed
  by_cases none : values = []
  · subst none
    rw [List.nil_append]
    split
    · exact Nat.zero_le _
    · rw [if_pos rfl, List.length_append, Tag.length_encode, Payload.length_encode, List.length_nil]
      omega
  · have sum : ((values ++ added).flatMap type.encode).length
        ≤ (values.flatMap type.encode).length + (added.flatMap type.encode).length :=
      Nat.le_of_eq (by rw [List.flatMap_append, List.length_append])
    have longer := Payload.length_encode_le_of_le sum
    rw [if_neg none, if_neg fun nothing => none (List.append_eq_nil_iff.mp nothing).1]
    simp only [List.length_append, Tag.length_encode]
    omega

theorem single_pays_unpacked (number : Nat) :
    ((single type).map fun value values => values ++ [value]).Pays
      (fun values => 3 * (unpacked number type values).length) 7 (7 * Tag.width number) := by
  refine .ofReader fun taken values => ?_
  have paid := ScalarType.paid number taken
  simp only [unpacked, List.flatMap_append, List.flatMap_cons, List.flatMap_nil, List.append_nil,
    List.length_append]
  omega

theorem single_pays_packed (bare : type.wireType ≠ .lengthDelimited) (number : Nat) :
    ((single type).map fun value values => values ++ [value]).Pays
      (fun values => 3 * (packed number type values).length) 7 (7 * Tag.width number) := by
  refine .ofReader fun {bytes} {value} {unread} taken values => ?_
  have paid := type.length_encode_le_of_read taken
  have width := Tag.width_pos number
  have longer := length_packed_append number values [value]
  have small : (Varint.encode (type.encode value).length).length ≤ 1 :=
    Varint.length_encode_le (Nat.lt_of_le_of_lt (ScalarType.length_encode_le_of_bare bare value)
      (by decide))
  simp only [List.flatMap_cons, List.flatMap_nil, List.append_nil] at longer
  omega

theorem run_pays (number : Nat) :
    ((run type).map fun value values => values ++ [value]).Pays
      (fun values => 3 * (packed number type values).length) 7 (7 * Tag.width number) := by
  intro bytes ended values
  simp only [Scanner.map, run, Scanner.within] at ended ⊢
  cases announced : Payload.read bytes with
  | error fault unread =>
    rw [announced] at ended
    cases ended
  | ok payload unread =>
    rw [announced] at ended
    have run := length_le_of_untilEnd ended
    have paid := Payload.paid number announced run
    have longer := length_packed_append number values
      (Scanner.untilEnd (single type) (single_consuming type) payload).items
    simp only [Scan.map, Kind.all_push]
    omega

end Repeated

/-! ### Occurrences -/

namespace Kind

variable {V : Type}

/-- Whether an occurrence of a member under a number pays for what it changes: what is embedded does, a
map has a number whose tag takes two bytes, and a choice is the value that it was made of. -/
def Frugal : {V : Type} → Kind V → (number : Nat) → Prop
  | _, embedded N, _ => Message.encode (Message.empty : N) = [] ∧
      (Message.scan N).Pays (fun message => 3 * (Message.encode message).length) 7 0
  | _, textMap, number => 16 ≤ number
  | _, alternative _ choose chosen, _ => ∀ value, chosen (choose value) = some value
  | _, _, _ => True

theorem scan_pays_embedded {N : Type} [Message N] {number : Nat}
    (frugal : (embedded N).Frugal number) (wire : Nat) :
    ((embedded N).scan wire).Pays (fun message => 3 * ((embedded N).encode number message).length) 7
      (7 * Tag.width number) := by
  obtain ⟨unset, pays⟩ := frugal
  intro bytes ended message
  simp only [scan, Scanner.within] at ended ⊢
  cases announced : Payload.read bytes with
  | error fault unread =>
    rw [announced] at ended
    cases ended
  | ok payload unread =>
    rw [announced] at ended
    have inner := pays payload ended (message.getD Message.empty)
    simp only [Scan.map, Edit.all_cons, all_map_some, encode, List.length_append, Tag.length_encode]
    generalize Edit.all (Message.scan N payload).items (message.getD Message.empty) = after at inner ⊢
    dsimp only at inner
    cases message with
    | none =>
      rw [show (none : Option N).getD Message.empty = Message.empty from rfl, unset,
        List.length_nil] at inner
      have grown : 3 * (Message.encode after).length ≤ 7 * payload.length := by omega
      have paid := Payload.paid number announced grown
      simp only [Payload.length_encode (Message.encode after), List.length_nil]
      omega
    | some before =>
      rw [show (some before).getD Message.empty = before from rfl] at inner
      have grown : 3 * ((Message.encode after).length - (Message.encode before).length)
          ≤ 7 * payload.length := by
        omega
      have sum : (Message.encode after).length ≤ (Message.encode before).length
          + ((Message.encode after).length - (Message.encode before).length) := by
        omega
      have paid := Payload.paid number announced grown
      have longer := Payload.length_encode_le_of_le sum
      simp only [List.length_append, Tag.length_encode]
      omega

/-- **An occurrence pays for what it changes in its member**, its tag being a credit. -/
theorem scan_pays {kind : Kind V} {number : Nat} (frugal : kind.Frugal number) (wire : Nat) :
    (kind.scan wire).Pays (fun value => 3 * (kind.encode number value).length) 7
      (7 * Tag.width number) := by
  cases kind with
  | singular type =>
    refine .ofReader fun {bytes} {value} {unread} taken before => ?_
    have paid := ScalarType.paid number taken
    simp only [encode]
    split
    · simp only [List.length_nil]
      omega
    · omega
  | enumeration E =>
    refine .ofReader fun {bytes} {value} {unread} taken before => ?_
    have paid := ScalarType.paid number taken
    simp only [encode, OpenEnum.number_ofNumber]
    split
    · simp only [List.length_nil]
      omega
    · omega
  | «repeated» type =>
    by_cases framed : type.wireType = .lengthDelimited
    · have bare : Repeated.isPacked wire type.wireType = false := by simp [Repeated.isPacked, framed]
      simp only [scan, Repeated.scan, bare, encode, if_pos framed]
      exact Repeated.single_pays_unpacked number
    · simp only [scan, Repeated.scan, encode, if_neg framed]
      split
      · exact Repeated.run_pays number
      · exact Repeated.single_pays_packed framed number
  | embedded N => exact scan_pays_embedded frugal wire
  | textMap =>
    refine .ofReader fun {bytes} {entry} {unread} taken map => ?_
    have paid := Entry.paid frugal taken
    have longer := TextMap.length_flatMap_insertEntry (fun entry =>
      Tag.encode number .lengthDelimited ++
        Payload.encode (Entry.encode (some ⟨.string, entry.1⟩) (some ⟨.string, entry.2⟩)))
      entry.1 entry.2 map.entries
    simp only [encode, TextMap.insert]
    dsimp only at longer
    omega
  | alternative type choose chosen =>
    refine .ofReader fun {bytes} {value} {unread} taken before => ?_
    have paid := ScalarType.paid number taken
    simp only [encode, Option.bind_some, frugal value]
    omega

end Kind

/-! ### Rows -/

/-- A row pays for what it changes in a message, if that costs no more than what it changes in the
member. -/
theorem Field.Lawful.scan_pays {M : Type} {row : Field M} (lawful : row.Lawful) {wire : Nat}
    {own : row.Value → Nat} {cost : M → Nat} {rate credit : Nat}
    (pays : (row.kind.scan wire).Pays own rate credit)
    (grows : ∀ bytes, (row.kind.scan wire bytes).fault = none → ∀ message,
      cost (row.update (Edit.all (row.kind.scan wire bytes).items) message) + own (row.get message)
        ≤ cost message + own (Edit.all (row.kind.scan wire bytes).items (row.get message))) :
    (row.scan wire).Pays cost rate credit := by
  intro bytes ended message
  have member := pays bytes ended (row.get message)
  have whole := grows bytes ended message
  simp only [scan, Scanner.map, Scan.map, lawful.all_update]
  omega

/-- A row whose member costs nothing pays for it. -/
theorem Field.Lawful.scan_pays_free {M : Type} {row : Field M} (lawful : row.Lawful) (wire : Nat)
    {cost : M → Nat} {rate credit : Nat}
    (same : ∀ value message, cost (row.set value message) = cost message) :
    (row.scan wire).Pays cost rate credit :=
  lawful.scan_pays (.free (row.kind.scan_consuming wire).bounded) fun _ _ message =>
    Nat.le_of_eq (same _ message)

/-- **A merge pays for what it changes if every row does**, its tag being a credit. -/
theorem Message.scan_pays {M : Type} [Message M] {fields : List (Field M)}
    (table : ∀ tag, (payload tag : Scanner (Edit M)) = payloadOf fields tag) {cost : M → Nat}
    {rate : Nat}
    (pays : ∀ row ∈ fields, ∀ wire, (row.scan wire).Pays cost rate (rate * Tag.width row.number)) :
    (scan M).Pays cost rate 0 := by
  refine Scanner.Pays.untilEnd (field_consuming M) (.after_tag fun tag => ?_)
  rw [table, payloadOf]
  split
  · next row found =>
    have number : row.number = tag.number := by simpa using List.find?_some found
    rw [← number]
    exact pays row (List.mem_of_find?_eq_some found) tag.wire
  · exact .silent (Payload.skip_consuming tag.wire).bounded

/-- A message costs no more than the empty one and what its bytes pay for. -/
theorem Message.cost_le_of_decode {M : Type} [Message M] {cost : M → Nat} {rate : Nat}
    (pays : (scan M).Pays cost rate 0) {bytes : Bytes} {message : M}
    (accepted : decode bytes = .ok message) : cost message ≤ cost empty + rate * bytes.length := by
  have ended : (scan M bytes).fault = none := decode_isOk.mp ⟨message, accepted⟩
  have paid := pays bytes ended empty
  have made : Edit.all (scan M bytes).items empty = message := by
    simp only [decode, merge, ended] at accepted
    exact Except.ok.inj accepted
  rw [made] at paid
  omega

/-! ### What messages are written as -/

theorem length_flatMap_le {α : Type _} {f g : α → Bytes} {items : List α}
    (le : ∀ item ∈ items, (f item).length ≤ (g item).length) :
    (items.flatMap f).length ≤ (items.flatMap g).length := by
  induction items with
  | nil => exact Nat.le_refl 0
  | cons item items ih =>
    obtain ⟨first, rest⟩ := List.forall_mem_cons.mp le
    rw [List.flatMap_cons, List.flatMap_cons, List.length_append, List.length_append]
    exact Nat.add_le_add first (ih rest)

namespace Message

variable {M : Type}

/-- Where the members of all other rows grow no longer, a message grows by what one row does. -/
theorem length_rows_le {rows : List (Field M)} (distinct : (rows.map Field.number).Nodup)
    {row : Field M} (member : row ∈ rows) {before after : M}
    (others : ∀ other ∈ rows, other.number ≠ row.number →
      (other.encode after).length ≤ (other.encode before).length) :
    (rows.flatMap fun row => row.encode after).length + (row.encode before).length
      ≤ (rows.flatMap fun row => row.encode before).length + (row.encode after).length := by
  obtain ⟨front, back, rfl⟩ := List.append_of_mem member
  rw [List.map_append, List.map_cons, List.nodup_middle, List.nodup_cons, ← List.map_append] at distinct
  have apart : ∀ other ∈ front ++ back, (other.encode after).length ≤ (other.encode before).length := by
    intro other inside
    refine others other ?_ fun same => distinct.1 (same ▸ List.mem_map_of_mem inside)
    rcases List.mem_append.mp inside with early | late
    · exact List.mem_append_left _ early
    · exact List.mem_append_right _ (List.mem_cons_of_mem _ late)
  have rest := length_flatMap_le apart
  simp only [List.flatMap_append, List.flatMap_cons, List.length_append] at rest ⊢
  omega

/-- The laws of a table by which a merge pays for what it changes. -/
structure FrugalTable [Message M] (fields : List (Field M)) (choice : List Nat) : Prop
    extends Separate fields choice where
  /-- A message is written row by row. -/
  written : ∀ message : M, encode message = fields.flatMap fun row => row.encode message
  /-- An occurrence pays for what it changes in its member. -/
  frugal : ∀ row ∈ fields, row.kind.Frugal row.number
  /-- An occurrence of one case of a choice leaves nothing to be written of the others. -/
  exclusive : ∀ row ∈ fields, ∀ other ∈ fields, linked choice other.number row.number = true →
    other.number ≠ row.number → ∀ wire bytes, (row.kind.scan wire bytes).fault = none →
    ∀ message, other.encode (row.update (Edit.all (row.kind.scan wire bytes).items) message) = []

variable [Message M] {fields : List (Field M)} {choice : List Nat}

/-- The members of other rows grow no longer. -/
theorem FrugalTable.length_encode_le (table : FrugalTable fields choice) {row other : Field M}
    (member : row ∈ fields) (memberOther : other ∈ fields) (apart : other.number ≠ row.number)
    {wire : Nat} {bytes : Bytes} (ended : (row.kind.scan wire bytes).fault = none) (message : M) :
    (other.encode (row.update (Edit.all (row.kind.scan wire bytes).items) message)).length
      ≤ (other.encode message).length := by
  by_cases together : linked choice other.number row.number = true
  · rw [table.exclusive row member other memberOther together apart wire bytes ended message]
    exact Nat.zero_le _
  · have coupled := table.coupled other memberOther row member
    rw [Field.Coupled, if_neg together] at coupled
    exact Nat.le_of_eq (by rw [Field.encode, Field.encode, Field.update, coupled])

/-- **A merge pays for what a message is then written as.** -/
theorem FrugalTable.scan_pays (table : FrugalTable fields choice) :
    (scan M).Pays (fun message => 3 * (encode message).length) 7 0 := by
  refine Message.scan_pays table.table fun row member wire => ?_
  have lawful := table.lawful row member
  refine lawful.scan_pays (Kind.scan_pays (table.frugal row member) wire) fun bytes ended message => ?_
  have all := length_rows_le table.distinct member fun other memberOther apart =>
    table.length_encode_le member memberOther apart ended message
  have own : row.encode (row.update (Edit.all (row.kind.scan wire bytes).items) message)
      = row.kind.encode row.number (Edit.all (row.kind.scan wire bytes).items (row.get message)) := by
    rw [Field.encode, Field.update, lawful.get_set]
  rw [own, show row.encode message = row.kind.encode row.number (row.get message) from rfl] at all
  rw [table.written, table.written]
  omega

end Message

/-! ### The example -/

/-- Different numbers are linked by the choice alone. -/
theorem mem_of_linked {choice : List Nat} {one other : Nat} (together : linked choice one other = true)
    (apart : one ≠ other) : one ∈ choice ∧ other ∈ choice := by
  simp only [linked, Bool.or_eq_true, beq_iff_eq, Bool.and_eq_true, List.contains_iff_mem] at together
  rcases together with same | both
  · exact absurd same.symm apart
  · exact both

theorem FizBaz.Example2.frugalTable : Message.FrugalTable fields [] where
  toSeparate := MessageType.separate .fizBazExample2
  written _ := rfl
  frugal := List.forall_mem_singleton.mpr trivial
  exclusive _ _ _ _ together apart := absurd (mem_of_linked together apart).1 List.not_mem_nil

theorem FooBar.Example2.frugalTable : Message.FrugalTable fields [] where
  toSeparate := MessageType.separate .example2
  written _ := rfl
  frugal := List.forall_mem_singleton.mpr trivial
  exclusive _ _ _ _ together apart := absurd (mem_of_linked together apart).1 List.not_mem_nil

theorem FooBar.Example1.Example2.frugalTable : Message.FrugalTable fields [] where
  toSeparate := MessageType.separate .example1Example2
  written _ := rfl
  frugal := List.forall_mem_singleton.mpr trivial
  exclusive _ _ _ _ together apart := absurd (mem_of_linked together apart).1 List.not_mem_nil

/-- An occurrence of a case makes it the choice, whatever that was. -/
theorem Kind.all_alternative {type : ScalarType} {C : Type} {choose : type.Value → C}
    {chosen : C → Option type.Value} {wire : Nat} {bytes : Bytes}
    (ended : ((alternative type choose chosen).scan wire bytes).fault = none) (choice : Option C) :
    ∃ value, Edit.all ((alternative type choose chosen).scan wire bytes).items choice
      = some (choose value) := by
  simp only [scan, Scanner.map, Scanner.ofReader] at ended ⊢
  cases taken : type.read bytes with
  | error fault unread =>
    rw [taken] at ended
    cases ended
  | ok value unread => exact ⟨value, rfl⟩

namespace FooBar.Example1

theorem frugal : ∀ row ∈ fields, row.kind.Frugal row.number := by
  simp only [fields, List.forall_mem_cons, List.not_mem_nil, false_implies, implies_true, and_true]
  repeat' apply And.intro
  all_goals first
    | trivial
    | exact fun _ => rfl
    | rfl
    | exact Example2.frugalTable.scan_pays
    | exact FooBar.Example2.frugalTable.scan_pays
    | exact FizBaz.Example2.frugalTable.scan_pays
    | exact Nat.le_add_right 16 8

/-- A row of a case of the choice is the one or the other. -/
theorem mem_choice {row : Field Example1} (member : row ∈ fields) (case : row.number ∈ [60, 61]) :
    row = fields[25] ∨ row = fields[26] := by
  rw [fields_eq] at member
  rcases List.mem_append.mp member with single | choice
  · exact absurd case (alone row single)
  · simpa using choice

/-- One case of the choice leaves the other one unset. -/
theorem exclusive : ∀ row ∈ fields, ∀ other ∈ fields,
    linked [60, 61] other.number row.number = true → other.number ≠ row.number →
    ∀ wire bytes, (row.kind.scan wire bytes).fault = none → ∀ message,
      other.encode (row.update (Edit.all (row.kind.scan wire bytes).items) message) = [] := by
  intro row member other memberOther together apart wire bytes ended message
  obtain ⟨caseOther, case⟩ := mem_of_linked together apart
  rcases mem_choice member case with rfl | rfl <;>
    rcases mem_choice memberOther caseOther with rfl | rfl
  · exact absurd rfl apart
  · obtain ⟨text, changed⟩ := Kind.all_alternative ended message.aoneof
    show (Kind.alternative .int32 Aoneof.ooint Aoneof.ooint?).encode 61 (Edit.all
      ((Kind.alternative .string Aoneof.oostring Aoneof.oostring?).scan wire bytes).items
        message.aoneof) = []
    rw [changed]
    rfl
  · obtain ⟨number, changed⟩ := Kind.all_alternative ended message.aoneof
    show (Kind.alternative .string Aoneof.oostring Aoneof.oostring?).encode 60 (Edit.all
      ((Kind.alternative .int32 Aoneof.ooint Aoneof.ooint?).scan wire bytes).items
        message.aoneof) = []
    rw [changed]
    rfl
  · exact absurd rfl apart

theorem frugalTable : Message.FrugalTable fields [60, 61] where
  toSeparate := MessageType.separate .example1
  written _ := rfl
  frugal := frugal
  exclusive := exclusive

/-- **A message is written in at most seven thirds of the bytes that it was read off.** -/
theorem length_encode_le_of_decode {bytes : Bytes} {message : Example1}
    (accepted : Message.decode bytes = .ok message) :
    3 * (Message.encode message).length ≤ 7 * bytes.length := by
  have paid := Message.cost_le_of_decode frugalTable.scan_pays accepted
  have unset : Message.encode (Message.empty : Example1) = [] := by decide +kernel
  rw [unset, List.length_nil] at paid
  omega

end FooBar.Example1

end Protobuf

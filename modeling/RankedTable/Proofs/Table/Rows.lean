import Mathlib.Data.List.Sort
import Mathlib.Data.String.Basic
import RankedTable.Connection
import RankedTable.Proofs.Table.Mirror

/-!
# Rows in order

Within a collection no two rows have the same member, so rows are ordered strictly, by text and
then by name.  That makes the sorted list unique: filtering and sorting may change places, and the
other direction is the same list reversed.

* `Row.Precedes` — which of two rows comes first, in a direction.
* `Apart` — rows of different members.
* **`pairwise_sortRows`** — sorted rows are strictly in order.
* `sortRows_eq_insertionSort` — rows are sorted as by insertion.
* `sortRows_filter`, `sortRows_backward` — what the uniqueness of the order gives.
* **`filter_passed`** — the rows after a position are the rest of the list.
* `item_of_mem_rows`, `mem_rows_index`, `apart_rows`, `length_rows_lt` — the rows of a collection.
-/

namespace RankedTable

/-! ## The order -/

namespace Row

/-- The member of a row. -/
def member (row : Row) : String :=
  row.item.key.member

/-- Whether a row comes before another in ascending order. -/
def Before (a b : Row) : Prop :=
  a.sortText < b.sortText ∨ a.sortText = b.sortText ∧ a.member < b.member

/-- Whether a row comes before another in a direction. -/
def Precedes (forward : Bool) (a b : Row) : Prop :=
  if forward then Before a b else Before b a

lemma before_irrefl (a : Row) : ¬Before a a := by
  rintro (h | ⟨-, h⟩)
  · exact lt_irrefl _ h
  · exact lt_irrefl _ h

lemma before_trans {a b c : Row} (hab : Before a b) (hbc : Before b c) : Before a c := by
  rcases hab with hab | ⟨hab, hmab⟩ <;> rcases hbc with hbc | ⟨hbc, hmbc⟩
  · exact Or.inl (hab.trans hbc)
  · exact Or.inl (hbc ▸ hab)
  · exact Or.inl (hab ▸ hbc)
  · exact Or.inr ⟨hab.trans hbc, hmab.trans hmbc⟩

lemma precedes_asymm {forward : Bool} {a b : Row} (hab : Precedes forward a b) :
    ¬Precedes forward b a := by
  intro hba
  cases forward with
  | true => exact before_irrefl a (before_trans hab hba)
  | false => exact before_irrefl a (before_trans hba hab)

lemma le_iff {a b : Row} :
    Row.le a b = true ↔ Before a b ∨ a.sortText = b.sortText ∧ a.member = b.member := by
  simp only [Row.le, Bool.or_eq_true, Bool.and_eq_true, decide_eq_true_eq, Before, member,
    le_iff_lt_or_eq, and_or_left, or_assoc]

lemma le_trans {a b c : Row} (hab : Row.le a b = true) (hbc : Row.le b c = true) :
    Row.le a c = true := by
  rw [le_iff] at hab hbc ⊢
  rcases hab with hab | ⟨hab, hmab⟩
  · rcases hbc with hbc | ⟨hbc, hmbc⟩
    · exact Or.inl (before_trans hab hbc)
    · refine Or.inl ?_
      rw [Before, ← hbc, ← hmbc]
      exact hab
  · rw [Before, hab, hmab]
    exact hbc

lemma le_total (a b : Row) : (Row.le a b || Row.le b a) = true := by
  rw [Bool.or_eq_true, le_iff, le_iff, Before, Before]
  rcases lt_trichotomy a.sortText b.sortText with h | h | h
  · exact Or.inl (Or.inl (Or.inl h))
  · rcases lt_trichotomy a.member b.member with hm | hm | hm
    · exact Or.inl (Or.inl (Or.inr ⟨h, hm⟩))
    · exact Or.inl (Or.inr ⟨h, hm⟩)
    · exact Or.inr (Or.inl (Or.inr ⟨h.symm, hm⟩))
  · exact Or.inr (Or.inl (Or.inl h))

/-- In either direction the order of rows is transitive. -/
lemma directed_le_trans {forward : Bool} {a b c : Row}
    (hab : (if forward then Row.le a b else Row.le b a) = true)
    (hbc : (if forward then Row.le b c else Row.le c b) = true) :
    (if forward then Row.le a c else Row.le c a) = true := by
  cases forward with
  | true => exact le_trans hab hbc
  | false => exact le_trans hbc hab

lemma directed_le_total (forward : Bool) (a b : Row) :
    ((if forward then Row.le a b else Row.le b a) ||
      (if forward then Row.le b a else Row.le a b)) = true := by
  cases forward with
  | true => exact le_total a b
  | false => exact le_total b a

/-- The position after a row. -/
def position (row : Row) : Position :=
  ⟨.text row.sortText, .text row.member⟩

/-- A row comes after the position of another just if the other precedes it. -/
lemma passed_position (forward : Bool) (a b : Row) :
    a.position.passed forward b = true ↔ Precedes forward a b := by
  cases forward <;>
    simp only [position, Position.passed, Bound.passed, Precedes, Before, member, Bool.or_eq_true,
      Bool.and_eq_true, decide_eq_true_eq, Bound.text.injEq, if_true, if_false, Bool.false_eq_true]
  rw [eq_comm]

end Row

/-! ## Sorted rows -/

/-- Rows of different members. -/
def Apart (rows : List Row) : Prop :=
  (rows.map Row.member).Nodup

lemma Apart.filter {rows : List Row} (h : Apart rows) (p : Row → Bool) : Apart (rows.filter p) :=
  h.sublist (List.filter_sublist.map _)

lemma perm_sortRows (forward : Bool) (rows : List Row) : (sortRows forward rows).Perm rows :=
  List.mergeSort_perm _ _

lemma mem_sortRows {forward : Bool} {rows : List Row} {row : Row} :
    row ∈ sortRows forward rows ↔ row ∈ rows :=
  (perm_sortRows forward rows).mem_iff

/-- **Sorted rows are strictly in order.** -/
theorem pairwise_sortRows {rows : List Row} (h : Apart rows) (forward : Bool) :
    (sortRows forward rows).Pairwise (Row.Precedes forward) := by
  have hapart : (sortRows forward rows).Pairwise fun a b => a.member ≠ b.member :=
    List.pairwise_map.mp (((perm_sortRows forward rows).map _).nodup_iff.mpr h)
  have hsorted : (sortRows forward rows).Pairwise fun a b =>
      (if forward then Row.le a b else Row.le b a) = true := by
    refine List.pairwise_mergeSort ?_ ?_ rows
    · exact fun _ _ _ => Row.directed_le_trans
    · exact Row.directed_le_total forward
  refine (hsorted.and hapart).imp fun {a b} hab => ?_
  cases forward with
  | true => exact (Row.le_iff.mp hab.1).resolve_right fun heq => hab.2 heq.2
  | false => exact (Row.le_iff.mp hab.1).resolve_right fun heq => hab.2 heq.2.symm

/-- Rows are sorted as by insertion, also those of the same member. -/
lemma sortRows_eq_insertionSort (forward : Bool) (rows : List Row) :
    sortRows forward rows =
      rows.insertionSort fun a b => (if forward then Row.le a b else Row.le b a) = true := by
  have htrans : ∀ a b c : Row, (if forward then Row.le a b else Row.le b a) = true →
      (if forward then Row.le b c else Row.le c b) = true →
        (if forward then Row.le a c else Row.le c a) = true := fun _ _ _ => Row.directed_le_trans
  have htotal := Row.directed_le_total forward
  induction rows with
  | nil => exact List.mergeSort_nil
  | cons row rest ih =>
      -- the new row stands behind the rows that it is not below, and before all others
      obtain ⟨front, back, hsort, hrest, hfront⟩ := List.mergeSort_cons htrans htotal row rest
      have hsorted := List.pairwise_mergeSort htrans htotal (row :: rest)
      rw [hsort] at hsorted
      have hback := (List.pairwise_cons.mp (List.pairwise_append.mp hsorted).2.1).1
      have hbefore : ∀ other ∈ front,
          decide ¬(if forward then Row.le row other else Row.le other row) = true := by
        intro other hother
        simpa using hfront other hother
      rw [List.insertionSort_cons, ← ih, sortRows, sortRows, hsort, hrest,
        List.orderedInsert_eq_take_drop, List.takeWhile_append_of_pos hbefore,
        List.dropWhile_append_of_pos hbefore]
      cases back with
      | nil => rw [List.takeWhile_nil, List.dropWhile_nil, List.append_nil]
      | cons other back =>
          have hother := hback other (List.mem_cons_self ..)
          rw [List.takeWhile_cons_of_neg (by simpa using hother),
            List.dropWhile_cons_of_neg (by simpa using hother), List.append_nil]

/-- Rows in strict order are sorted already. -/
lemma eq_sortRows {forward : Bool} {rows sorted : List Row} (hperm : sorted.Perm rows)
    (hsorted : sorted.Pairwise (Row.Precedes forward)) (h : Apart rows) :
    sorted = sortRows forward rows := by
  refine List.Perm.eq_of_pairwise (fun a b _ _ hab hba => absurd hba (Row.precedes_asymm hab))
    hsorted (pairwise_sortRows h forward) ?_
  exact hperm.trans (perm_sortRows forward rows).symm

/-- Rows may be filtered before they are sorted or after. -/
lemma sortRows_filter {rows : List Row} (h : Apart rows) (forward : Bool) (p : Row → Bool) :
    sortRows forward (rows.filter p) = (sortRows forward rows).filter p :=
  (eq_sortRows ((perm_sortRows forward rows).filter p) ((pairwise_sortRows h forward).filter p)
    (h.filter p)).symm

/-- Descending order is ascending order reversed. -/
lemma sortRows_backward {rows : List Row} (h : Apart rows) :
    sortRows false rows = (sortRows true rows).reverse := by
  refine (eq_sortRows ((List.reverse_perm _).trans (perm_sortRows true rows)) ?_ h).symm
  exact List.pairwise_reverse.mpr (pairwise_sortRows h true)

/-- **After the position of a row come the rows behind it**, and no others. -/
theorem filter_passed {forward : Bool} {rows : List Row}
    (h : rows.Pairwise (Row.Precedes forward)) {k : ℕ} (hk : k < rows.length) :
    rows.filter (rows[k].position.passed forward ·) = rows.drop (k + 1) := by
  have hsplit : rows = rows.take k ++ rows[k] :: rows.drop (k + 1) := by
    rw [List.getElem_cons_drop hk, List.take_append_drop]
  generalize rows[k] = row at hsplit ⊢
  generalize rows.drop (k + 1) = rest at hsplit ⊢
  rw [hsplit, List.pairwise_append] at h
  obtain ⟨-, hrest, hbefore⟩ := h
  rw [List.pairwise_cons] at hrest
  have hpast : ∀ a ∈ rows.take k, row.position.passed forward a = false := by
    intro a ha
    rw [← Bool.not_eq_true, Row.passed_position]
    exact Row.precedes_asymm (hbefore a ha row (List.mem_cons_self ..))
  have hself : row.position.passed forward row = false := by
    rw [← Bool.not_eq_true, Row.passed_position]
    exact fun hrow => Row.precedes_asymm hrow hrow
  have hlater : ∀ a ∈ rest, row.position.passed forward a = true := fun a ha =>
    (Row.passed_position forward row a).mpr (hrest.1 a ha)
  rw [hsplit, List.filter_append, List.filter_eq_nil_iff.mpr (by simpa using hpast),
    List.nil_append, List.filter_cons_of_neg (by simpa using hself),
    List.filter_eq_self.mpr hlater]

/-! ## The rows of a collection -/

@[ext] lemma ItemKey.ext {a b : ItemKey} (hpartition : a.partition = b.partition)
    (hmember : a.member = b.member) : a = b := by
  cases a
  cases b
  simp_all

namespace Table

variable {table : Table}

lemma key_of_find? {key : ItemKey} {item : Item} (h : table.find? key = some item) :
    item.key = key := by
  simpa using List.find?_some h

lemma find?_eq_some_iff (h : (table.items.map Item.key).Nodup) (item : Item) :
    table.find? item.key = some item ↔ item ∈ table.items :=
  find?_key_iff h item

lemma indexed?_eq_some_iff (h : (table.index.map address).Nodup) (row : IndexRow) :
    table.indexed? row.key row.subject = some row.sortText ↔ row ∈ table.index := by
  rw [indexed?, Option.map_eq_some_iff]
  constructor
  · rintro ⟨other, hother, htext⟩
    have haddress : address other = address row := by simpa [address] using List.find?_some hother
    have hmem := List.mem_of_find?_eq_some hother
    obtain ⟨key, subject, text⟩ := row
    obtain ⟨key', subject', text'⟩ := other
    obtain ⟨rfl, rfl⟩ := Prod.mk.inj haddress
    obtain rfl : text' = text := htext
    exact hmem
  · intro hmem
    exact ⟨row, (find?_key_iff h row).mpr hmem, rfl⟩

variable {collection subject : String}

/-- The rows of a collection have items of the table that belong to it. -/
lemma item_of_mem_rows {index : Option String} {row : Row}
    (hrow : row ∈ table.rows collection index) :
    row.item ∈ table.items ∧ row.item.key.partition = collection := by
  cases index with
  | none =>
      obtain ⟨item, hitem, rfl⟩ := List.mem_map.mp hrow
      exact ⟨List.mem_of_mem_filter hitem, of_decide_eq_true (List.mem_filter.mp hitem).2⟩
  | some subject =>
      obtain ⟨entry, hentry, hitem⟩ := List.mem_filterMap.mp hrow
      obtain ⟨item, hfound, rfl⟩ := Option.map_eq_some_iff.mp hitem
      obtain ⟨hpartition, -⟩ := of_decide_eq_true (List.mem_filter.mp hentry).2
      exact ⟨List.mem_of_find?_eq_some hfound, key_of_find? hfound ▸ hpartition⟩

/-- The rows of an index are the items that have a row in it, with the text of that row. -/
theorem mem_rows_index (h : (table.index.map address).Nodup) (row : Row) :
    row ∈ table.rows collection (some subject) ↔
      row.item.key.partition = collection ∧ table.find? row.item.key = some row.item ∧
        table.indexed? row.item.key subject = some row.sortText := by
  simp only [rows, List.mem_filterMap, List.mem_filter, decide_eq_true_eq, Option.map_eq_some_iff]
  constructor
  · rintro ⟨other, ⟨hmem, hcollection, hsubject⟩, item, hitem, rfl⟩
    have hkey := key_of_find? hitem
    refine ⟨hkey ▸ hcollection, hkey ▸ hitem, ?_⟩
    rw [hkey, ← hsubject]
    exact (indexed?_eq_some_iff h other).mpr hmem
  · rintro ⟨hcollection, hitem, htext⟩
    refine ⟨⟨row.item.key, subject, row.sortText⟩, ⟨?_, hcollection, rfl⟩, row.item, hitem, rfl⟩
    exact (indexed?_eq_some_iff h ⟨row.item.key, subject, row.sortText⟩).mp htext

/-- The rows of a collection are its items, with their names. -/
theorem mem_rows_items (h : (table.items.map Item.key).Nodup) (row : Row) :
    row ∈ table.rows collection none ↔
      row.item.key.partition = collection ∧ table.find? row.item.key = some row.item ∧
        row.sortText = row.member := by
  simp only [rows, List.mem_map, List.mem_filter, decide_eq_true_eq]
  constructor
  · rintro ⟨item, ⟨hmem, hcollection⟩, rfl⟩
    exact ⟨hcollection, (find?_eq_some_iff h item).mpr hmem, rfl⟩
  · rintro ⟨hcollection, hitem, htext⟩
    refine ⟨row.item, ⟨List.mem_of_find?_eq_some hitem, hcollection⟩, ?_⟩
    rw [← Row.member, ← htext]

lemma apart_rows (hitems : (table.items.map Item.key).Nodup)
    (hindex : (table.index.map address).Nodup) (collection : String) (index : Option String) :
    Apart (table.rows collection index) := by
  rw [Apart, List.Nodup, List.pairwise_map]
  cases index with
  | none =>
      rw [rows, List.pairwise_map, List.pairwise_filter]
      refine (List.pairwise_map.mp hitems).imp fun {a b} hne ha hb hmember => hne ?_
      rw [decide_eq_true_eq] at ha hb
      exact ItemKey.ext (ha.trans hb.symm) hmember
  | some subject =>
      rw [rows, List.pairwise_filterMap, List.pairwise_filter]
      refine (List.pairwise_map.mp hindex).imp fun {a b} hne ha hb x hx y hy hmember => hne ?_
      rw [decide_eq_true_eq] at ha hb
      obtain ⟨item, hitem, rfl⟩ := Option.map_eq_some_iff.mp hx
      obtain ⟨item', hitem', rfl⟩ := Option.map_eq_some_iff.mp hy
      have hkey : a.key = b.key := by
        refine ItemKey.ext (ha.1.trans hb.1.symm) ?_
        rw [← key_of_find? hitem, ← key_of_find? hitem']
        exact hmember
      exact congrArg₂ Prod.mk hkey (ha.2.trans hb.2.symm)

/-- No range has more rows than a scan may read pages. -/
lemma length_rows_lt (table : Table) (collection : String) (index : Option String) :
    (table.rows collection index).length < table.pageBound := by
  rw [pageBound]
  cases index with
  | none =>
      rw [rows, List.length_map]
      have := List.length_filter_le (fun item => decide (item.key.partition = collection))
        table.items
      omega
  | some subject =>
      rw [rows]
      refine Nat.lt_succ_of_le ?_
      calc _ ≤ _ := List.length_filterMap_le _ _
        _ ≤ table.index.length := List.length_filter_le _ _
        _ ≤ _ := le_max_right _ _

end Table

end RankedTable

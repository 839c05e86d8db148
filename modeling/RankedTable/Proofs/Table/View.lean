import RankedTable.Proofs.Table.Page

/-!
# Tables seen through one attribute

Who goes by the values of one attribute sees less of a table than there is: items without the
attribute are not in its index, and what else an item has is not looked at.  Tables that agree on
the attribute look the same, whatever else they hold.

* `Item.view`, `Row.view` — an item, and a row, with one attribute at most.
* `Table.AgreeOn` — tables have the same values of an attribute.
* **`sortRows_view`**, **`matching_view`** — the index on an attribute looks the same in tables that
  agree on it.
* `AgreeOn.update`, `AgreeOn.update_left` — what writes keep of it.
-/

namespace RankedTable

/-- An item with one attribute at most. -/
def Item.view (name : String) (item : Item) : Item :=
  ⟨item.key, (item.get? name).toList.map fun value => (name, value)⟩

lemma Item.get?_view (name : String) (item : Item) :
    (item.view name).get? name = item.get? name := by
  rw [view]
  cases item.get? name with
  | none => rfl
  | some value => exact if_pos rfl

lemma Item.view_eq_iff {name : String} {a b : Item} :
    a.view name = b.view name ↔ a.key = b.key ∧ a.get? name = b.get? name := by
  constructor
  · intro h
    have hkey : (a.view name).key = (b.view name).key := by rw [h]
    exact ⟨hkey, by rw [← a.get?_view, ← b.get?_view, h]⟩
  · rintro ⟨hkey, hget⟩
    rw [view, view, hkey, hget]

/-- A row whose item has one attribute at most. -/
def Row.view (name : String) (row : Row) : Row :=
  ⟨row.sortText, row.item.view name⟩

namespace Table

/-- Whether tables have the same values of an attribute. -/
def AgreeOn (name : String) (one other : Table) : Prop :=
  ∀ key, one.attribute? key name = other.attribute? key name

namespace AgreeOn

variable {layout : Layout} {name key : String} {one other : Table}

lemma symm (h : AgreeOn name one other) : AgreeOn name other one :=
  fun key => (h key).symm

/-! ## The index on the attribute -/

/-- For each row of one index there is a row of the other that looks the same. -/
lemma exists_view (h : AgreeOn name one other) (hone : Mirrors layout one)
    (hother : Mirrors layout other) {row : Row} (hrow : row ∈ one.rows key (some name)) :
    ∃ row' ∈ other.rows key (some name), row'.view name = row.view name := by
  obtain ⟨hkey, hitem, htext⟩ := (mem_rows_index hone.rows row).mp hrow
  have hindexed : other.indexed? row.item.key name = some row.sortText := by
    rw [← htext, hone.row, hother.row, h]
  have hattribute : one.attribute? row.item.key name = row.item.get? name := by
    rw [attribute?, hitem]
    rfl
  obtain ⟨value, hvalue⟩ : ∃ value, row.item.get? name = some value := by
    rw [hone.row, hattribute] at htext
    split_ifs at htext
    obtain ⟨value, hvalue, -⟩ := Option.bind_eq_some_iff.mp htext
    exact ⟨value, hvalue⟩
  obtain ⟨item, hother', hget⟩ : ∃ item, other.find? row.item.key = some item ∧
      item.get? name = some value := by
    refine Option.bind_eq_some_iff.mp ?_
    exact (h _).symm.trans (hattribute.trans hvalue)
  have hsame := key_of_find? hother'
  refine ⟨⟨row.sortText, item⟩, (mem_rows_index hother.rows _).mpr ⟨?_, ?_, ?_⟩, ?_⟩
  · rw [hsame]
    exact hkey
  · rw [hsame]
    exact hother'
  · rw [hsame]
    exact hindexed
  · rw [Row.view, Row.view, Item.view_eq_iff.mpr ⟨hsame, hget.trans hvalue.symm⟩]

variable (h : AgreeOn name one other) (hone : Mirrors layout one) (hother : Mirrors layout other)

include h hone hother

lemma perm_view (key : String) : ((one.rows key (some name)).map (Row.view name)).Perm
    ((other.rows key (some name)).map (Row.view name)) := by
  have hnodup : ∀ {table : Table}, Mirrors layout table →
      ((table.rows key (some name)).map (Row.view name)).Nodup := by
    intro table htable
    refine List.Nodup.of_map Row.member ?_
    rw [List.map_map]
    exact apart_rows htable.items htable.rows key (some name)
  refine (List.perm_ext_iff_of_nodup (hnodup hone) (hnodup hother)).mpr fun view => ?_
  constructor
  · intro hview
    obtain ⟨row, hrow, rfl⟩ := List.mem_map.mp hview
    exact List.mem_map.mpr (h.exists_view hone hother hrow)
  · intro hview
    obtain ⟨row, hrow, rfl⟩ := List.mem_map.mp hview
    exact List.mem_map.mpr (h.symm.exists_view hother hone hrow)

/-- **The index on the attribute looks the same**, in its order. -/
theorem sortRows_view (key : String) (forward : Bool) :
    (sortRows forward (one.rows key (some name))).map (Row.view name) =
      (sortRows forward (other.rows key (some name))).map (Row.view name) := by
  have hsorted : ∀ {table : Table}, Mirrors layout table →
      ((sortRows forward (table.rows key (some name))).map (Row.view name)).Pairwise
        (Row.Precedes forward) := fun htable =>
    -- views are in the order of the rows that they are views of
    List.pairwise_map.mpr
      (pairwise_sortRows (apart_rows htable.items htable.rows key (some name)) forward)
  refine List.Perm.eq_of_pairwise (fun a b _ _ hab hba => absurd hba (Row.precedes_asymm hab))
    (hsorted hone) (hsorted hother) ?_
  exact ((perm_sortRows forward _).map _).trans
    ((h.perm_view hone hother key).trans ((perm_sortRows forward _).map _).symm)

/-- **What a request on the attribute ranges over looks the same.** -/
theorem matching_view {request : QueryRequest} (hindex : request.index = some name)
    (test : String → Bool) :
    (one.matching request test).map (Row.view name) =
      (other.matching request test).map (Row.view name) := by
  have hfilter : ∀ {table : Table}, Mirrors layout table →
      (table.matching request test).map (Row.view name) =
        ((sortRows request.forward (table.rows request.partition (some name))).map
          (Row.view name)).filter fun row => test row.sortText := by
    intro table htable
    rw [matching, hindex,
      sortRows_filter (apart_rows htable.items htable.rows request.partition (some name)),
      List.filter_map]
    rfl
  rw [hfilter hone, hfilter hother, h.sortRows_view hone hother]

end AgreeOn

/-! ## Writes -/

namespace AgreeOn

variable {layout : Layout} {name : String} {one other one' other' : Table} {key : ItemKey}
  {updates : Attributes} {conditions conditions' : List Condition}

/-- The same updates keep tables in agreement. -/
lemma update (h : AgreeOn name one other)
    (hone : layout.update one key updates conditions = .ok one')
    (hother : layout.update other key updates conditions' = .ok other') :
    AgreeOn name one' other' := by
  intro address
  rw [Layout.attribute?_update hone, Layout.attribute?_update hother, h, h]

/-- Updates of other attributes keep tables in agreement. -/
lemma update_left (h : AgreeOn name one other)
    (hone : layout.update one key updates conditions = .ok one')
    (hupdates : Assoc.latest? updates name = none) : AgreeOn name one' other := by
  intro address
  rw [Layout.attribute?_update hone, hupdates, Option.none_or]
  split_ifs with hkey
  · rw [← hkey, h]
  · exact h address

end AgreeOn

end Table

end RankedTable

import RankedTable.Proofs.Table.Journal
import RankedTable.Proofs.Table.Rows

/-!
# What a history of calls leaves

Whatever calls a table has answered, with whatever outcome, two things can be told of it.  Its items
are those the journal tells of, with the updates since their last deletion merged in order; and its
index has a row for each indexed attribute of an item, and no others.

* `Layout.perform` — the journal and the table after some calls.
* `updatesSince`, `merged` — what the journal tells of an item.
* `find?_journaled` — one call keeps the items in step with the journal.
* `Mirrors.mem_index` — which rows an index has.
* `perform_invariant` — what every call keeps, a history keeps; `find?_perform`.
* **`index_mirrors_items`** — index, items and journal after any history.
-/

namespace RankedTable

/-- What calls on an empty table leave: the journal of those that succeeded, and the table. -/
def Layout.perform (layout : Layout) (calls : List Call) : List Call × Table :=
  calls.foldl (fun state c => (layout.store.journaled c state).2) ([], {})

/-! ## Items -/

/-- The updates of an item since it was last deleted, in the order in which they were made. -/
def updatesSince (key : ItemKey) : List Call → List Attributes
  | [] => []
  | .update k updates _ :: rest =>
    if k = key then updatesSince key rest ++ [updates] else updatesSince key rest
  | .delete k _ :: rest => if k = key then [] else updatesSince key rest
  | .get .. :: rest => updatesSince key rest
  | .query .. :: rest => updatesSince key rest

/-- The attributes that updates make up, each written over those before; none without updates. -/
def merged (updates : List Attributes) : Option Attributes :=
  if updates.isEmpty then none else some (updates.foldl Assoc.insertAll [])

lemma merged_append (updates : List Attributes) (last : Attributes) :
    merged (updates ++ [last]) = some (((merged updates).getD []).insertAll last) := by
  cases updates with
  | nil => rfl
  | cons first rest =>
      rw [merged, merged, List.foldl_append]
      simp

/-- **One call keeps the items in step with the journal.** -/
theorem find?_journaled (layout : Layout) (c : Call) {s : List Call × Table}
    (h : ∀ key, (s.2.find? key).map Item.attributes = merged (updatesSince key s.1))
    (key : ItemKey) :
    ((layout.store.journaled c s).2.2.find? key).map Item.attributes =
      merged (updatesSince key (layout.store.journaled c s).2.1) := by
  obtain ⟨journal, table⟩ := s
  have hstep := layout.step_store c table
  change ((layout.store c table).2.find? key).map Item.attributes =
    merged (updatesSince key (if (layout.store c table).1.isOk then c :: journal else journal))
  generalize (layout.store c table).1.isOk = ok, (layout.store c table).2 = after at hstep ⊢
  cases hstep with
  | read k names ok => cases ok <;> exact h key
  | queried request ok => cases ok <;> exact h key
  | failed => exact h key
  | @updated k updates conditions after hok =>
      change (after.find? key).map Item.attributes =
        merged (if _ then _ else updatesSince key journal)
      rw [Layout.find?_update hok]
      split_ifs with hk
      · rw [merged_append, ← hk, ← h]
        rfl
      · exact h key
  | @deleted k conditions after hok =>
      change (after.find? key).map Item.attributes =
        merged (if _ then [] else updatesSince key journal)
      rw [(Layout.delete_ok hok).2, Table.find?_remove]
      split_ifs with hk
      · rfl
      · exact h key

/-! ## Index rows -/

/-- **The rows of an index are those of the indexed attributes that items have**, with the texts
that their values sort by. -/
theorem Mirrors.mem_index {layout : Layout} {table : Table} (h : Mirrors layout table)
    (row : IndexRow) :
    row ∈ table.index ↔ row.subject ∈ layout.indexed ∧ ∃ item value, item ∈ table.items ∧
      item.key = row.key ∧ item.get? row.subject = some value ∧
        value.sortText = .ok row.sortText := by
  rw [← Table.indexed?_eq_some_iff h.rows, h.row]
  constructor
  · intro htext
    split_ifs at htext with hindexed
    obtain ⟨value, hvalue, hsort⟩ := Option.bind_eq_some_iff.mp htext
    obtain ⟨item, hitem, hget⟩ := Option.bind_eq_some_iff.mp hvalue
    obtain ⟨text, hok⟩ := h.sortable _ _ _ hindexed hvalue
    refine ⟨hindexed, item, value, List.mem_of_find?_eq_some hitem, Table.key_of_find? hitem,
      hget, ?_⟩
    rw [hok] at hsort ⊢
    exact congrArg Except.ok (Option.some_inj.mp hsort)
  · rintro ⟨hindexed, item, value, hitem, hkey, hget, hsort⟩
    rw [if_pos hindexed, Table.attribute?, ← hkey, (Table.find?_eq_some_iff h.items item).mpr hitem,
      Option.bind_some, hget, Option.bind_some, hsort]
    rfl

/-! ## Histories -/

/-- What holds of the empty table, and is kept by every call of a history, holds after it. -/
lemma perform_invariant (layout : Layout) {P : List Call × Table → Prop} {calls : List Call}
    (hempty : P ([], {})) (hstep : ∀ c ∈ calls, ∀ s, P s → P (layout.store.journaled c s).2) :
    P (layout.perform calls) :=
  List.foldlRecOn calls _ hempty fun s hs c hc => hstep c hc s hs

lemma mirrors_perform (layout : Layout) (calls : List Call) :
    Mirrors layout (layout.perform calls).2 :=
  perform_invariant layout (P := fun s => Mirrors layout s.2) (mirrors_empty layout)
    fun c _ _ h => h.store c

/-- After any history the items are those the journal tells of. -/
lemma find?_perform (layout : Layout) (calls : List Call) (key : ItemKey) :
    ((layout.perform calls).2.find? key).map Item.attributes =
      merged (updatesSince key (layout.perform calls).1) :=
  perform_invariant layout
    (P := fun s => ∀ key, (s.2.find? key).map Item.attributes = merged (updatesSince key s.1))
    (fun _ => rfl) (fun c _ _ h => find?_journaled layout c h) key

/-- **After any history the index mirrors the items, and the items are those the journal tells
of.** -/
theorem index_mirrors_items (layout : Layout) (calls : List Call) :
    (∀ row, row ∈ (layout.perform calls).2.index ↔ row.subject ∈ layout.indexed ∧
      ∃ item value, item ∈ (layout.perform calls).2.items ∧ item.key = row.key ∧
        item.get? row.subject = some value ∧ value.sortText = .ok row.sortText) ∧
      ((layout.perform calls).2.index.map Table.address).Nodup ∧
      ((layout.perform calls).2.items.map Item.key).Nodup ∧
      ∀ key, ((layout.perform calls).2.find? key).map Item.attributes =
        merged (updatesSince key (layout.perform calls).1) := by
  have hmirrors := mirrors_perform layout calls
  exact ⟨hmirrors.mem_index, hmirrors.rows, hmirrors.items, find?_perform layout calls⟩

end RankedTable

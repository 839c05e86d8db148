import RankedTable.Proofs.Store.Calls
import RankedTable.Proofs.Table.Mirror

/-!
# A table holds what was written last

A journal keeps the calls of a store that succeeded.  Read backwards it tells, without the table,
what was written last under a name of an item that has not been deleted since.

* `Store.journaled` — the store with its journal.
* `lastWritten` — what the journal says of an attribute.
* `run_journaled` — a journal does not show in results.
* **`attribute?_journaled`** — the table has of each attribute what was written last.
-/

namespace RankedTable

/-- The store that also keeps the calls that succeeded, the latest first. -/
def Store.journaled {σ : Type} (store : Store σ) : Store (List Call × σ) :=
  fun c (journal, state) =>
    ((store c state).1, (if (store c state).1.isOk then c :: journal else journal),
      (store c state).2)

/-- What the journal tells to be written last under a name of an item, since it was last deleted. -/
def lastWritten (key : ItemKey) (name : String) : List Call → Option Value
  | [] => none
  | .update k updates _ :: rest =>
    if k = key then (Assoc.latest? updates name).or (lastWritten key name rest)
    else lastWritten key name rest
  | .delete k _ :: rest => if k = key then none else lastWritten key name rest
  | .get .. :: rest => lastWritten key name rest
  | .query .. :: rest => lastWritten key name rest

/-- A journal does not show in what a program returns, nor in the table. -/
lemma run_journaled {α σ : Type} (store : Store σ) (p : Program α) (journal : List Call) (s : σ) :
    (p.run store.journaled (journal, s)).1 = (p.run store s).1 ∧
      (p.run store.journaled (journal, s)).2.2 = (p.run store s).2 :=
  Program.run_project Prod.snd (fun _ _ => rfl) (fun _ _ => rfl) p (journal, s)

/-- **One call keeps table and journal in step.** -/
theorem attribute?_journaled (layout : Layout) (c : Call) {s : List Call × Table}
    (h : ∀ key name, s.2.attribute? key name = lastWritten key name s.1) (key : ItemKey)
    (name : String) :
    (layout.store.journaled c s).2.2.attribute? key name =
      lastWritten key name (layout.store.journaled c s).2.1 := by
  obtain ⟨journal, table⟩ := s
  have hstep := layout.step_store c table
  change (layout.store c table).2.attribute? key name =
    lastWritten key name (if (layout.store c table).1.isOk then c :: journal else journal)
  generalize (layout.store c table).1.isOk = ok, (layout.store c table).2 = after at hstep ⊢
  cases hstep with
  | read k names ok => cases ok <;> exact h key name
  | queried request ok => cases ok <;> exact h key name
  | failed => exact h key name
  | @updated k updates conditions after hok =>
      change after.attribute? key name = if _ then _ else lastWritten key name journal
      rw [Layout.attribute?_update hok, ← h]
      split_ifs with hk
      · rw [hk]
      · rfl
  | @deleted k conditions after hok =>
      change after.attribute? key name = if _ then none else lastWritten key name journal
      rw [(Layout.delete_ok hok).2, Table.attribute?_remove, ← h]

end RankedTable

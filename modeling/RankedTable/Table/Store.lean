import RankedTable.Table.Condition
import RankedTable.Table.Query

/-!
# Local tables as stores

A write either succeeds as a whole or leaves the table as it was.

* `Layout.update`, `Layout.delete`, `Layout.get` — what the calls do.
* `Layout.store` — the store.
-/

namespace RankedTable

namespace Layout

/-- Reads an item. -/
def get (table : Table) (key : ItemKey) (names : Option (List String)) :
    Except Error (Option Item) := do
  unless table.isOpen do
    throw .closed
  let current ← table.load key
  return current.map fun attrs =>
    match names with
    | some names => ⟨key, attrs.restrict names⟩
    | none => ⟨key, attrs⟩

/-- Writes the index rows for those of an item's new attributes that are indexed. -/
def writeIndex (layout : Layout) (key : ItemKey) (table : Table) :
    List (String × Value) → Except Error Table
  | [] => .ok table
  | (name, value) :: rest => do
    if layout.indexed.contains name then
      let sortText ← value.sortText
      layout.writeIndex key (table.putIndexRow ⟨key, name, sortText⟩) rest
    else layout.writeIndex key table rest

/-- Writes attributes over those an item has.  What nests too deep is refused before the index is
looked at. -/
def update (layout : Layout) (table : Table) (key : ItemKey) (updates : Attributes)
    (conditions : List Condition) : Except Error Table := do
  unless table.isOpen do
    throw .closed
  let current ← table.load key
  layout.check key current conditions
  let merged := (current.getD []).insertAll updates
  unless Attributes.canBeWritten merged do
    throw .nestedTooDeep
  layout.writeIndex key (table.putItem ⟨key, merged⟩) updates

/-- Deletes an item. -/
def delete (layout : Layout) (table : Table) (key : ItemKey) (conditions : List Condition) :
    Except Error Table := do
  unless table.isOpen do
    throw .closed
  let current ← table.load key
  layout.check key current conditions
  return table.remove key

/-- A write on a table: what fails leaves the table as it was. -/
def commit (table : Table) (result : Except Error Table) : Except Error Unit × Table :=
  match result with
  | .ok table => (.ok (), table)
  | .error e => (.error e, table)

/-- The store of a local table. -/
def store (layout : Layout) : Store Table
  | .get key names, table => (get table key names, table)
  | .update key updates conditions, table =>
    commit table (layout.update table key updates conditions)
  | .delete key conditions, table => commit table (layout.delete table key conditions)
  | .query request, table => (layout.query table request, table)

end Layout

end RankedTable

import RankedTable.Store.Reader
import RankedTable.Table.Basic

/-!
# Tables as documents

Between two runs of the program a table rests in a file, as a document with its items and the rows
of its indexes.

* `Table.archive` — the document of a table.
* `Table.restore` — the table of a document.
-/

namespace RankedTable

namespace Table

/-- The document of an item. -/
def archiveItem (item : Item) : Tree :=
  .record [("partition", .text item.key.partition), ("member", .text item.key.member),
    ("attributes", .record (Value.entriesToDocument item.attributes))]

/-- The document of an index row. -/
def archiveRow (row : IndexRow) : Tree :=
  .record [("partition", .text row.key.partition), ("member", .text row.key.member),
    ("attribute", .text row.subject), ("sort_value", .text row.sortText)]

/-- The document of a table. -/
def archive (table : Table) : String :=
  (Tree.record [("items", .list (table.items.map archiveItem)),
    ("index", .list (table.index.map archiveRow))]).toJson

/-- A field with a text. -/
def textField (tree : Tree) (name : String) : Except Error String :=
  required Tree.toText? (tree.field? name)

/-- The key in the document of an item or an index row. -/
def restoreKey (tree : Tree) : Except Error ItemKey := do
  return ⟨← textField tree "partition", ← textField tree "member"⟩

/-- The item of a document. -/
def restoreItem (tree : Tree) : Except Error Item := do
  let attrs ← Value.entriesOfDocument (← required Tree.toRecord? (tree.field? "attributes"))
  return ⟨← restoreKey tree, Assoc.ofList attrs⟩

/-- The index row of a document. -/
def restoreRow (tree : Tree) : Except Error IndexRow := do
  return ⟨← restoreKey tree, ← textField tree "attribute", ← textField tree "sort_value"⟩

/-- A list in a document. -/
def listField (tree : Tree) (name : String) : Except Error (List Tree) :=
  match tree.field? name with
  | some (.list elems) => .ok elems
  | _ => .error .invalidField

/-- The table of a document. -/
def restore (text : String) : Except Error Table := do
  match Json.readDocument (2 * Json.maxDepth) text.toList with
  | none => throw .invalidField
  | some tree =>
    return {
      items := ← (← listField tree "items").mapM restoreItem
      index := ← (← listField tree "index").mapM restoreRow }

end Table

end RankedTable

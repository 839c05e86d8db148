import RankedTable.Store.Basic
import RankedTable.Value.Document

/-!
# Local tables

A local table keeps its items and, for each indexed attribute that an item has, an index row with
the text by which the value sorts.

* `Value.sortText` — that text: its order is the order of the values of one kind.
* `Layout` — which attributes are indexed and how the key attributes are called.
* `Table`, `IndexRow` — the contents.
* `Table.load` — the attributes of an item.
* `Table.putItem`, `Table.putIndexRow`, `Table.remove` — changes to single rows.
* `find?_putItem`, `find?_remove` — a change is seen at its own address and nowhere else.
-/

namespace RankedTable

/-- The text by which an index orders a value: numbers by their score encoding, byte strings in
hexadecimal. -/
def Value.sortText : Value → Except Error String
  | text s => .ok s
  | number digits =>
    match Decimal.parse? digits with
    | some d => liftScore (Score.encodeDecimal d)
    | none => .error .notADecimal
  | binary b => .ok (hexBytes b)
  | value => .error (.store (.unsortable value.kind))

/-- What is fixed when a table is opened. -/
structure Layout where
  /-- The attributes that have an index. -/
  indexed : List String
  /-- The name under which conditions address an item's collection. -/
  partitionName : String := "pk"
  /-- The name under which conditions address an item's own name. -/
  memberName : String := "sk"
  /-- How many items a page may have; a negative size is no cap. -/
  pageSize : Option Int := none
  deriving Inhabited

/-- A row of an index. -/
structure IndexRow where
  key : ItemKey
  /-- The indexed attribute. -/
  subject : String
  sortText : String
  deriving DecidableEq, Repr, Inhabited

/-- The contents of a local table. -/
structure Table where
  items : List Item := []
  index : List IndexRow := []
  isOpen : Bool := true
  deriving Inhabited

namespace Table

/-- The item at an address. -/
def find? (table : Table) (key : ItemKey) : Option Item :=
  table.items.find? (·.key = key)

/-- The attributes as they are read back: their document must not nest too deep. -/
def readBack (attrs : Attributes) : Except Error Attributes :=
  if attrs.depth ≤ Json.maxDepth then .ok attrs else .error .invalidField

/-- The attributes of the item at an address. -/
def load (table : Table) (key : ItemKey) : Except Error (Option Attributes) :=
  match table.find? key with
  | some item => (readBack item.attributes).map some
  | none => .ok none

/-- Puts an item in the place of the one at its address, or at the end. -/
def putIn (item : Item) : List Item → List Item
  | [] => [item]
  | other :: rest => if other.key = item.key then item :: rest else other :: putIn item rest

/-- Puts an index row in the place of the one for its item and attribute, or at the end. -/
def putRowIn (row : IndexRow) : List IndexRow → List IndexRow
  | [] => [row]
  | other :: rest =>
    if other.key = row.key ∧ other.subject = row.subject then row :: rest
    else other :: putRowIn row rest

/-- The table with an item written. -/
def putItem (table : Table) (item : Item) : Table :=
  { table with items := putIn item table.items }

/-- The table with an index row written. -/
def putIndexRow (table : Table) (row : IndexRow) : Table :=
  { table with index := putRowIn row table.index }

/-- The table without the item at an address and its index rows. -/
def remove (table : Table) (key : ItemKey) : Table :=
  { table with
    items := table.items.filter (·.key ≠ key)
    index := table.index.filter (·.key ≠ key) }

theorem find?_putIn (item : Item) (items : List Item) (key : ItemKey) :
    (putIn item items).find? (·.key = key) =
      if item.key = key then some item else items.find? (·.key = key) := by
  induction items with
  | nil => by_cases h : item.key = key <;> simp [putIn, h]
  | cons other rest ih =>
    by_cases ho : other.key = item.key <;> by_cases hk : item.key = key <;>
      simp_all [putIn, List.find?_cons]

theorem find?_putItem (table : Table) (item : Item) (key : ItemKey) :
    (table.putItem item).find? key = if item.key = key then some item else table.find? key :=
  find?_putIn item table.items key

theorem find?_remove (table : Table) (key other : ItemKey) :
    (table.remove key).find? other = if key = other then none else table.find? other := by
  by_cases h : key = other
  · simp only [h, if_true]
    exact List.find?_eq_none.mpr fun item member => by
      have := (List.mem_filter.mp member).2
      simpa using this
  · rw [if_neg h]
    simp only [find?, remove, List.find?_filter]
    congr 1
    funext item
    by_cases hk : item.key = other <;> simp_all [Ne.symm h]

/-- The collections that have items, by key. -/
def collections (table : Table) : List String :=
  (OrderedSet.ofList (table.items.map (·.key.partition))).elems

end Table

end RankedTable

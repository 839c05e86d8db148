/-!
# Insertion-ordered mappings

Attributes, results and settings map names to values and remember the order of insertion.  Writing
a name again replaces its value and leaves its place.

* `Assoc.get?`, `Assoc.insert`, `Assoc.insertAll` — look up, write, write many.
* `Assoc.restrict` — the entries of given names, in their own order.
* `Assoc.erase` — without one name.
* `get?_insert` — what is read after a write.
-/

namespace RankedTable

universe u

/-- A mapping from names to values, in order of insertion. -/
abbrev Assoc (α : Type u) := List (String × α)

namespace Assoc

variable {α : Type u}

/-- The value of a name. -/
def get? (m : Assoc α) (name : String) : Option α :=
  match m with
  | [] => none
  | (n, v) :: rest => if n = name then some v else get? rest name

/-- Writes a value: in the name's place if it has one, else at the end. -/
def insert (m : Assoc α) (name : String) (value : α) : Assoc α :=
  match m with
  | [] => [(name, value)]
  | (n, v) :: rest => if n = name then (n, value) :: rest else (n, v) :: insert rest name value

/-- Writes several values, one after the other. -/
def insertAll (m : Assoc α) (entries : List (String × α)) : Assoc α :=
  entries.foldl (fun m e => m.insert e.1 e.2) m

/-- The mapping that a list of writes builds up. -/
def ofList (entries : List (String × α)) : Assoc α :=
  insertAll [] entries

/-- The entries whose names are listed. -/
def restrict (m : Assoc α) (names : List String) : Assoc α :=
  m.filter fun e => names.contains e.1

/-- The mapping without one name. -/
def erase (m : Assoc α) (name : String) : Assoc α :=
  m.filter fun e => e.1 ≠ name

/-- The names, in order. -/
def names (m : Assoc α) : List String :=
  m.map Prod.fst

/-- Whether a name has a value. -/
def contains (m : Assoc α) (name : String) : Bool :=
  (m.get? name).isSome

theorem get?_insert (m : Assoc α) (name other : String) (value : α) :
    (m.insert name value).get? other = if name = other then some value else m.get? other := by
  induction m with
  | nil => simp [insert, get?]
  | cons e rest ih =>
    obtain ⟨n, v⟩ := e
    by_cases hn : n = name <;> by_cases ho : name = other <;> simp_all [insert, get?]

theorem get?_insert_self (m : Assoc α) (name : String) (value : α) :
    (m.insert name value).get? name = some value := by
  simp [get?_insert]

end Assoc

end RankedTable

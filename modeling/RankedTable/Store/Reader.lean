import RankedTable.Tree.Lenient
import RankedTable.Value.Wire

/-!
# Reading requests

* `Condition.read` — a condition with its operands in tagged form.
* `QueryRequest.read` — a request for a page; fields may be left out, and are read leniently.
-/

namespace RankedTable

/-- A field that has to be there. -/
def required {α : Type} (read : Tree → Option α) (field : Option Tree) : Except Error α :=
  match field.bind read with
  | some a => .ok a
  | none => .error .invalidField

/-- A field that may be left out. -/
def optional {α : Type} (read : Tree → Option α) (absent : α) (field : Option Tree) :
    Except Error α :=
  match field with
  | some tree => required read (some tree)
  | none => .ok absent

/-- Reads a condition.  Its operator has to be one of the known, unless the check is waived. -/
def Condition.read (tree : Tree) : Except Error Condition := do
  let values ←
    match tree.field? "values" with
    | some (.list elems) => elems.mapM Value.ofWire
    | some _ => throw .invalidField
    | none => pure []
  let subject ← required Tree.toText? (tree.field? "attribute")
  let op := Operator.ofName (← required Tree.toText? (tree.field? "op"))
  match op, tree.field? "unchecked" with
  | .unknown _, some (.bool true) => return ⟨subject, op, values⟩
  | .unknown _, _ => throw .invalidField
  | _, _ => return ⟨subject, op, values⟩

/-- A record, as it stands. -/
def Tree.toRecord? : Tree → Option (List (String × Tree))
  | .record fields => some fields
  | _ => none

/-- Reads a request.  Its condition is read before the other fields. -/
def QueryRequest.read (tree : Tree) : Except Error QueryRequest := do
  let keyRange ←
    match tree.field? "key_range" with
    | some .null => pure none
    | some condition => (Condition.read condition).map some
    | none => pure none
  return {
    partition := ← required Tree.toText? (tree.field? "partition")
    index := ← optional (Tree.orNull Tree.toText?) none (tree.field? "index")
    keyRange := keyRange
    forward := ← optional Tree.toBool? true (tree.field? "forward")
    limit := ← optional (Tree.orNull Tree.toInt?) none (tree.field? "limit")
    startKey := ← optional (Tree.orNull Tree.toRecord?) none (tree.field? "start_key")
    selectCount := ← optional Tree.toBool? false (tree.field? "select_count") }

end RankedTable

import RankedTable.Error
import RankedTable.Text.Base64
import RankedTable.Tree.Json

/-!
# Attributes as documents

In a document every value is a record that names its kind.  Reading is strict about types and
lenient about the rest: fields nobody knows are skipped, and a set or map without members may leave
them out.  Of two fields with one name the later counts; of two entries of a map also the earlier
has to be in order.

* `Value.ofDocument`, `Value.toDocument` — one value.
* `readAttributes`, `writeAttributes` — the attributes of an item, as JSON text.
* `Attributes.depth` — how deep their document nests, which decides whether it can be read.
* `Attributes.canBeWritten` — whether no value lies too deep inside others.
-/

namespace RankedTable

namespace Value

/-! ## Reading -/

/-- A field of a record: the last of its name. -/
def lastField? (fields : List (String × Tree)) (name : String) : Option Tree :=
  fields.reverse.lookup name

/-- A text field. -/
def textField (tree : Option Tree) : Except Error String :=
  match tree with
  | some (.text s) => .ok s
  | _ => .error .invalidField

/-- A byte string, as base64. -/
def bytesField (tree : Option Tree) : Except Error Bytes := do
  match decodeBase64? (← textField tree) with
  | some b => .ok b
  | none => .error .invalidField

/-- The members of a set; none if the field is missing. -/
def membersField (tree : Option Tree) : Except Error (List Tree) :=
  match tree with
  | none => .ok []
  | some (.list elems) => .ok elems
  | some _ => .error .invalidField

/-- A set of texts. -/
def textSetField (tree : Option Tree) : Except Error (OrderedSet String) := do
  return OrderedSet.ofList (← (← membersField tree).mapM fun t => textField (some t))

/-- A set of byte strings. -/
def binarySetField (tree : Option Tree) : Except Error (OrderedSet Bytes) := do
  return OrderedSet.ofList (← (← membersField tree).mapM fun t => bytesField (some t))

/-- The two fields of a value's record that count besides its kind. -/
structure Payload where
  value : Option Tree := none
  values : Option Tree := none

/-- Reads a value of any kind but a map. -/
def ofPayload (kind : String) (payload : Payload) : Except Error Value :=
  match kind with
  | "S" => (textField payload.value).map text
  | "N" => (textField payload.value).map number
  | "B" => (bytesField payload.value).map binary
  | "SS" => (textSetField payload.values).map textSet
  | "NS" => (textSetField payload.values).map numberSet
  | "BS" => (binarySetField payload.values).map binarySet
  | "NULL" => .ok null
  | _ => .error .invalidField

mutual

/-- Reads a value. -/
def ofDocument : Tree → Except Error Value
  | .record fields =>
    match lastField? fields "kind" with
    | some (.text kind) =>
      if kind = "M" then (mapField fields).map fun entries => map (Assoc.ofList entries)
      else ofPayload kind ⟨lastField? fields "value", lastField? fields "values"⟩
    | _ => .error .invalidField
  | _ => .error .invalidField

/-- Reads the entries of a map from the fields of its record; none if they are missing. -/
def mapField : List (String × Tree) → Except Error (List (String × Value))
  | [] => .ok []
  | (name, tree) :: rest =>
    if name = "value" ∧ !rest.any (·.1 = "value") then
      match tree with
      | .record entries => entriesOfDocument entries
      | _ => .error .invalidField
    else mapField rest

/-- Reads named values, in order. -/
def entriesOfDocument : List (String × Tree) → Except Error (List (String × Value))
  | [] => .ok []
  | (name, tree) :: rest => do
    let value ← ofDocument tree
    return (name, value) :: (← entriesOfDocument rest)

end

/-! ## Writing -/

/-- The record of a value of the given kind. -/
def document (kind : Kind) (payload : List (String × Tree)) : Tree :=
  .record (("kind", .text kind.tag) :: payload)

mutual

/-- Writes a value. -/
def toDocument : Value → Tree
  | text s => document .text [("value", .text s)]
  | number digits => document .number [("value", .text digits)]
  | binary b => document .binary [("value", .text (encodeBase64 b))]
  | textSet members => document .textSet [("values", .list (members.elems.map .text))]
  | numberSet members => document .numberSet [("values", .list (members.elems.map .text))]
  | binarySet members =>
    document .binarySet [("values", .list (members.elems.map fun b => .text (encodeBase64 b)))]
  | map entries => document .map [("value", .record (entriesToDocument entries))]
  | null => document .null []

/-- Writes named values, in order. -/
def entriesToDocument : List (String × Value) → List (String × Tree)
  | [] => []
  | (name, value) :: rest => (name, toDocument value) :: entriesToDocument rest

end

/-! ## Depth -/

/-- The levels that a list or record adds around contents of the given depth: one, and none if
there are no contents. -/
def levelAround (contents : Nat) (hasContents : Bool) : Nat :=
  if hasContents then contents + 1 else 0

mutual

/-- How many levels the document of a value nests. -/
def depth : Value → Nat
  | textSet members | numberSet members => 1 + levelAround 0 (!members.elems.isEmpty)
  | binarySet members => 1 + levelAround 0 (!members.elems.isEmpty)
  | map entries => 1 + levelAround (entriesDepth entries) (!entries.isEmpty)
  | _ => 1

/-- How many levels the deepest of some values nests. -/
def entriesDepth : List (String × Value) → Nat
  | [] => 0
  | (_, value) :: rest => max (depth value) (entriesDepth rest)

end

mutual

/-- How many values lie inside one another, the outermost counted. -/
def nesting : Value → Nat
  | map entries => 1 + entriesNesting entries
  | _ => 1

/-- The most values that lie inside one another among some. -/
def entriesNesting : List (String × Value) → Nat
  | [] => 0
  | (_, value) :: rest => max (nesting value) (entriesNesting rest)

end

end Value

/-- How many levels the document of some attributes nests. -/
def Attributes.depth (attrs : Attributes) : Nat :=
  Value.levelAround (Value.entriesDepth attrs) (!attrs.isEmpty)

/-- How many values may lie inside one another in what is written. -/
def maxNesting : Nat := 127

/-- Whether no value lies too deep to be written. -/
def Attributes.canBeWritten (attrs : Attributes) : Bool :=
  Value.entriesNesting attrs ≤ maxNesting

/-- Reads attributes from JSON. -/
def readAttributes (text : String) : Except Error Attributes :=
  match Tree.ofJson? text with
  | some (.record fields) => (Value.entriesOfDocument fields).map Assoc.ofList
  | _ => .error .invalidField

/-- Writes attributes as JSON. -/
def writeAttributes (attrs : Attributes) : String :=
  (Tree.record (Value.entriesToDocument attrs)).toJson

end RankedTable

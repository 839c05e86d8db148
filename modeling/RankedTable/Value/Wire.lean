import RankedTable.Error
import RankedTable.Text.Base64

/-!
# The tagged form of values

On the wire a value is a record with one field, named by the value's tag.  Sets come back sorted.

* `Value.ofWire`, `Value.toWire` — one value.
* `attributesOfWire`, `attributesToWire` — the attributes of an item.
-/

namespace RankedTable

namespace Value

/-! ## Leaves -/

/-- A text, which may also come as the bytes of its encoding. -/
def textOf : Tree → Except Error String
  | .text s => .ok s
  | .bytes b =>
    match String.fromUTF8? (ByteArray.mk b.toArray) with
    | some s => .ok s
    | none => .error .invalidField
  | _ => .error .invalidField

/-- A byte string, which may also come as base64 text. -/
def bytesOf : Tree → Except Error Bytes
  | .bytes b => .ok b
  | .text s =>
    match decodeBase64? s with
    | some b => .ok b
    | none => .error .invalidField
  | _ => .error .invalidField

/-- Whether a tree can be a member of a set at all. -/
def canBeMember : Tree → Bool
  | .list _ => false
  | .record _ => false
  | _ => true

/-- The members of a set's payload: those of a list, the characters of a text, the single bytes of
a byte string, the names of a record. -/
def membersOf : Tree → Except Error (List Tree)
  | .list elems => if elems.all canBeMember then .ok elems else .error .notACollection
  | .text s => .ok (s.toList.map fun c => .text c.toString)
  | .bytes b => .ok (b.map fun n => .int n.toNat)
  | .record fields => .ok (fields.map fun f => .text f.1)
  | _ => .error .notACollection

/-- The set of texts of a payload. -/
def textSetOf (payload : Tree) : Except Error (OrderedSet String) := do
  let members ← membersOf payload
  return OrderedSet.ofList (← members.mapM textOf)

/-- The set of byte strings of a payload. -/
def binarySetOf (payload : Tree) : Except Error (OrderedSet Bytes) := do
  let members ← membersOf payload
  return OrderedSet.ofList (← members.mapM bytesOf)

/-! ## Whole values -/

mutual

/-- Reads a value. -/
def ofWire : Tree → Except Error Value
  | .record [(tag, payload)] =>
    match tag with
    | "S" => (textOf payload).map text
    | "N" => (textOf payload).map number
    | "B" => (bytesOf payload).map binary
    | "SS" => (textSetOf payload).map textSet
    | "NS" => (textSetOf payload).map numberSet
    | "BS" => (binarySetOf payload).map binarySet
    | "M" =>
      match payload with
      | .record fields => (entriesOfWire fields).map map
      | _ => .error .notARecord
    | "NULL" => .ok null
    | _ => .error (.store (.unsupportedTag tag))
  | .record fields => .error (.store (.malformedValue (.record fields)))
  | .list [_] => .error .notARecord
  | .list elems => .error (.store (.malformedValue (.list elems)))
  | .text s => .error (if s.length = 1 then .notARecord else .store (.malformedValue (.text s)))
  | .bytes b => .error (if b.length = 1 then .notARecord else .store (.malformedValue (.bytes b)))
  | _ => .error .notACollection

/-- Reads the entries of a map, in order. -/
def entriesOfWire : List (String × Tree) → Except Error (List (String × Value))
  | [] => .ok []
  | (name, tree) :: rest => do
    let value ← ofWire tree
    return (name, value) :: (← entriesOfWire rest)

end

mutual

/-- Writes a value. -/
def toWire : Value → Tree
  | text s => .record [("S", .text s)]
  | number digits => .record [("N", .text digits)]
  | binary b => .record [("B", .bytes b)]
  | textSet members => .record [("SS", .list (members.elems.map .text))]
  | numberSet members => .record [("NS", .list (members.elems.map .text))]
  | binarySet members => .record [("BS", .list (members.elems.map .bytes))]
  | map entries => .record [("M", .record (entriesToWire entries))]
  | null => .record [("NULL", .bool true)]

/-- Writes the entries of a map, in order. -/
def entriesToWire : List (String × Value) → List (String × Tree)
  | [] => []
  | (name, value) :: rest => (name, toWire value) :: entriesToWire rest

end

end Value

/-- Reads the attributes of an item. -/
def attributesOfWire : Tree → Except Error Attributes
  | .record fields => Value.entriesOfWire fields
  | _ => .error .notARecord

/-- Writes the attributes of an item. -/
def attributesToWire (attrs : Attributes) : Tree :=
  .record (Value.entriesToWire attrs)

end RankedTable

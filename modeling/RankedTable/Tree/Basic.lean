import RankedTable.Assoc
import RankedTable.Binary64.Printer
import RankedTable.Text.Quoted

/-!
# Untyped trees

What arrives from outside before anyone has checked it: a document, a reply of a remote table, a
settings value.  A tree holds nulls, booleans, numbers, texts, byte strings, lists and records.

* `Tree` — the type.
* `fitsWord` — which whole numbers fit a word of 64 bits.
* `Tree.quoted` — the text by which messages show a tree.
* `Tree.isBlank` — what counts as nothing.
-/

namespace RankedTable

/-- Whether a whole number fits 64 bits with a sign. -/
def fitsWord (n : Int) : Bool :=
  decide (-0x8000000000000000 ≤ n) && decide (n < 0x8000000000000000)

/-- A value nobody has checked yet. -/
inductive Tree where
  | null
  | bool (b : Bool)
  | int (n : Int)
  | float (x : Float)
  | text (s : String)
  | bytes (b : Bytes)
  | list (elems : List Tree)
  | record (fields : List (String × Tree))
  deriving Inhabited

namespace Tree

/-- The text of a whole number. -/
def intText (n : Int) : String :=
  String.ofList (if n < 0 then '-' :: natDigits n.natAbs else natDigits n.natAbs)

mutual

/-- How messages show a tree: texts and bytes quoted, lists in brackets, records in braces. -/
def quoted : Tree → String
  | null => "None"
  | bool b => if b then "True" else "False"
  | int n => intText n
  | float x => shortestFloat x
  | text s => quoteText s
  | bytes b => quoteBytes b
  | list elems => "[" ++ quotedElems elems ++ "]"
  | record fields => "\x7b" ++ quotedFields fields ++ "\x7d"

/-- Elements separated by commas. -/
def quotedElems : List Tree → String
  | [] => ""
  | [e] => quoted e
  | e :: rest => quoted e ++ ", " ++ quotedElems rest

/-- Fields separated by commas, each name quoted before a colon. -/
def quotedFields : List (String × Tree) → String
  | [] => ""
  | [(n, v)] => quoteText n ++ ": " ++ quoted v
  | (n, v) :: rest => quoteText n ++ ": " ++ quoted v ++ ", " ++ quotedFields rest

end

/-- A field of a record. -/
def field? (t : Tree) (name : String) : Option Tree :=
  match t with
  | record fields => Assoc.get? fields name
  | _ => none

/-- Whether a tree counts as absent: null, false, zero, and whatever is empty. -/
def isBlank : Tree → Bool
  | .null => true
  | .bool b => !b
  | .int n => n = 0
  | .float x => x == 0.0
  | .text s => s = ""
  | .bytes b => b.isEmpty
  | .list elems => elems.isEmpty
  | .record fields => fields.isEmpty

end Tree

end RankedTable

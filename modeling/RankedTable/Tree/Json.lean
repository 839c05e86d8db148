import RankedTable.Tree.Basic
import RankedTable.Decimal.Parser

/-!
# Trees as JSON documents

Attributes are kept as JSON.  A document may nest two hundred levels deep; a list or record without
contents takes no level.  Two fields of a record may have one name; which of them counts is for the
reader of the tree to say.

* `Tree.ofJson?` — reads a document.
* `Tree.toJson` — writes one, without blanks; byte strings have no JSON form and come out empty.
-/

namespace RankedTable

namespace Json

/-! ## Reading

Every reader takes a list of characters and answers what it read with the rest of the list.
-/

/-- The blanks between tokens. -/
def isSpace (c : Char) : Bool :=
  c = ' ' || c = '\n' || c = '\r' || c = '\t'

/-- The list without the blanks in front. -/
def skipSpaces (cs : List Char) : List Char :=
  cs.dropWhile isSpace

/-- The value of a hexadecimal digit. -/
def hexValue? (c : Char) : Option Nat :=
  let n := c.toNat
  if 48 ≤ n ∧ n ≤ 57 then some (n - 48)
  else if 97 ≤ n ∧ n ≤ 102 then some (n - 87)
  else if 65 ≤ n ∧ n ≤ 70 then some (n - 55)
  else none

/-- The value of four hexadecimal digits. -/
def hex4? (a b c d : Char) : Option Nat := do
  let a ← hexValue? a
  let b ← hexValue? b
  let c ← hexValue? c
  let d ← hexValue? d
  some (a * 4096 + b * 256 + c * 16 + d)

/-- The character of a short escape. -/
def shortEscape? : Char → Option Char
  | '\x22' => some '\x22'
  | '\\' => some '\\'
  | '/' => some '/'
  | 'b' => some '\x08'
  | 'f' => some '\x0c'
  | 'n' => some '\n'
  | 'r' => some '\r'
  | 't' => some '\t'
  | _ => none

/-- The characters of a text up to its closing quote.  Code points beyond the first plane are
escaped as a pair; half a pair is refused, and so is a bare control character. -/
def readText (cs : List Char) : Option (List Char × List Char) :=
  match cs with
  | [] => none
  | '\x22' :: rest => some ([], rest)
  | '\\' :: 'u' :: a :: b :: c :: d :: rest =>
    match hex4? a b c d with
    | none => none
    | some n =>
      if 0xd800 ≤ n ∧ n < 0xdc00 then
        match rest with
        | '\\' :: 'u' :: e :: f :: g :: h :: rest =>
          match hex4? e f g h with
          | none => none
          | some low =>
            if 0xdc00 ≤ low ∧ low < 0xe000 then
              (readText rest).map fun (text, rest) =>
                (Char.ofNat (0x10000 + (n - 0xd800) * 0x400 + (low - 0xdc00)) :: text, rest)
            else none
        | _ => none
      else if 0xdc00 ≤ n ∧ n < 0xe000 then none
      else (readText rest).map fun (text, rest) => (Char.ofNat n :: text, rest)
  | '\\' :: c :: rest =>
    match shortEscape? c with
    | none => none
    | some c => (readText rest).map fun (text, rest) => (c :: text, rest)
  | c :: rest =>
    if c.toNat < 32 ∨ c = '\\' then none
    else (readText rest).map fun (text, rest) => (c :: text, rest)
  termination_by cs.length

/-- A number without its sign: no zero in front of other digits, not too many digits in the whole
part, and digits on both sides of a point. -/
def readNumber (negative : Bool) (cs : List Char) : Option (Tree × List Char) :=
  let whole := cs.takeWhile Decimal.isAsciiDigit
  let rest := cs.dropWhile Decimal.isAsciiDigit
  if whole.isEmpty ∨ (whole.length > 1 ∧ whole.head? = some '0') then none
  else if Decimal.maxWholeDigits < whole.length then none
  else
    let (point, fraction, rest) := match rest with
      | '.' :: rest =>
        (true, rest.takeWhile Decimal.isAsciiDigit, rest.dropWhile Decimal.isAsciiDigit)
      | rest => (false, [], rest)
    if point ∧ fraction.isEmpty then none
    else
      let (marked, below, power, rest) := match rest with
        | 'e' :: rest | 'E' :: rest =>
          let (below, rest) := Decimal.splitSign rest
          (true, below, rest.takeWhile Decimal.isAsciiDigit, rest.dropWhile Decimal.isAsciiDigit)
        | rest => (false, false, [], rest)
      if marked ∧ power.isEmpty then none
      else if point ∨ marked then
        let e : Int := Decimal.digitsValue power
        let number := Decimal.finite negative (Decimal.digitsValue (whole ++ fraction))
          ((if below then -e else e) - fraction.length)
        some (.float number.toFloat, rest)
      else
        let n : Int := Decimal.digitsValue whole
        some (.int (if negative then -n else n), rest)

/-- Takes the given characters off the front. -/
def expect : List Char → List Char → Option (List Char)
  | [], cs => some cs
  | e :: es, c :: cs => if e = c then expect es cs else none
  | _ :: _, [] => none

mutual

/-- One value of at most `depth` levels, empty lists and records not counted.  Every call passes at
least one character, so the length of the list is enough for `steps`. -/
def readValue (steps depth : Nat) (cs : List Char) : Option (Tree × List Char) :=
  match steps with
  | 0 => none
  | steps + 1 =>
    match skipSpaces cs with
    | 'n' :: rest => (expect ['u', 'l', 'l'] rest).map (Tree.null, ·)
    | 't' :: rest => (expect ['r', 'u', 'e'] rest).map (Tree.bool true, ·)
    | 'f' :: rest => (expect ['a', 'l', 's', 'e'] rest).map (Tree.bool false, ·)
    | 'N' :: rest =>
      (expect ['a', 'N'] rest).map (Tree.float (floatOfBits false (infinityBits + 1)), ·)
    | 'I' :: rest =>
      (expect ['n', 'f', 'i', 'n', 'i', 't', 'y'] rest).map
        (Tree.float (floatOfBits false infinityBits), ·)
    | '-' :: 'I' :: rest =>
      (expect ['n', 'f', 'i', 'n', 'i', 't', 'y'] rest).map
        (Tree.float (floatOfBits true infinityBits), ·)
    | '\x22' :: rest => (readText rest).map fun (text, rest) => (.text (String.ofList text), rest)
    | '[' :: rest =>
      match skipSpaces rest, depth with
      | ']' :: rest, _ => some (.list [], rest)
      | _, 0 => none
      | rest, depth + 1 =>
        (readElems steps depth rest).map fun (elems, rest) => (.list elems, rest)
    | '\x7b' :: rest =>
      match skipSpaces rest, depth with
      | '\x7d' :: rest, _ => some (.record [], rest)
      | _, 0 => none
      | rest, depth + 1 =>
        (readFields steps depth rest).map fun (fields, rest) => (.record fields, rest)
    | '-' :: rest => readNumber true rest
    | rest => readNumber false rest

/-- Elements up to the closing bracket. -/
def readElems (steps depth : Nat) (cs : List Char) : Option (List Tree × List Char) :=
  match steps with
  | 0 => none
  | steps + 1 =>
    match readValue steps depth cs with
    | none => none
    | some (elem, rest) =>
      match skipSpaces rest with
      | ']' :: rest => some ([elem], rest)
      | ',' :: rest => (readElems steps depth rest).map fun (elems, rest) => (elem :: elems, rest)
      | _ => none

/-- Fields up to the closing brace. -/
def readFields (steps depth : Nat) (cs : List Char) :
    Option (List (String × Tree) × List Char) :=
  match steps with
  | 0 => none
  | steps + 1 =>
    match skipSpaces cs with
    | '\x22' :: rest =>
      match readText rest with
      | none => none
      | some (name, rest) =>
        match skipSpaces rest with
        | ':' :: rest =>
          match readValue steps depth rest with
          | none => none
          | some (value, rest) =>
            match skipSpaces rest with
            | '\x7d' :: rest => some ([(String.ofList name, value)], rest)
            | ',' :: rest =>
              (readFields steps depth rest).map fun (fields, rest) =>
                ((String.ofList name, value) :: fields, rest)
            | _ => none
        | _ => none
    | _ => none

end

/-- How many levels a document may nest. -/
def maxDepth : Nat := 200

/-- A whole document in characters, at most `depth` levels deep. -/
def readDocument (depth : Nat) (cs : List Char) : Option Tree :=
  match readValue (2 * cs.length + 1) depth cs with
  | some (tree, rest) => if (skipSpaces rest).isEmpty then some tree else none
  | none => none

/-! ## Writing -/

/-- One character of a text. -/
def escapeChar (c : Char) : List Char :=
  if c = '\x22' then ['\\', '\x22']
  else if c = '\\' then ['\\', '\\']
  else if c = '\x08' then ['\\', 'b']
  else if c = '\x0c' then ['\\', 'f']
  else if c = '\n' then ['\\', 'n']
  else if c = '\r' then ['\\', 'r']
  else if c = '\t' then ['\\', 't']
  else if c.toNat < 32 then '\\' :: 'u' :: hexPadded 4 c.toNat
  else [c]

/-- A text between quotes. -/
def writeText (s : String) : List Char :=
  '\x22' :: s.toList.flatMap escapeChar ++ ['\x22']

mutual

/-- A value without blanks. -/
def writeValue : Tree → List Char
  | .null => ['n', 'u', 'l', 'l']
  | .bool true => ['t', 'r', 'u', 'e']
  | .bool false => ['f', 'a', 'l', 's', 'e']
  | .int n => (Tree.intText n).toList
  | .float x => (shortestFloat x).toList
  | .text s => writeText s
  | .bytes _ => ['\x22', '\x22']
  | .list elems => '[' :: writeElems elems
  | .record fields => '\x7b' :: writeFields fields

/-- Elements and the closing bracket. -/
def writeElems : List Tree → List Char
  | [] => [']']
  | [e] => writeValue e ++ [']']
  | e :: rest => writeValue e ++ ',' :: writeElems rest

/-- Fields and the closing brace. -/
def writeFields : List (String × Tree) → List Char
  | [] => ['\x7d']
  | [(n, v)] => writeText n ++ ':' :: writeValue v ++ ['\x7d']
  | (n, v) :: rest => writeText n ++ ':' :: writeValue v ++ ',' :: writeFields rest

end

end Json

/-- Reads a JSON document. -/
def Tree.ofJson? (text : String) : Option Tree :=
  Json.readDocument Json.maxDepth text.toList

/-- Writes a JSON document. -/
def Tree.toJson (tree : Tree) : String :=
  String.ofList (Json.writeValue tree)

end RankedTable

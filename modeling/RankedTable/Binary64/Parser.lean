import RankedTable.Binary64.Basic
import RankedTable.Decimal.Parser

/-!
# Reading doubles and whole numbers

What a command line takes for a number.  Blanks around it are dropped and digits of every script
count, as for decimals; but an underscore may only stand between two digits.

* `readFloat?` — the nearest double; `inf`, `infinity` and `nan` in any case.
* `readInt?` — a whole number.
-/

namespace RankedTable

/-- Drops the underscores of a text, if each stands between two digits. -/
def dropUnderscores? (text : List Char) : Option (List Char) :=
  let rec go (previous : Char) : List Char → Option (List Char)
    | [] => if previous = '_' then none else some []
    | c :: rest =>
      if c = '_' then
        if Decimal.isAsciiDigit previous then go c rest else none
      else if previous = '_' && !Decimal.isAsciiDigit c then none
      else (go c rest).map (c :: ·)
  go ' ' text

/-- A number's text in ASCII lower case, without surrounding blanks and without underscores. -/
def plainNumber? (text : String) : Option (List Char) := do
  let ascii ← (trim Char.isWhite text.toList).mapM Decimal.asciiChar?
  dropUnderscores? (ascii.map Char.toLower)

/-- The double nearest to the number a text stands for. -/
def readFloat? (text : String) : Option Float := do
  let (negative, rest) := Decimal.splitSign (← plainNumber? text)
  match rest with
  | ['n', 'a', 'n'] => some (floatOfBits negative (nanBits))
  | ['i', 'n', 'f'] => some (floatOfBits negative infinityBits)
  | ['i', 'n', 'f', 'i', 'n', 'i', 't', 'y'] => some (floatOfBits negative infinityBits)
  | digits => (Decimal.numeral? negative digits).map Decimal.toFloat

/-- The whole number a text stands for, if it has not too many digits. -/
def readInt? (text : String) : Option Int := do
  let (negative, digits) := Decimal.splitSign (← plainNumber? text)
  if digits.isEmpty ∨ !digits.all Decimal.isAsciiDigit then none
  else if Decimal.maxWholeDigits < digits.length then none
  else
    let n : Int := Decimal.digitsValue digits
    some (if negative then -n else n)

end RankedTable

import RankedTable.Binary64.Parser
import RankedTable.Text.Fold
import RankedTable.Tree.Basic

/-!
# Reading fields leniently

A field of a request or of the settings need not have exactly its type: a whole number may come as
text, a truth value as a word.

* `Tree.readWhole?` — a whole number written as text.
* `Tree.toText?`, `Tree.toInt?`, `Tree.toBool?` — the readers.
-/

namespace RankedTable

namespace Tree

/-! ## Whole numbers in a text -/

/-- The text before a point, if zeros and at least one of them follow the point. -/
def beforeZeroFraction? (text : List Char) : Option (List Char) :=
  match text.dropWhile (· ≠ '.') with
  | [] => some text
  | _ :: zeros =>
    if !zeros.isEmpty && zeros.all (· = '0') then some (text.takeWhile (· ≠ '.')) else none

/-- The numeral after leading zeros and the underscores among them; of zeros alone the last stays.
The text has to start with a digit. -/
def afterLeadingZeros? (text : List Char) : Option (List Char) :=
  match text with
  | '0' :: rest =>
    match rest.dropWhile fun c => c = '0' || c = '_' with
    | [] => text.getLast?.map ([·])
    | numeral => some numeral
  | c :: _ => if Decimal.isAsciiDigit c then some text else none
  | [] => none

/-- A text without its underscores, which may neither end it nor stand side by side. -/
def joinUnderscores? : List Char → Option (List Char)
  | [] => some []
  | ['_'] => none
  | '_' :: '_' :: _ => none
  | '_' :: rest => joinUnderscores? rest
  | c :: rest => (joinUnderscores? rest).map (c :: ·)

/-- The value of digits that do not start with a superfluous zero and are not too many. -/
def plainDigits? (digits : List Char) : Option Nat :=
  if digits.isEmpty ∨ !digits.all Decimal.isAsciiDigit then none
  else if digits.length > 1 ∧ digits.head? = some '0' then none
  else if Decimal.maxWholeDigits < digits.length then none
  else some (Decimal.digitsValue digits)

/-- The whole number of a text: blanks may surround it, underscores part its digits, and zeros
follow after a point.  The numeral after leading zeros may bring its own minus, unless there is a
minus in front of the zeros. -/
def readWhole? (s : String) : Option Int := do
  let (negative, unsigned) := Decimal.splitSign (trim Char.isWhite s.toList)
  let numeral ← joinUnderscores? (← afterLeadingZeros? (← beforeZeroFraction? unsigned))
  match numeral with
  | '-' :: digits => if negative then none else (plainDigits? digits).map fun n => -(n : Int)
  | digits => (plainDigits? digits).map fun n => if negative then -(n : Int) else n

/-- A double that is a whole number of 64 bits, and whose negation is one too. -/
def wholeFloat? (x : Float) : Option Int :=
  match (Binary64.ofFloat x).toDecimal?.map Decimal.truncate with
  | some (.ok n) =>
    if Float.ofInt n == x ∧ fitsWord n ∧ fitsWord (-n) then some n else none
  | _ => none

/-! ## Readers -/

/-- A text, which may also come as the bytes of its encoding. -/
def toText? : Tree → Option String
  | text s => some s
  | bytes b => String.fromUTF8? (ByteArray.mk b.toArray)
  | _ => none

/-- A whole number. -/
def toInt? : Tree → Option Int
  | int n => some n
  | bool b => some (if b then 1 else 0)
  | float x => wholeFloat? x
  | tree => tree.toText?.bind readWhole?

/-- The words for true. -/
def trueWords : List String := ["1", "t", "true", "y", "yes", "on"]

/-- The words for false. -/
def falseWords : List String := ["0", "f", "false", "n", "no", "off"]

/-- A truth value. -/
def toBool? : Tree → Option Bool
  | bool b => some b
  | int n => if n = 1 then some true else if n = 0 then some false else none
  | float x => if x == 1.0 then some true else if x == 0.0 then some false else none
  | tree => do
    let word := (← tree.toText?).map Char.toLower
    if trueWords.contains word then some true
    else if falseWords.contains word then some false
    else none

/-- A value that may be null. -/
def orNull {α : Type} (read : Tree → Option α) : Tree → Option (Option α)
  | null => some none
  | tree => (read tree).map some

end Tree

end RankedTable

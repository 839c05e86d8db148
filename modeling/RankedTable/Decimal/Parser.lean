import RankedTable.Decimal.Basic
import RankedTable.Text.Blank
import RankedTable.Text.Digit

/-!
# Reading decimal numbers

A number is written as a sign, digits with an optional point, and an optional exponent, or as one
of the words `inf`, `infinity`, `nan` and `snan` (the last two with a payload).  Blanks around it
are dropped, underscores are ignored wherever they stand, and digits of every script count.

* `Decimal.parse?` — the number a text stands for; no digit is ever rounded away.
-/

namespace RankedTable.Decimal

/-- The largest exponent a leading digit may have. -/
def maxAdjusted : Int := 999999999999999999

/-- The smallest exponent a last digit may have. -/
def minExponent : Int := -1999999999999999997

/-- One character of a number in ASCII: digits of other scripts become ASCII digits, blanks become
spaces.  Any other character beyond ASCII makes the text no number. -/
def asciiChar? (c : Char) : Option Char :=
  if 0 < c.toNat ∧ c.toNat < 128 then some c
  else if Char.isBlank c then some ' '
  else (Char.decimalValue? c).map fun d => Char.ofNat (48 + d)

/-- A text without surrounding blanks and without underscores, in ASCII lower case. -/
def normalise? (text : String) : Option (List Char) :=
  ((trim Char.isBlank text.toList).filter (· != '_')).mapM fun c => (asciiChar? c).map Char.toLower

/-- Splits off a leading sign; `true` stands for minus. -/
def splitSign : List Char → Bool × List Char
  | '-' :: rest => (true, rest)
  | '+' :: rest => (false, rest)
  | rest => (false, rest)

/-- An ASCII digit. -/
def isAsciiDigit (c : Char) : Bool :=
  48 ≤ c.toNat && c.toNat ≤ 57

/-- The number a run of ASCII digits stands for; zero for none. -/
def digitsValue (digits : List Char) : Nat :=
  digits.foldl (fun n c => 10 * n + (c.toNat - 48)) 0

/-- The exponent after the digits: nothing, or `e`, an optional sign and at least one digit. -/
def exponent? : List Char → Option Int
  | [] => some 0
  | 'e' :: rest =>
    let (negative, digits) := splitSign rest
    if digits.isEmpty ∨ !digits.all isAsciiDigit then none
    else
      let n : Int := digitsValue digits
      some (if negative then -n else n)
  | _ => none

/-- Digits with an optional point, and an exponent. -/
def numeral? (negative : Bool) (text : List Char) : Option Decimal :=
  let whole := text.takeWhile isAsciiDigit
  let afterWhole := text.dropWhile isAsciiDigit
  let fraction := match afterWhole with
    | '.' :: rest => rest.takeWhile isAsciiDigit
    | _ => []
  let afterFraction := match afterWhole with
    | '.' :: rest => rest.dropWhile isAsciiDigit
    | rest => rest
  if whole.isEmpty ∧ fraction.isEmpty then none
  else (exponent? afterFraction).map fun e =>
    finite negative (digitsValue (whole ++ fraction)) (e - fraction.length)

/-- A NaN word's payload. -/
def payload? (negative signaling : Bool) (digits : List Char) : Option Decimal :=
  if digits.all isAsciiDigit then some (nan negative signaling (digitsValue digits)) else none

/-- A number without blanks, underscores and foreign digits, in lower case. -/
def unsigned? (negative : Bool) (text : List Char) : Option Decimal :=
  match text with
  | ['i', 'n', 'f'] => some (infinity negative)
  | ['i', 'n', 'f', 'i', 'n', 'i', 't', 'y'] => some (infinity negative)
  | 'n' :: 'a' :: 'n' :: digits => payload? negative false digits
  | 's' :: 'n' :: 'a' :: 'n' :: digits => payload? negative true digits
  | text => numeral? negative text

/-- Whether a number's exponents are within the limits, so that it can be kept exactly. -/
def isExact : Decimal → Bool
  | finite _ coefficient exponent =>
    minExponent ≤ exponent &&
      (if coefficient = 0 then exponent ≤ maxAdjusted
       else adjusted coefficient exponent ≤ maxAdjusted)
  | _ => true

/-- The number a text stands for. -/
def parse? (text : String) : Option Decimal := do
  let (negative, rest) := splitSign (← normalise? text)
  let number ← unsigned? negative rest
  if number.isExact then some number else none

end RankedTable.Decimal

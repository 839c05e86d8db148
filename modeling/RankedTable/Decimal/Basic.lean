/-!
# Decimal numbers

Numbers in the table are decimals of any length: a sign, a coefficient and a power of ten.  Two
decimals can be numerically equal and still differ (`1` and `1.00`), because the exponent records
how the number was written.

* `Decimal` — finite numbers, the two infinities, and quiet or signalling NaN with a payload.
* `Decimal.digits` — the digits of the coefficient.
* `Decimal.adjusted` — the exponent of the leading digit.
* `Decimal.toText` — the scientific text: plain while that stays short, `d.dddE+n` otherwise.
* `Decimal.truncate`, `Decimal.wholeText` — the whole part and its text.
-/

namespace RankedTable

/-- A decimal number as written. -/
inductive Decimal where
  /-- `coefficient × 10 ^ exponent`, negated if `negative`; zero has a sign as well. -/
  | finite (negative : Bool) (coefficient : Nat) (exponent : Int)
  | infinity (negative : Bool)
  /-- Not a number.  Payload zero means no payload. -/
  | nan (negative signaling : Bool) (payload : Nat)
  deriving DecidableEq, Repr

/-- The decimal digits of a natural number, most significant first; zero has one. -/
def natDigits (n : Nat) : List Char :=
  Nat.toDigits 10 n

namespace Decimal

/-- The whole number `n`, with exponent zero. -/
def ofInt (n : Int) : Decimal :=
  finite (n < 0) n.natAbs 0

/-- The exponent of the leading digit of `coefficient × 10 ^ exponent`. -/
def adjusted (coefficient : Nat) (exponent : Int) : Int :=
  exponent + (natDigits coefficient).length - 1

/-- The text of a power of ten in scientific notation, with its sign. -/
def powerText (n : Int) : List Char :=
  'E' :: (if n < 0 then '-' else '+') :: natDigits n.natAbs

/-- The text of a finite number without its sign.  It is plain if the exponent is not positive and
the leading digit stands no more than six places behind the point; otherwise one digit stands
before the point and a power of ten follows. -/
def magnitudeText (coefficient : Nat) (exponent : Int) : List Char :=
  let digits := natDigits coefficient
  let adjusted := adjusted coefficient exponent
  if exponent ≤ 0 ∧ -6 ≤ adjusted then
    let places := exponent.natAbs
    if places = 0 then digits
    else if places < digits.length then
      digits.take (digits.length - places) ++ '.' :: digits.drop (digits.length - places)
    else '0' :: '.' :: (List.replicate (places - digits.length) '0' ++ digits)
  else
    let lead := digits.take 1
    let rest := digits.drop 1
    (if rest.isEmpty then lead else lead ++ '.' :: rest) ++ powerText adjusted

/-- The scientific text of a number. -/
def toText : Decimal → String
  | finite negative coefficient exponent =>
    let magnitude := magnitudeText coefficient exponent
    String.ofList (if negative then '-' :: magnitude else magnitude)
  | infinity negative => if negative then "-Infinity" else "Infinity"
  | nan negative signaling payload =>
    (if negative then "-" else "") ++ (if signaling then "sNaN" else "NaN") ++
      (if payload = 0 then "" else String.ofList (natDigits payload))

/-- Whether the number is neither infinite nor NaN. -/
def isFinite : Decimal → Bool
  | finite .. => true
  | _ => false

/-- The whole part of `coefficient × 10 ^ exponent`. -/
def wholePart (coefficient : Nat) (exponent : Int) : Nat :=
  if coefficient = 0 then 0
  else if exponent < 0 then
    if adjusted coefficient exponent < 0 then 0 else coefficient / Nat.pow 10 exponent.natAbs
  else coefficient * Nat.pow 10 exponent.natAbs

/-- Why a number has no whole part, or the whole part no text. -/
inductive TruncateError where
  | infinite
  | notANumber
  | tooLong
  deriving DecidableEq, Repr

/-- The number without its fraction. -/
def truncate : Decimal → Except TruncateError Int
  | finite negative coefficient exponent =>
    let whole : Int := wholePart coefficient exponent
    .ok (if negative then -whole else whole)
  | infinity _ => .error .infinite
  | nan .. => .error .notANumber

/-- The most digits that a whole number is read or written out with. -/
def maxWholeDigits : Nat := 4300

/-- Whether the whole part has more digits than are written out. -/
def hasLongWhole : Decimal → Bool
  | finite _ coefficient exponent =>
    coefficient ≠ 0 && decide ((maxWholeDigits : Int) ≤ adjusted coefficient exponent)
  | _ => false

/-- The text of the number without its fraction. -/
def wholeText (d : Decimal) : Except TruncateError String :=
  if d.hasLongWhole then .error .tooLong else d.truncate.map fun n => (ofInt n).toText

end Decimal

end RankedTable

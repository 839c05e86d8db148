import RankedTable.Binary64.Basic

/-!
# Doubles as text

Four ways to write a double, all from its exact value.  A half goes to the even neighbour, unless
another way is asked for.

* `shortestText` — the fewest digits that read back to the same double.
* `generalText` — a given number of significant digits, trailing zeros dropped.
* `fixedText` — a given number of decimal places.
* `scientificText` — one digit, a given number of places, and a power of ten.
-/

namespace RankedTable

namespace Binary64

/-- A fraction equal to `mantissa × 2 ^ exponent`. -/
def fraction (mantissa : Nat) (exponent : Int) : Nat × Nat :=
  if exponent < 0 then (mantissa, Nat.pow 2 exponent.natAbs)
  else (mantissa * Nat.pow 2 exponent.natAbs, 1)

/-- The exponent of the leading decimal digit of `n / d`, a positive fraction. -/
def leadingExponent (n d : Nat) : Int :=
  if d ≤ n then (natDigits (n / d)).length - 1
  else -((natDigits ((d - 1) / n)).length : Int)

/-- Where a half goes. -/
inductive Tie where
  | toEven
  | awayFromZero
  deriving DecidableEq, Repr

/-- `n / d` rounded to a whole number. -/
def Tie.round (tie : Tie) (n d : Nat) : Nat :=
  match tie with
  | toEven => roundDiv n d
  | awayFromZero => (2 * n + d) / (2 * d)

/-- `n / d` in units of `10 ^ unit`, rounded. -/
def inUnits (n d : Nat) (unit : Int) (tie : Tie := .toEven) : Nat :=
  if unit < 0 then tie.round (n * Nat.pow 10 unit.natAbs) d
  else tie.round n (d * Nat.pow 10 unit.natAbs)

/-- `n / d` rounded to `count` significant digits: the digits and the exponent of the first. -/
def significantDigits (n d count : Nat) (tie : Tie := .toEven) : List Char × Int :=
  let lead := leadingExponent n d
  let digits := natDigits (inUnits n d (lead - count + 1) tie)
  if digits.length = count then (digits, lead) else (digits.take count, lead + 1)

/-! ## The shortest digits

A decimal reads back to a double if it lies in the interval of numbers that round to it: half a
unit to either side, a quarter unit below a power of two, the ends included if the mantissa is
even.  On the grid of a given number of digits only the value's two neighbours need a look.
-/

/-- Whether `c × 10 ^ unit` reads back to `mantissa × 2 ^ exponent`. -/
def readsBack (mantissa : Nat) (exponent : Int) (c : Nat) (unit : Int) : Bool :=
  let quarter := exponent - 2
  let scale (k : Nat) : Nat :=
    k * (if quarter < 0 then 1 else Nat.pow 2 quarter.natAbs) *
      (if unit < 0 then Nat.pow 10 unit.natAbs else 1)
  let candidate :=
    c * (if unit < 0 then 1 else Nat.pow 10 unit.natAbs) *
      (if quarter < 0 then Nat.pow 2 quarter.natAbs else 1)
  let below := if mantissa = binadeBits ∧ -1074 < exponent then 1 else 2
  let low := scale (4 * mantissa - below)
  let high := scale (4 * mantissa + 2)
  if mantissa % 2 = 0 then low ≤ candidate && candidate ≤ high
  else low < candidate && candidate < high

/-- The value's neighbour on the grid of `10 ^ unit` that reads back, the nearer one of two. -/
def neighbour? (mantissa : Nat) (exponent unit : Int) : Option Nat :=
  let m := mantissa
  let (n, d) := fraction m exponent
  let below := if unit < 0 then n * Nat.pow 10 unit.natAbs / d else n / (d * Nat.pow 10 unit.natAbs)
  match readsBack m exponent below unit, readsBack m exponent (below + 1) unit with
  | true, true => some (inUnits n d unit)
  | true, false => some below
  | false, true => some (below + 1)
  | false, false => none

/-- The fewest digits that read back, as a coefficient and a power of ten.  Seventeen digits always
do. -/
def shortest (mantissa : Nat) (exponent : Int) : Nat × Int :=
  let (n, d) := fraction mantissa exponent
  let lead := leadingExponent n d
  let unit (count : Nat) : Int := lead - count
  match (List.range 17).findSome? fun count =>
      (neighbour? mantissa exponent (unit count)).map fun c => (c, unit count) with
  | some found => found
  | none => (inUnits n d (unit 16), unit 16)

/-! ## Layout -/

/-- A list of digits without the zeros at its end. -/
def dropTrailingZeros (digits : List Char) : List Char :=
  (digits.reverse.dropWhile (· == '0')).reverse

/-- The power of ten after a mantissa: `e`, a sign and at least two digits. -/
def exponentText (n : Int) : List Char :=
  let digits := natDigits n.natAbs
  'e' :: (if n < 0 then '-' else '+') :: (if digits.length < 2 then '0' :: digits else digits)

/-- Digits with a point after the first, if there are more. -/
def pointAfterFirst : List Char → List Char
  | [] => []
  | [d] => [d]
  | d :: rest => d :: '.' :: rest

/-- Digits laid out positionally, the first at `10 ^ lead`; a whole number has no point. -/
def positional (digits : List Char) (lead : Int) : List Char :=
  if lead < 0 then '0' :: '.' :: (List.replicate (lead.natAbs - 1) '0' ++ digits)
  else
    let whole := lead.natAbs + 1
    if digits.length ≤ whole then digits ++ List.replicate (whole - digits.length) '0'
    else digits.take whole ++ '.' :: digits.drop whole

/-- A text after its sign. -/
def signed (negative : Bool) (text : List Char) : String :=
  String.ofList (if negative then '-' :: text else text)

/-- The digits that read back: positional from `1e-4` to below `1e16`, where a whole number keeps
`.0`; with a power of ten elsewhere. -/
def shortestText : Binary64 → String
  | nan => "nan"
  | infinity negative => if negative then "-inf" else "inf"
  | zero negative => if negative then "-0.0" else "0.0"
  | finite negative mantissa exponent =>
    let (c, unit) := shortest mantissa exponent
    let all := natDigits c
    let lead := unit + all.length - 1
    let digits := dropTrailingZeros all
    if -4 ≤ lead ∧ lead < 16 then
      let text := positional digits lead
      signed negative (if text.contains '.' then text else text ++ ['.', '0'])
    else signed negative (pointAfterFirst digits ++ exponentText lead)

/-- `count` significant digits without trailing zeros: positional from `1e-4` to below
`10 ^ count`, with a power of ten elsewhere. -/
def generalText (count : Nat) (tie : Tie) : Binary64 → String
  | nan => "nan"
  | infinity negative => if negative then "-inf" else "inf"
  | zero negative => if negative then "-0" else "0"
  | finite negative mantissa exponent =>
    let (n, d) := fraction mantissa exponent
    let (all, lead) := significantDigits n d count tie
    let digits := dropTrailingZeros all
    if -4 ≤ lead ∧ lead < count then signed negative (positional digits lead)
    else signed negative (pointAfterFirst digits ++ exponentText lead)

/-- A natural number of units of `10 ^ -places`. -/
def placesText (places units : Nat) : List Char :=
  let digits := natDigits units
  let padded := List.replicate (places + 1 - digits.length) '0' ++ digits
  if places = 0 then padded
  else padded.take (padded.length - places) ++ '.' :: padded.drop (padded.length - places)

/-- `places` decimal places. -/
def fixedText (places : Nat) : Binary64 → String
  | nan => "nan"
  | infinity negative => if negative then "-inf" else "inf"
  | zero negative => signed negative (placesText places 0)
  | finite negative mantissa exponent =>
    let (n, d) := fraction mantissa exponent
    signed negative (placesText places (inUnits n d (-places)))

/-- One digit before the point, `places` behind it, and a power of ten. -/
def scientificText (places : Nat) : Binary64 → String
  | nan => "nan"
  | infinity negative => if negative then "-inf" else "inf"
  | zero negative =>
    signed negative (pointAfterFirst (List.replicate (places + 1) '0') ++ exponentText 0)
  | finite negative mantissa exponent =>
    let (n, d) := fraction mantissa exponent
    let (digits, lead) := significantDigits n d (places + 1)
    signed negative (pointAfterFirst digits ++ exponentText lead)

end Binary64

/-- The shortest text of a double. -/
def shortestFloat (x : Float) : String :=
  (Binary64.ofFloat x).shortestText

end RankedTable

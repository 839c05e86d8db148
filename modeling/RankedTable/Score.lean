import RankedTable.Binary64.Basic
import RankedTable.Text.Digit

/-!
# Scores as text in numeric order

The table orders its indexes by text alone, so a number is written in a form whose order as text,
character by character, is its order as a number:

`-∞` is `0`, negatives begin with `1`, zero is `2`, positives begin with `3`, `+∞` is `4`.

A positive number `d.ddd × 10 ^ e` continues with the exponent, shifted to three digits without a
sign, and its significant digits without trailing zeros.  A negative number has every digit
replaced by its complement to nine, and ends in `~`, which sorts after every digit: of two digit
strings the shorter, the smaller magnitude, then comes later.

* `Score.encodeDecimal`, `Score.decodeDecimal` — for decimals of any length.
* `Score.encode`, `Score.decode` — for doubles, by way of their exact decimal value.
* `ScoreError` — what neither direction accepts.
-/

namespace RankedTable

/-- Why a number has no encoding, or a text is none. -/
inductive ScoreError where
  | notANumber
  | notFinite (d : Decimal)
  /-- The leading digit's exponent does not fit three digits. -/
  | exponentOutOfRange (d : Decimal)
  | malformed (text : String)
  /-- Characters stand in the exponent's place that only look like digits. -/
  | unreadableExponent
  deriving DecidableEq, Repr

namespace Score

/-- What is added to an exponent so that it has no sign. -/
def bias : Int := 500

/-- The digit that completes this one to nine; other characters stay. -/
def complement (c : Char) : Char :=
  if 48 ≤ c.toNat ∧ c.toNat ≤ 57 then Char.ofNat (105 - c.toNat) else c

/-! ## Encoding -/

/-- The significant digits: those of the coefficient without the zeros at the end. -/
def significant (coefficient : Nat) : List Char :=
  ((natDigits coefficient).reverse.dropWhile (· == '0')).reverse

/-- A number below a thousand in three digits. -/
def threeDigits (n : Nat) : List Char :=
  [Char.ofNat (48 + n / 100 % 10), Char.ofNat (48 + n / 10 % 10), Char.ofNat (48 + n % 10)]

/-- The characters of a finite number's encoding, with the exponent shifted to `biased`. -/
def encodeChars (negative : Bool) (coefficient biased : Nat) : List Char :=
  let body := threeDigits biased ++ significant coefficient
  if negative then '1' :: body.map complement ++ ['~'] else '3' :: body

/-- Encodes a decimal; of zero neither sign nor exponent remains. -/
def encodeDecimal (d : Decimal) : Except ScoreError String :=
  match d with
  | .finite negative coefficient exponent =>
    if coefficient = 0 then .ok "2"
    else
      let biased := Decimal.adjusted coefficient exponent + bias
      if 0 ≤ biased ∧ biased ≤ 999 then
        .ok (String.ofList (encodeChars negative coefficient biased.toNat))
      else .error (.exponentOutOfRange d)
  | _ => .error (.notFinite d)

/-- Encodes a double. -/
def encode (x : Float) : Except ScoreError String :=
  match Binary64.ofFloat x with
  | .nan => .error .notANumber
  | .infinity negative => .ok (if negative then "0" else "4")
  | .zero _ => .ok "2"
  | .finite negative mantissa exponent =>
    encodeDecimal (Binary64.exactDecimal negative mantissa exponent)

/-! ## Decoding -/

/-- Reads a three-character exponent and the digits after it.  The value `d.ddd × 10 ^ e` keeps one
decimal place even if a single digit is given. -/
def decodeBody (text : String) (negative : Bool) (body : List Char) : Except ScoreError Decimal :=
  let exponent := body.take 3
  let digits := body.drop 3
  if digits.isEmpty ∨ !exponent.all Char.isDigitLike ∨ !digits.all Char.isDigitLike then
    .error (.malformed text)
  else
    match readDigits exponent with
    | none => .error .unreadableExponent
    | some biased =>
      let places := if digits.length = 1 then digits ++ ['0'] else digits
      match readDigits places with
      | none => .error (.malformed text)
      | some coefficient =>
        .ok (.finite negative coefficient (biased - bias - (places.length - 1 : Nat)))

/-- Decodes a decimal. -/
def decodeDecimal (text : String) : Except ScoreError Decimal :=
  match text.toList with
  | ['2'] => .ok (.finite false 0 0)
  | '1' :: body =>
    if body.getLast? = some '~' then decodeBody text true (body.dropLast.map complement)
    else .error (.malformed text)
  | '3' :: body => decodeBody text false body
  | _ => .error (.malformed text)

/-- Decodes a double: the one nearest to the decimal. -/
def decode (text : String) : Except ScoreError Float :=
  if text = "4" then .ok (floatOfBits false infinityBits)
  else if text = "0" then .ok (floatOfBits true infinityBits)
  else (decodeDecimal text).map Decimal.toFloat

end Score

end RankedTable

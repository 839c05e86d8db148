import RankedTable.Decimal.Basic

/-!
# Binary floating point, exactly

A score is a `Float`: an IEEE 754 double.  Everything that has to be exact about one (its decimal
expansion, its text, the double nearest to a decimal) goes through its exact value, a natural
mantissa times a power of two, in natural-number arithmetic.

* `Binary64` — what a double stands for.
* `Binary64.ofFloat` — the view of a `Float`.
* `roundDiv` — a quotient rounded to a whole number, a half to the even neighbour.
* `nearestBits` — the bits of the double nearest to a positive fraction.
* `Decimal.toFloat`, `Binary64.toDecimal?` — between decimals and doubles; the second loses
  nothing.
-/

namespace RankedTable

/-- What a double stands for.  A finite number other than zero is `mantissa × 2 ^ exponent`. -/
inductive Binary64 where
  | nan
  | infinity (negative : Bool)
  | zero (negative : Bool)
  | finite (negative : Bool) (mantissa : Nat) (exponent : Int)
  deriving DecidableEq, Repr

/-- Whether a sign is the minus sign. -/
def isMinus : Float.Model.UnpackedFloat.Sign → Bool
  | .negative => true
  | .positive => false

/-- What a `Float` stands for. -/
def Binary64.ofFloat (x : Float) : Binary64 :=
  match Float.Model.UnpackedFloat.unpack .binary64 x.toBits.toBitVec with
  | .notANumber => .nan
  | .infinity s => .infinity (isMinus s)
  | .zero s => .zero (isMinus s)
  | .finite s mantissa exponent _ => .finite (isMinus s) mantissa exponent

/-! ## From doubles to decimals -/

/-- The exact decimal value of `mantissa × 2 ^ exponent`. -/
def Binary64.exactDecimal (negative : Bool) (mantissa : Nat) (exponent : Int) : Decimal :=
  if exponent < 0 then .finite negative (mantissa * Nat.pow 5 exponent.natAbs) exponent
  else .finite negative (mantissa * Nat.pow 2 exponent.natAbs) 0

/-- The exact decimal value of a number; infinities and NaN have none. -/
def Binary64.toDecimal? : Binary64 → Option Decimal
  | nan => none
  | infinity _ => none
  | zero negative => some (.finite negative 0 0)
  | finite negative mantissa exponent => some (exactDecimal negative mantissa exponent)

/-! ## From decimals to doubles -/

/-- `n / d` rounded to a whole number; a half goes to the even neighbour. -/
def roundDiv (n d : Nat) : Nat :=
  let q := n / d
  let r := n % d
  if 2 * r < d then q
  else if d < 2 * r then q + 1
  else q + q % 2

/-- The exponent of the largest power of two that is at most `n / d`. -/
def floorLog2 (n d : Nat) : Int :=
  let guess : Int := (n.log2 : Int) - d.log2
  let reached :=
    if guess < 0 then d ≤ n * Nat.pow 2 guess.natAbs else d * Nat.pow 2 guess.natAbs ≤ n
  if reached then guess else guess - 1

/-- The bits of positive infinity. -/
def infinityBits : Nat := 0x7ff0000000000000

/-- The bits of NaN. -/
def nanBits : Nat := 0x7ff8000000000000

/-- How much the bits of a magnitude grow when its exponent does: two to the 52nd power. -/
def binadeBits : Nat := 0x10000000000000

/-- The bits of the double nearest to `n / d`; a tie goes to the even mantissa, and what is too
large becomes infinity.  A double's bits are its mantissa plus `binadeBits` for every step of its
exponent above the least one, so a mantissa that rounds up to the next power of two carries into
the exponent by itself. -/
def nearestBits (n d : Nat) : Nat :=
  if n = 0 then 0
  else
    let unit := max (floorLog2 n d - 52) (-1074)
    let mantissa :=
      if unit < 0 then roundDiv (n * Nat.pow 2 unit.natAbs) d
      else roundDiv n (d * Nat.pow 2 unit.natAbs)
    min ((unit + 1074).toNat * binadeBits + mantissa) infinityBits

/-- A double from its sign and the bits of its magnitude. -/
def floatOfBits (negative : Bool) (magnitude : Nat) : Float :=
  Float.ofBits (UInt64.ofNat ((if negative then 0x8000000000000000 else 0) + magnitude))

/-- The bits of the double nearest to `coefficient × 10 ^ exponent`.  Beyond the range of doubles
the leading digit's exponent alone decides. -/
def Decimal.magnitudeBits (coefficient : Nat) (exponent : Int) : Nat :=
  if coefficient = 0 then 0
  else if 400 < adjusted coefficient exponent then infinityBits
  else if adjusted coefficient exponent < -400 then 0
  else if exponent < 0 then nearestBits coefficient (Nat.pow 10 exponent.natAbs)
  else nearestBits (coefficient * Nat.pow 10 exponent.natAbs) 1

/-- The double nearest to a decimal. -/
def Decimal.toFloat : Decimal → Float
  | finite negative coefficient exponent => floatOfBits negative (magnitudeBits coefficient exponent)
  | infinity negative => floatOfBits negative infinityBits
  | nan .. => floatOfBits false (nanBits)

end RankedTable

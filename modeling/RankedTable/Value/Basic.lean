import RankedTable.Assoc
import RankedTable.Decimal.Parser
import RankedTable.OrderedSet
import RankedTable.Text.Quoted

/-!
# Attribute values

An item's attributes are texts, numbers, byte strings, sets of these, maps and nulls.  A number is
kept as the text it was written with, since two spellings of one number are different values.

* `Value` — the closed set of variants.
* `Value.Kind` — a variant's name.
* `Value.same` — equality; the entries of a map may come in any order.
* `Attributes` — an item's attributes by name.
-/

namespace RankedTable

instance bytesAscendingOrder : AscendingOrder Bytes where
  trans {a b c} h k := by
    have : Trans (α := UInt8) (β := UInt8) (γ := UInt8) (· < ·) (· < ·) (· < ·) :=
      ⟨fun h k => Std.lt_trans h k⟩
    exact List.lt_trans h k
  connected {a b} h ne := by
    rcases Std.lt_trichotomy a b with h' | h' | h'
    · exact absurd h' h
    · exact absurd h' ne
    · exact h'

/-- The value of an attribute. -/
inductive Value where
  | text (s : String)
  /-- A number, as written. -/
  | number (digits : String)
  | binary (bytes : Bytes)
  | textSet (members : OrderedSet String)
  | numberSet (members : OrderedSet String)
  | binarySet (members : OrderedSet Bytes)
  | map (entries : List (String × Value))
  | null

/-- The attributes of an item. -/
abbrev Attributes := Assoc Value

namespace Value

instance valueInhabited : Inhabited Value := ⟨null⟩

/-- The variants of values. -/
inductive Kind where
  | text
  | number
  | binary
  | textSet
  | numberSet
  | binarySet
  | map
  | null
  deriving DecidableEq, Repr

/-- The tag of a variant. -/
def Kind.tag : Kind → String
  | text => "S"
  | number => "N"
  | binary => "B"
  | textSet => "SS"
  | numberSet => "NS"
  | binarySet => "BS"
  | map => "M"
  | null => "NULL"

/-- The variant of a value. -/
def kind : Value → Kind
  | text _ => .text
  | number _ => .number
  | binary _ => .binary
  | textSet _ => .textSet
  | numberSet _ => .numberSet
  | binarySet _ => .binarySet
  | map _ => .map
  | null => .null

/-- A whole number. -/
def ofInt (n : Int) : Value :=
  number (Decimal.ofInt n).toText

mutual

/-- Equality of values.  Maps are equal if they have the same entries, in whatever order. -/
def same : Value → Value → Bool
  | text a, text b => a = b
  | number a, number b => a = b
  | binary a, binary b => a = b
  | textSet a, textSet b => a = b
  | numberSet a, numberSet b => a = b
  | binarySet a, binarySet b => a = b
  | map a, map b => a.length = b.length && entriesIn a b
  | null, null => true
  | _, _ => false

/-- Whether every entry of the first map is in the second. -/
def entriesIn : List (String × Value) → List (String × Value) → Bool
  | [], _ => true
  | (name, value) :: rest, other =>
    (match Assoc.get? other name with
      | some found => same value found
      | none => false) && entriesIn rest other

end

end Value

end RankedTable

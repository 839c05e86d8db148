/-!
# Positions and distance units

* `Location` — a point on the globe, in degrees.
* `DistanceUnit` — metres, kilometres, miles, feet, with conversions from and to metres.
-/

namespace RankedTable

/-- A point on the globe, in degrees. -/
structure Location where
  lat : Float
  lon : Float
  deriving Inhabited

/-- The units of distance. -/
inductive DistanceUnit where
  | meters
  | kilometers
  | miles
  | feet
  deriving DecidableEq, Repr, Inhabited

namespace DistanceUnit

/-- One unit in metres. -/
def inMeters : DistanceUnit → Float
  | meters => 1.0
  | kilometers => 1000.0
  | miles => 1609.34
  | feet => 0.3048

/-- A length in metres, in this unit. -/
def fromMeters (unit : DistanceUnit) (x : Float) : Float :=
  x / unit.inMeters

/-- A length in this unit, in metres. -/
def toMeters (unit : DistanceUnit) (x : Float) : Float :=
  x * unit.inMeters

/-- The full name of a unit. -/
def name : DistanceUnit → String
  | meters => "METERS"
  | kilometers => "KILOMETERS"
  | miles => "MILES"
  | feet => "FEET"

/-- The short name of a unit. -/
def symbol : DistanceUnit → String
  | meters => "m"
  | kilometers => "km"
  | miles => "mi"
  | feet => "ft"

/-- All units. -/
def all : List DistanceUnit := [meters, kilometers, miles, feet]

end DistanceUnit

end RankedTable

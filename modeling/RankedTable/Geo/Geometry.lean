import RankedTable.Geo.Distance
import RankedTable.Text.Fold

/-!
# What a geo index needs of the globe

A geo index stores positions as cell numbers and searches discs by intervals of them.  How cells
are numbered and distances measured does not matter to it.

* `Geometry` — cells, coverings and distances of some globe.
* `Geometry.sphere` — the sphere with cells along a curve.
* `DistanceUnit.parse` — reads the name of a unit.
-/

namespace RankedTable

/-- Cells, coverings and distances. -/
structure Geometry where
  /-- The number of the cell at a location. -/
  cellId : Location → Except Error Nat
  /-- The centre of the cell with a number. -/
  centre : Int → Location
  /-- Intervals of cell numbers that cover the disc of a radius in metres. -/
  covering : Location → Float → Int → Except Error (List (Nat × Nat))
  /-- The distance of two locations in metres. -/
  distance : Location → Location → Except Error Float

/-- The sphere. -/
def Geometry.sphere : Geometry where
  cellId location := (Cell.ofLocation location).map Cell.id
  centre n := (Cell.ofNumber n).centre
  covering := coveringOf
  distance := distanceInMetres

/-- The unit of a name: a short name, or a full name, in any case. -/
def DistanceUnit.parse (name : String) : Except Error DistanceUnit :=
  match DistanceUnit.all.find? (·.symbol = lowerAscii name) with
  | some unit => .ok unit
  | none =>
    match DistanceUnit.all.find? (·.name = upperAscii name) with
    | some unit => .ok unit
    | none => .error (.unknownUnit name)

end RankedTable

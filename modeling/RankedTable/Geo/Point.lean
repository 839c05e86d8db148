import RankedTable.Error

/-!
# Points in space

* `Point` — a vector, with the usual products.
* `Point.ofLocation`, `Point.toLocation` — between the globe in degrees and the unit sphere.
-/

namespace RankedTable

/-- A point in space. -/
structure Point where
  x : Float
  y : Float
  z : Float
  deriving Inhabited

namespace Point

/-- The dot product. -/
def dot (a b : Point) : Float :=
  a.x * b.x + a.y * b.y + a.z * b.z

/-- The cross product. -/
def cross (a b : Point) : Point :=
  ⟨a.y * b.z - a.z * b.y, a.z * b.x - a.x * b.z, a.x * b.y - a.y * b.x⟩

/-- The difference. -/
def sub (a b : Point) : Point :=
  ⟨a.x - b.x, a.y - b.y, a.z - b.z⟩

/-- The opposite point. -/
def neg (a : Point) : Point :=
  ⟨-a.x, -a.y, -a.z⟩

/-- The square of the length. -/
def norm2 (a : Point) : Float :=
  a.dot a

/-- The point at distance one in the same direction; the origin stays. -/
def normalize (a : Point) : Point :=
  let length := a.norm2.sqrt
  let scale := if length == 0.0 then length else 1.0 / length
  ⟨a.x * scale, a.y * scale, a.z * scale⟩

end Point

/-! ## Angles -/

/-- Half a turn. -/
def pi : Float := 3.141592653589793

/-- Degrees in radians. -/
def radians (degrees : Float) : Float :=
  degrees * (pi / 180.0)

/-- Radians in degrees. -/
def degrees (radians : Float) : Float :=
  radians * (180.0 / pi)

/-- The sine of an angle; infinite angles have none. -/
def sine (angle : Float) : Except Error Float :=
  if angle.isInf then .error .infiniteAngle else .ok angle.sin

/-- The cosine of an angle; infinite angles have none. -/
def cosine (angle : Float) : Except Error Float :=
  if angle.isInf then .error .infiniteAngle else .ok angle.cos

namespace Point

/-- The point of the unit sphere at a location. -/
def ofLocation (location : Location) : Except Error Point := do
  let phi := radians location.lat
  let theta := radians location.lon
  let cosPhi ← cosine phi
  return ⟨(← cosine theta) * cosPhi, (← sine theta) * cosPhi, ← sine phi⟩

/-- The location above which a point lies. -/
def toLocation (p : Point) : Location :=
  ⟨degrees (Float.atan2 p.z (p.x * p.x + p.y * p.y).sqrt), degrees (Float.atan2 p.y p.x)⟩

end Point

end RankedTable

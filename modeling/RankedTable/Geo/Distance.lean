import RankedTable.Geo.Covering

/-!
# Distances on the globe

* `distanceInMetres` — the great-circle distance, by the spherical law of cosines.
-/

namespace RankedTable

/-- The number kept between -1 and 1; what is no number is 1. -/
def clampCosine (x : Float) : Float :=
  let low := if x < 1.0 then x else 1.0
  if low > -1.0 then low else -1.0

/-- The great-circle distance of two locations.  Rounding can push the cosine of their angle just
past 1, so it is clamped. -/
def distanceInMetres (a b : Location) : Except Error Float := do
  let phi1 := radians a.lat
  let phi2 := radians b.lat
  let delta := radians (b.lon - a.lon)
  let cosAngle :=
    (← sine phi1) * (← sine phi2) + (← cosine phi1) * (← cosine phi2) * (← cosine delta)
  return (clampCosine cosAngle).acos * earthRadius

end RankedTable

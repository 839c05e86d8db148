import RankedTable.Error

/-!
# Geohashes

A geohash halves the longitudes and the latitudes in turn, and writes the halves chosen as base-32
digits of five bits.

* `geohashOf` — the geohash of a location.
-/

namespace RankedTable

namespace Geohash

/-- The digits. -/
def alphabet : List Char := "0123456789bcdefghjkmnpqrstuvwxyz".toList

/-- The halves chosen for a coordinate, `true` for the upper. -/
def halves (x : Float) : Nat → Float → Float → List Bool
  | 0, _, _ => []
  | count + 1, low, high =>
    let middle := (low + high) / 2.0
    if x ≥ middle then true :: halves x count middle high else false :: halves x count low middle

/-- Two lists in turn. -/
def interleave : List Bool → List Bool → List Bool
  | a :: as, bs => a :: interleave bs as
  | [], bs => bs
termination_by as bs => as.length + bs.length

/-- The digits of a list of bits, five to a digit. -/
def digits : Nat → List Bool → List Char
  | 0, _ => []
  | count + 1, bits =>
    let value := (bits.take 5).foldl (fun n bit => 2 * n + bit.toNat) 0
    alphabet.getD value '0' :: digits count (bits.drop 5)

/-- Whether a coordinate is within its bounds. -/
def within (bound x : Float) : Bool :=
  x ≥ -bound && x ≤ bound

end Geohash

open Geohash in
/-- The geohash of a location with one to twelve digits. -/
def geohashOf (location : Location) (precision : Int) : Except Error String :=
  if 1 ≤ precision ∧ precision ≤ 12 ∧ within 90.0 location.lat ∧ within 180.0 location.lon then
    let count := precision.toNat
    let bits := 5 * count
    let lons := halves location.lon ((bits + 1) / 2) (-180.0) 180.0
    let lats := halves location.lat (bits / 2) (-90.0) 90.0
    .ok (String.ofList (digits count (interleave lons lats)))
  else .error .outsideGeohash

end RankedTable

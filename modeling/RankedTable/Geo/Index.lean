import RankedTable.Client
import RankedTable.Geo.Geohash
import RankedTable.Geo.Geometry
import RankedTable.Store.Batch
import RankedTable.Store.Scan

/-!
# Geo indexes

A geo index is a collection whose items have a position: the number of the leaf cell they are in.
A search covers its disc with cells, ranges over each of them, and keeps the members whose distance
really is within the radius.  Positions come back as the centres of their cells.

* `GeoIndex.add`, `GeoIndex.positions` — write and read positions.
* `GeoIndex.distance`, `GeoIndex.geohashes` — computed from positions.
* `GeoIndex.radius`, `GeoIndex.radiusByMember` — search.
-/

namespace RankedTable

namespace GeoIndex

/-- Stores the positions of members one after the other, and counts them. -/
def add (client : Client) (geometry : Geometry) (key : String) (members : Assoc Location) :
    Program Int :=
  Program.countWrites false 0 (members.map fun (member, location) => do
    let cell ← Program.lift (geometry.cellId location)
    Program.perform
      (.update ⟨key, member⟩ [(client.settings.locationName, .ofInt cell)] []))

/-- The position of an item, if it has one. -/
def locationOf (client : Client) (geometry : Geometry) (item : Item) :
    Except Error (Option Location) :=
  match item.get? client.settings.locationName with
  | some (.number digits) =>
    match (Decimal.parse? digits).map Decimal.truncate with
    | some (.ok n) => .ok (some (geometry.centre n))
    | some (.error e) => .error (.noWholePart e)
    | none => .error .notADecimal
  | _ => .ok none

/-- Adds the positions of members to those found before. -/
def positionsAfter (client : Client) (geometry : Geometry) (key : String) :
    Assoc Location → List String → Program (Assoc Location)
  | found, [] => return found
  | found, member :: rest => do
    let item ← (Program.perform
      (.get ⟨key, member⟩ (some [client.settings.locationName]))).withSoFar (.locations found)
    let location ←
      match item with
      | some item => Program.lift (locationOf client geometry item)
      | none => pure none
    match location with
    | some location => positionsAfter client geometry key (Assoc.insert found member location) rest
    | none => positionsAfter client geometry key found rest

/-- The positions of members; those without one are left out. -/
def positions (client : Client) (geometry : Geometry) (key : String) (members : List String) :
    Program (Assoc Location) :=
  positionsAfter client geometry key [] members

/-- The distance of two members, and whether both have a position. -/
def distance (client : Client) (geometry : Geometry) (key first second : String)
    (unit : DistanceUnit) : Program (Float × Bool) := do
  let found ← positions client geometry key [first, second]
  match Assoc.get? found first, Assoc.get? found second with
  | some a, some b =>
    return (unit.fromMeters (← Program.lift (geometry.distance a b)), true)
  | _, _ => return (0.0, false)

/-- The geohashes of members, in the order asked for; those without a position have the empty
one. -/
def geohashes (client : Client) (geometry : Geometry) (key : String) (members : List String) :
    Program (List String) := do
  let found ← positions client geometry key members
  Program.lift (members.mapM fun member =>
    match Assoc.get? found member with
    | some location => geohashOf location client.settings.geohashPrecision
    | none => .ok "")

/-! ## Search -/

/-- What is searched for. -/
structure Disc where
  centre : Location
  radius : Float
  unit : DistanceUnit
  /-- How many matches are wanted; zero and negative numbers mean all. -/
  count : Int

/-- Whether enough matches have been found. -/
def Disc.satisfied (disc : Disc) (found : Assoc Location) : Bool :=
  decide (0 < disc.count) && decide (disc.count ≤ found.length)

/-- Takes an item among the matches if it is within the disc. -/
def Disc.visit (disc : Disc) (client : Client) (geometry : Geometry) (found : Assoc Location)
    (item : Item) : Except Error (Scan.Visit (Assoc Location)) := do
  match ← locationOf client geometry item with
  | none => return .more found
  | some location =>
    let metres ← geometry.distance disc.centre location
    if disc.unit.fromMeters metres > disc.radius then return .more found
    else
      let found := Assoc.insert found item.key.member location
      return if disc.satisfied found then .enough found else .more found

/-- The scan of one interval of cells. -/
def cellScan (client : Client) (key : String) (interval : Nat × Nat) (pageSize : Option Int) :
    Scan where
  request :=
    { partition := key
      index := some client.settings.locationName
      keyRange := some ⟨client.settings.locationName, .between,
        [.ofInt interval.1, .ofInt interval.2]⟩ }
  pageSize := pageSize
  maxPages := client.maxPages

/-- Searches one interval after the other. -/
def searchIntervals (client : Client) (geometry : Geometry) (key : String) (disc : Disc) :
    Assoc Location → List (Nat × Nat) → Program (Assoc Location)
  | found, [] => return found
  | found, interval :: rest => do
    let pageSize := if 0 < disc.count then some (disc.count - found.length) else none
    match ← (cellScan client key interval pageSize).fold (disc.visit client geometry) found with
    | (found, some e) => throw (e.withSoFar (.locations found))
    | (found, none) =>
      if disc.satisfied found then return found
      else searchIntervals client geometry key disc found rest

/-- The members within a disc. -/
def radius (client : Client) (geometry : Geometry) (key : String) (disc : Disc) :
    Program (Assoc Location) := do
  if disc.radius < 0 then throw (.negativeRadius disc.radius)
  else
    let intervals ← Program.lift
      (geometry.covering disc.centre (disc.unit.toMeters disc.radius) client.settings.maxCells)
    searchIntervals client geometry key disc [] intervals

/-- The members around a member; around one without a position there are none. -/
def radiusByMember (client : Client) (geometry : Geometry) (key member : String)
    (radius : Float) (unit : DistanceUnit) (count : Int) : Program (Assoc Location) := do
  let found ← positions client geometry key [member]
  match Assoc.get? found member with
  | some centre => GeoIndex.radius client geometry key ⟨centre, radius, unit, count⟩
  | none => return []

end GeoIndex

end RankedTable

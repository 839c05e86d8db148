import RankedTable.Geo.Index
import RankedTable.SortedSet.Range

/-!
# Commands

* `Command` — everything a client can ask for.
* `Answer` — what it is answered.
* `Command.program` — the calls that a command makes.
-/

namespace RankedTable

/-- A command of a client. -/
inductive Command where
  | add (key : String) (members : Assoc Float) (flags : AddFlags)
  | score (key member : String)
  | cardinality (key : String)
  | countByScore (key : String) (low high : Option Float)
  | countByName (key low high : String)
  | increment (key member : String) (delta : Float)
  | rank (key member : String) (forward : Bool)
  | rangeByRank (key : String) (start stop : Int) (forward : Bool)
  | rangeByScore (key : String) (low high : Option Float) (offset count : Int) (forward : Bool)
  | rangeByName (key low high : String) (offset count : Int) (forward : Bool)
  | remove (key : String) (members : List String)
  | removeByScore (key : String) (low high : Option Float)
  | removeByName (key low high : String)
  | removeByRank (key : String) (start stop : Int)
  | pop (key : String) (count : Int) (lowest : Bool)
  | combine (how : Aggregate)
  | addLocations (key : String) (members : Assoc Location)
  | positions (key : String) (members : List String)
  | distance (key first second : String) (unit : DistanceUnit)
  | geohashes (key : String) (members : List String)
  | radius (key : String) (disc : GeoIndex.Disc)
  | radiusByMember (key member : String) (radius : Float) (unit : DistanceUnit) (count : Int)

/-- The answer to a command. -/
inductive Answer where
  | count (n : Int)
  | number (x : Float)
  /-- A score, and whether there is one. -/
  | score (x : Float) (found : Bool)
  /-- A position in an order, and whether there is one. -/
  | rank (n : Int) (found : Bool)
  | scores (members : Assoc Float)
  | locations (members : Assoc Location)
  /-- A distance, and whether there is one. -/
  | distance (x : Float) (found : Bool)
  | texts (texts : List String)

/-- The program of a command. -/
def Command.program (client : Client) (geometry : Geometry) : Command → Program Answer
  | add key members flags => .count <$> SortedSet.add client key members flags
  | score key member => do
    let (x, found) ← SortedSet.score client key member
    return .score x found
  | cardinality key => .count <$> SortedSet.cardinality client key
  | countByScore key low high => .count <$> SortedSet.countByScore client key low high
  | countByName key low high => .count <$> SortedSet.countByName client key low high
  | increment key member delta => .number <$> SortedSet.increment client key member delta
  | rank key member forward => do
    let (n, found) ← SortedSet.rank client key member forward
    return .rank n found
  | rangeByRank key start stop forward =>
    .scores <$> SortedSet.rangeByRank client key start stop forward
  | rangeByScore key low high offset count forward =>
    .scores <$> SortedSet.rangeByScore client key low high offset count forward
  | rangeByName key low high offset count forward =>
    .scores <$> SortedSet.rangeByName client key low high offset count forward
  | remove key members => .count <$> SortedSet.remove key members
  | removeByScore key low high => .count <$> SortedSet.removeByScore client key low high
  | removeByName key low high => .count <$> SortedSet.removeByName client key low high
  | removeByRank key start stop => .count <$> SortedSet.removeByRank client key start stop
  | pop key count lowest => .scores <$> SortedSet.pop client key count lowest
  | combine how => throw (.unsupported how)
  | addLocations key members => .count <$> GeoIndex.add client geometry key members
  | positions key members => .locations <$> GeoIndex.positions client geometry key members
  | distance key first second unit => do
    let (x, found) ← GeoIndex.distance client geometry key first second unit
    return .distance x found
  | geohashes key members => .texts <$> GeoIndex.geohashes client geometry key members
  | radius key disc => .locations <$> GeoIndex.radius client geometry key disc
  | radiusByMember key member limit unit count =>
    .locations <$> GeoIndex.radiusByMember client geometry key member limit unit count

end RankedTable

import RankedTable.SortedSet.Basic
import RankedTable.Store.Scan

/-!
# Counts and ranks

* `SortedSet.scoreRange`, `SortedSet.nameRange` — what the scans of a sorted set range over.
* `SortedSet.cardinality`, `SortedSet.countByScore`, `SortedSet.countByName` — counts.
* `SortedSet.rank` — how many members have a smaller score; ties all count as before.
-/

namespace RankedTable

namespace SortedSet

/-- The bound of a range of scores. -/
def scoreBound (x : Option Float) : Except Error (Option Value) :=
  x.mapM fun x => (liftScore (Score.encode x)).map .text

/-- The bound of a range of names; the empty name is none. -/
def nameBound (name : String) : Option Value :=
  if name = "" then none else some (.text name)

/-- The request for the members with scores between two bounds. -/
def scoreRange (client : Client) (key : String) (low high : Option Float) (forward : Bool) :
    Except Error QueryRequest := do
  let low ← scoreBound low
  let high ← scoreBound high
  return {
    partition := key
    index := some client.settings.scoreName
    keyRange := Condition.range? client.settings.scoreName low high
    forward := forward }

/-- The request for the members with names between two bounds. -/
def nameRange (client : Client) (key low high : String) (forward : Bool) : QueryRequest :=
  { partition := key
    keyRange := Condition.range? client.settings.memberName (nameBound low) (nameBound high)
    forward := forward }

/-- The number of items of a collection. -/
def cardinality (client : Client) (key : String) : Program Int :=
  Scan.count { request := { partition := key }, maxPages := client.maxPages }

/-- The number of members with scores between two bounds. -/
def countByScore (client : Client) (key : String) (low high : Option Float) : Program Int := do
  let request ← Program.lift (scoreRange client key low high true)
  Scan.count { request := request, maxPages := client.maxPages }

/-- The number of items with names between two bounds. -/
def countByName (client : Client) (key low high : String) : Program Int :=
  Scan.count { request := nameRange client key low high true, maxPages := client.maxPages }

/-- The position of a member by ascending or descending score, and whether it has one.  Members
with the same score all count as before it. -/
def rank (client : Client) (key member : String) (forward : Bool) : Program (Int × Bool) := do
  let (x, found) ← score client key member
  if found then
    let n ←
      if forward then countByScore client key none (some x)
      else countByScore client key (some x) none
    return (n - 1, true)
  else return (0, false)

end SortedSet

end RankedTable

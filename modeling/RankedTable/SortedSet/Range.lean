import RankedTable.SortedSet.Count

/-!
# Ranges of members

* `SortedSet.rangeByScore`, `SortedSet.rangeByName`, `SortedSet.rangeByRank` — members with their
  scores, in either direction.
* `SortedSet.pop`, `SortedSet.removeFetched` — removal of members that were fetched before.
-/

namespace RankedTable

namespace SortedSet

/-- A member with its score. -/
def decodeMember (client : Client) (item : Item) : Except Error (String × Float) :=
  match item.get? client.settings.scoreName with
  | some (.text encoded) => do
    return (item.key.member, ← liftScore (Score.decode encoded))
  | _ => .error (.store (.noScore item.key.member item.key.partition))

/-- The members in a range, after the first `offset` and at most `count` if that is positive. -/
def fetch (client : Client) (request : QueryRequest) (offset count : Int) :
    Program (Assoc Float) :=
  Scan.collect
    { request := request, offset := offset, take := count, maxPages := client.maxPages }
    (decodeMember client) .scores

/-- The members with scores between two bounds, by score. -/
def rangeByScore (client : Client) (key : String) (low high : Option Float)
    (offset count : Int) (forward : Bool) : Program (Assoc Float) := do
  let request ← Program.lift (scoreRange client key low high forward)
  fetch client request offset count

/-- The members with names between two bounds, by name. -/
def rangeByName (client : Client) (key low high : String) (offset count : Int)
    (forward : Bool) : Program (Assoc Float) :=
  fetch client (nameRange client key low high forward) offset count

/-- The members at positions whose signs are the same, or whose first is not negative.  Positions
below zero are read from the other end of the order. -/
def rangeFrom (client : Client) (key : String) (start stop : Int) (forward : Bool) :
    Program (Assoc Float) :=
  if start < 0 ∧ stop < 0 then
    if stop < start then return []
    else do
      let tail ← rangeByScore client key none none (-stop - 1) (stop - start + 1) (!forward)
      return tail.reverse
  else if stop < 0 then do
    let boundary ← rangeByScore client key none none (-stop - 1) 1 (!forward)
    match boundary with
    | [] => return []
    | (_, edge) :: _ =>
      if forward then rangeByScore client key none (some edge) start 0 forward
      else rangeByScore client key (some edge) none start 0 forward
  else if stop < start then return []
  else rangeByScore client key none none start (stop - start + 1) forward

/-- The members at positions `start` to `stop` of the order by score.  Negative positions count
from the end. -/
def rangeByRank (client : Client) (key : String) (start stop : Int) (forward : Bool) :
    Program (Assoc Float) := do
  if start < 0 ∧ 0 ≤ stop then
    let n ← cardinality client key
    rangeFrom client key (max (n + start) 0) stop forward
  else rangeFrom client key start stop forward

/-! ## Removal -/

/-- Removes members that have been fetched, and counts those that still existed.  If the store
fails, all that were fetched are reported. -/
def removeFetched (key : String) (members : Assoc Float) : Program Int :=
  (remove key members.names).withSoFar (.scores members)

/-- Removes the members with scores between two bounds. -/
def removeByScore (client : Client) (key : String) (low high : Option Float) : Program Int := do
  removeFetched key (← rangeByScore client key low high 0 0 true)

/-- Removes the members with names between two bounds. -/
def removeByName (client : Client) (key low high : String) : Program Int := do
  removeFetched key (← rangeByName client key low high 0 0 true)

/-- Removes the members at positions `start` to `stop`. -/
def removeByRank (client : Client) (key : String) (start stop : Int) : Program Int := do
  removeFetched key (← rangeByRank client key start stop true)

/-- Removes the members with the lowest or the highest scores, and returns them. -/
def pop (client : Client) (key : String) (count : Int) (lowest : Bool) :
    Program (Assoc Float) := do
  if count ≤ 0 then return []
  else
    let members ← rangeByScore client key none none 0 count lowest
    let _ ← removeFetched key members
    return members

end SortedSet

end RankedTable

import RankedTable.Client
import RankedTable.Store.Batch

/-!
# Members and scores

A sorted set is a collection whose items have a score, kept as text that sorts like the number.
The members may also have other attributes, and items without a score are no members.

* `SortedSet.score` — the score of a member.
* `SortedSet.add`, `SortedSet.remove` — batches of conditional writes.
* `SortedSet.increment` — adds to a score, conditioned on the score read before.
-/

namespace RankedTable

/-- Which members an addition may write. -/
structure AddFlags where
  onlyNew : Bool := false
  onlyExisting : Bool := false
  deriving DecidableEq, Repr

namespace SortedSet

/-- The score of a member, and whether it has one; the score is zero if not. -/
def score (client : Client) (key member : String) : Program (Float × Bool) := do
  let found ← Program.perform (.get ⟨key, member⟩ (some [client.settings.scoreName]))
  match found.bind (·.get? client.settings.scoreName) with
  | some (.text encoded) => return (← Program.lift (liftScore (Score.decode encoded)), true)
  | _ => return (0.0, false)

/-- Writes the score of a member. -/
def writeScore (client : Client) (key member encoded : String) (conditions : List Condition) :
    Program Unit :=
  Program.perform
    (.update ⟨key, member⟩ [(client.settings.scoreName, .text encoded)] conditions)

/-- The conditions that flags put on an addition. -/
def AddFlags.conditions (flags : AddFlags) : List Condition :=
  (if flags.onlyNew then [Condition.itemAbsent] else []) ++
    (if flags.onlyExisting then [Condition.itemPresent] else [])

/-- The members of an addition with their encoded scores. -/
def encodeAll (members : Assoc Float) : Except Error (Assoc String) :=
  members.mapM fun (member, x) => do
    return (member, ← liftScore (Score.encode x))

/-- Sets the scores of members, and counts those written.  All scores are encoded before the first
is written. -/
def add (client : Client) (key : String) (members : Assoc Float) (flags : AddFlags) :
    Program Int := do
  let encoded ← Program.lift (encodeAll members)
  Program.countWrites true 0 (encoded.map fun (member, text) =>
    writeScore client key member text (AddFlags.conditions flags))

/-- Deletes members, and counts those that existed. -/
def remove (key : String) (members : List String) : Program Int :=
  Program.countWrites true 0 (members.map fun member =>
    Program.perform (.delete ⟨key, member⟩ [Condition.itemPresent]))

/-- Tries once to add to a score; `none` if another writer came in between. -/
def tryIncrement (client : Client) (key member : String) (delta : Float) :
    Program (Option Float) := do
  let (old, found) ← score client key member
  let guard ←
    if found then do
      let encoded ← Program.lift (liftScore (Score.encode old))
      pure (Condition.eq client.settings.scoreName (.text encoded))
    else pure ⟨client.settings.scoreName, .absent, []⟩
  let encoded ← Program.lift (liftScore (Score.encode (old + delta)))
  match ← (writeScore client key member encoded [guard]).attempt with
  | .ok () => return some (old + delta)
  | .error e => if e.isMiss then return none else throw e

/-- Tries to add to a score until it succeeds, but no more than the given number of times. -/
def incrementWithin (client : Client) (key member : String) (delta : Float) :
    Nat → Program Float
  | 0 => throw (.contention ⟨key, member⟩ client.settings.maxAttempts)
  | attempts + 1 => do
    match ← tryIncrement client key member delta with
    | some x => return x
    | none => incrementWithin client key member delta attempts

/-- Adds to the score of a member, which is zero if it has none. -/
def increment (client : Client) (key member : String) (delta : Float) : Program Float :=
  if delta.isNaN then throw .incrementNotANumber
  else incrementWithin client key member delta client.settings.maxAttempts.toNat

end SortedSet

end RankedTable

import RankedTable.Store.Program

/-!
# Scans

A collection comes in pages, each with a token for the next.  A scan follows the tokens until there
is none or until its budget is spent, and asks each page for no more than it still needs.  As a
store could hand out tokens for ever, a scan has a bound on its pages.

* `Scan` — what to range over, how many matches to skip, and how many to take.
* `Scan.fold` — goes through the matches with an accumulator.
* `Scan.collect` — decodes the matches into a mapping.
* `Scan.count` — counts all matches without fetching them.
-/

namespace RankedTable

/-- A range of a collection under a budget. -/
structure Scan where
  /-- What to range over; its limit and its token are not used. -/
  request : QueryRequest
  /-- How many matches are skipped; a negative number is zero. -/
  offset : Int := 0
  /-- How many matches are taken at most; zero and negative numbers mean all. -/
  take : Int := 0
  /-- What a page is asked for if there is no budget. -/
  pageSize : Option Int := none
  /-- How many pages are read at most. -/
  maxPages : Nat

namespace Scan

variable {β : Type}

/-- The matches to skip. -/
def skip (scan : Scan) : Nat := scan.offset.toNat

/-- Whether the budget is spent after so many matches. -/
def spent (scan : Scan) (seen : Nat) : Bool :=
  decide (0 < scan.take) && decide (scan.skip + scan.take ≤ seen)

/-- The request for the next page after so many matches. -/
def pageRequest (scan : Scan) (seen : Nat) (token : Option Token) : QueryRequest :=
  { scan.request with
    limit := if 0 < scan.take then some (scan.take + scan.skip - seen) else scan.pageSize
    startKey := token }

/-! ## Going through the matches -/

/-- What a visitor makes of a match: it goes on, or has seen enough. -/
inductive Visit (β : Type) where
  | more (acc : β)
  | enough (acc : β)

/-- How far a page has been gone through. -/
inductive Progress (β : Type) where
  | more (seen : Nat) (acc : β)
  | finished (acc : β)
  | failed (acc : β) (error : Error)

/-- Goes through the items of one page. -/
def visitPage (scan : Scan) (visit : β → Item → Except Error (Visit β)) :
    Nat → β → List Item → Progress β
  | seen, acc, [] => .more seen acc
  | seen, acc, item :: rest =>
    if seen < scan.skip then scan.visitPage visit (seen + 1) acc rest
    else
      match visit acc item with
      | .error e => .failed acc e
      | .ok (.enough acc) => .finished acc
      | .ok (.more acc) =>
        if scan.spent (seen + 1) then .finished acc
        else scan.visitPage visit (seen + 1) acc rest

/-- Goes through the pages from a token on.  The answer has the accumulator also if a page or a
match failed. -/
def foldPages (scan : Scan) (visit : β → Item → Except Error (Visit β)) :
    Nat → Option Token → Nat → β → Program (β × Option Error)
  | 0, _, _, acc => .done (.ok (acc, some .unfinishedScan))
  | pages + 1, token, seen, acc =>
    .call (.query (scan.pageRequest seen token)) fun
      | .error e => .done (.ok (acc, some e))
      | .ok page =>
        match scan.visitPage visit seen acc page.items with
        | .failed acc e => .done (.ok (acc, some e))
        | .finished acc => .done (.ok (acc, none))
        | .more seen acc =>
          match page.lastKey with
          | none => .done (.ok (acc, none))
          | some token => scan.foldPages visit pages (some token) seen acc

/-- Goes through the matches with an accumulator. -/
def fold (scan : Scan) (visit : β → Item → Except Error (Visit β)) (acc : β) :
    Program (β × Option Error) :=
  scan.foldPages visit scan.maxPages none 0 acc

/-- The accumulator of a fold; a failure takes it along as what had been gathered. -/
def outcome (gathered : β → Gathered) : β × Option Error → Program β
  | (acc, none) => .done (.ok acc)
  | (acc, some e) => .done (.error (e.withSoFar (gathered acc)))

/-- Decodes the matches into a mapping, in order. -/
def collect {α : Type} (scan : Scan) (decode : Item → Except Error (String × α))
    (gathered : Assoc α → Gathered) : Program (Assoc α) := do
  let found ← scan.fold (fun m item => (decode item).map fun e => .more (Assoc.insert m e.1 e.2)) []
  outcome gathered found

/-- All matches, in order. -/
def items (scan : Scan) : Program (List Item) := do
  match ← scan.fold (fun found item => .ok (.more (item :: found))) [] with
  | (found, none) => return found.reverse
  | (_, some e) => throw e

/-! ## Counting -/

/-- Adds up the counts of the pages from a token on. -/
def countPages (scan : Scan) : Nat → Option Token → Int → Program Int
  | 0, _, _ => .done (.error .unfinishedScan)
  | pages + 1, token, total =>
    .call (.query { scan.request with
        selectCount := true, limit := scan.pageSize, startKey := token }) fun
      | .error e => .done (.error (e.withSoFar (.count total)))
      | .ok page =>
        match page.lastKey with
        | none => .done (.ok (total + page.count))
        | some token => scan.countPages pages (some token) (total + page.count)

/-- Counts all matches; neither the skip nor the budget matters. -/
def count (scan : Scan) : Program Int :=
  scan.countPages scan.maxPages none 0

end Scan

end RankedTable

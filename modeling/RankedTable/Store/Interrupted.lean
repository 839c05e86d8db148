import RankedTable.Store.Basic

/-!
# Stores that fail on purpose

To see what a command does when its store fails half way, a store is wrapped: the wrapper keeps the
calls that were made, and lets chosen calls fail before they reach the store.

* `Fault`, `FaultPlan` — which call fails, and how.
* `Store.interrupted` — the wrapped store.
-/

namespace RankedTable

/-- A failure on purpose. -/
inductive Fault where
  | unavailable
  | lostRace
  deriving DecidableEq, Repr

/-- The error of a failure on purpose. -/
def Fault.error : Fault → Error
  | unavailable => .store .unavailable
  | lostRace => .conditionFailed .lostRace

/-- Which calls fail: the calls of each kind are counted from one. -/
abbrev FaultPlan := Call.Method → Nat → Option Fault

/-- No call fails. -/
def FaultPlan.none : FaultPlan := fun _ _ => Option.none

/-- How many calls of one kind are in a list. -/
def callCount (method : Call.Method) (calls : List Call) : Nat :=
  calls.countP (·.method = method)

/-- The store with planned failures.  Its state holds the calls made so far, the latest first. -/
def Store.interrupted {σ : Type} (plan : FaultPlan) (store : Store σ) : Store (List Call × σ) :=
  fun c (calls, state) =>
    match plan c.method (callCount c.method calls + 1) with
    | some fault => (.error fault.error, c :: calls, state)
    | none => ((store c state).1, c :: calls, (store c state).2)

end RankedTable

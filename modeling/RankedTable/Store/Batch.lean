import RankedTable.Store.Program

/-!
# Batches of writes

* `countWrites` — makes writes one after the other and counts those that took effect.
-/

namespace RankedTable

/-- Whether an error says that a write missed its condition. -/
def Error.isMiss : Error → Bool
  | .conditionFailed .. => true
  | _ => false

namespace Program

/-- The outcome of a program as a value. -/
def attempt {α : Type} (p : Program α) : Program (Except Error α) :=
  (p >>= fun a => pure (Except.ok a)).tryCatch fun e => pure (.error e)

/-- Makes writes in order and counts those that took effect, after the `count` before them.  A
write that misses its condition is passed over, if misses are allowed; any other failure ends the
batch, with the count so far. -/
def countWrites (allowMisses : Bool) : Int → List (Program Unit) → Program Int
  | count, [] => pure count
  | count, write :: rest => do
    match ← write.attempt with
    | .ok () => countWrites allowMisses (count + 1) rest
    | .error e =>
      if allowMisses && e.isMiss then countWrites allowMisses count rest
      else throw (e.withSoFar (.count count))

end Program

end RankedTable

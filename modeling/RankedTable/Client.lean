import RankedTable.Settings.Basic

/-!
# Clients

* `Client` — what commands need to know besides the store.
-/

namespace RankedTable

/-- What commands need to know besides the store. -/
structure Client where
  settings : Settings
  /-- How many pages a single scan may read: more than the store can have. -/
  maxPages : Nat

end RankedTable

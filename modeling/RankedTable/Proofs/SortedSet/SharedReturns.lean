import RankedTable.Proofs.SortedSet.ScoreReads
import RankedTable.Proofs.Store.Returns

/-!
# What commands on a shared collection return

Whatever other clients do between the calls of a command, an addition and a removal return the
number of their writes that took effect.  A removal of a range first reads it, and what it has read
may be gone by then; this changes which of its deletions take effect, but not that it counts them.

* `Item.HasScore` — an item is a member: it has a score that can be read.
* `returns_add`, `returns_remove` — batches of writes.
* `returns_removal` — a removal of what was read before.
* `returns_fetch`, `returns_rangeByScore`, `returns_rangeByRank` — the reads before a removal.
-/

namespace RankedTable

open Program

/-- Whether an item has a score under a name. -/
def Item.HasScore (name : String) (item : Item) : Prop :=
  ∃ t x, item.get? name = some (.text t) ∧ Score.decode t = .ok x

namespace SortedSet

variable {client : Client} {key : String} {Fine : (c : Call) → Except Error c.Reply → Prop}
  {budget written : ℕ}

/-- A member is decoded, and its score is a number. -/
lemma decodeMember_hasScore {item : Item} (h : item.HasScore client.settings.scoreName) :
    ∃ e, decodeMember client item = .ok e ∧ e.2.isNaN = false := by
  obtain ⟨t, x, ht, hx⟩ := h
  refine ⟨(item.key.member, x), ?_, Score.isNaN_decode hx⟩
  rw [decodeMember, ht]
  dsimp only
  rw [hx]
  rfl

lemma encodeAll_ok {members : Assoc Float} (h : ∀ e ∈ members, e.2.isNaN = false) :
    ∃ encoded, encodeAll members = .ok encoded := by
  cases hencoded : encodeAll members with
  | ok encoded => exact ⟨encoded, rfl⟩
  | error error =>
      obtain ⟨front, ⟨member, x⟩, back, rfl, -, hx⟩ := mapM_eq_error.mp hencoded
      obtain ⟨t, ht, -⟩ := Score.encode_codes (h (member, x) (by simp))
      dsimp only at hx
      rw [ht] at hx
      cases hx

/-! ## Batches -/

section Batches

variable (hmiss : ∀ c e, Fine c (.error e) → e.isMiss = true)

include hmiss

/-- An addition returns how many of its writes took effect. -/
lemma returns_add {members : Assoc Float} (h : ∀ e ∈ members, e.2.isNaN = false)
    (flags : AddFlags) :
    Returns Fine (fun w count => count = (w : ℤ)) budget 0 (add client key members flags) := by
  obtain ⟨encoded, hencoded⟩ := encodeAll_ok h
  refine returns_lift_bind hencoded (returns_countWrites hmiss fun write hwrite => ?_)
  obtain ⟨e, -, rfl⟩ := List.mem_map.mp hwrite
  exact .update ..

/-- A removal returns how many of its deletions took effect. -/
lemma returns_remove (members : List String) :
    Returns Fine (fun w count => count = (w : ℤ)) budget 0 (remove key members) := by
  refine returns_countWrites hmiss fun write hwrite => ?_
  obtain ⟨member, -, rfl⟩ := List.mem_map.mp hwrite
  exact .delete ..

/-- A removal of what was read returns how many of its deletions took effect, whatever it was. -/
lemma returns_removal {read : Program (Assoc Float)} {Q : Assoc Float → Prop}
    (hread : Returns Fine (fun w found => w = 0 ∧ Q found) budget 0 read) :
    Returns Fine (fun w count => count = (w : ℤ)) budget 0 (do removeFetched key (← read)) := by
  refine returns_bind hread ?_
  rintro w found ⟨rfl, -⟩
  exact returns_withSoFar (returns_remove hmiss _) _

end Batches

/-! ## Reads -/

section Reads

variable (hquery : ∀ request reply, request.partition = key → Fine (.query request) reply →
    ∃ page, reply = .ok page ∧ ∀ item ∈ page.items, item.HasScore client.settings.scoreName)
  (hbudget : budget < client.maxPages)

include hquery hbudget

lemma returns_cardinality :
    Returns Fine (fun w _ => w = written) budget written (cardinality client key) :=
  returns_countPages (fun request reply h => hquery request reply h) hbudget none 0

lemma returns_fetch {request : QueryRequest} (hpartition : request.partition = key)
    (offset count : ℤ) :
    Returns Fine (fun w found => w = written ∧ ∀ e ∈ found, e.2.isNaN = false) budget written
      (fetch client request offset count) :=
  returns_collect (fun request reply h => hquery request reply (h.trans hpartition))
    (fun _ => decodeMember_hasScore) _ hbudget

lemma returns_rangeByScore {low high : Option Float} (hlow : IsBound low) (hhigh : IsBound high)
    (offset count : ℤ) (forward : Bool) :
    Returns Fine (fun w found => w = written ∧ ∀ e ∈ found, e.2.isNaN = false) budget written
      (rangeByScore client key low high offset count forward) := by
  obtain ⟨request, test, hrequest, hr⟩ := scoreRange_ok client hlow hhigh key forward
  exact returns_lift_bind hrequest (returns_fetch hquery hbudget hr.partition offset count)

lemma returns_rangeFrom (start stop : ℤ) (forward : Bool) :
    Returns Fine (fun w found => w = written ∧ ∀ e ∈ found, e.2.isNaN = false) budget written
      (rangeFrom client key start stop forward) := by
  have hrange := fun low high hlow hhigh =>
    @returns_rangeByScore client key Fine budget written hquery hbudget low high hlow hhigh
  have hempty : Returns Fine (fun w (found : Assoc Float) => w = written ∧
      ∀ e ∈ found, e.2.isNaN = false) budget written (pure []) :=
    returns_pure ⟨rfl, fun _ he => absurd he List.not_mem_nil⟩
  rw [rangeFrom]
  by_cases hnegative : start < 0 ∧ stop < 0
  · rw [if_pos hnegative]
    split_ifs
    · exact hempty
    · refine returns_bind (hrange _ _ isBound_none isBound_none _ _ _) ?_
      rintro w tail ⟨rfl, htail⟩
      exact returns_pure ⟨rfl, fun e he => htail e (List.mem_reverse.mp he)⟩
  · rw [if_neg hnegative]
    by_cases hstop : stop < 0
    · rw [if_pos hstop]
      refine returns_bind (hrange _ _ isBound_none isBound_none _ _ _) ?_
      rintro w boundary ⟨rfl, hboundary⟩
      cases boundary with
      | nil => exact hempty
      | cons e rest =>
          -- the score at the boundary was decoded, so it can be a bound
          have hedge : IsBound (some e.2) := fun x hx =>
            Option.some_inj.mp hx ▸ hboundary e (List.mem_cons_self ..)
          cases forward with
          | true => exact hrange _ _ isBound_none hedge _ _ _
          | false => exact hrange _ _ hedge isBound_none _ _ _
    · rw [if_neg hstop]
      split_ifs
      · exact hempty
      · exact hrange _ _ isBound_none isBound_none _ _ _

lemma returns_rangeByRank (start stop : ℤ) (forward : Bool) :
    Returns Fine (fun w found => w = written ∧ ∀ e ∈ found, e.2.isNaN = false) budget written
      (rangeByRank client key start stop forward) := by
  rw [rangeByRank]
  split_ifs
  · refine returns_bind (returns_cardinality hquery hbudget) ?_
    rintro w n rfl
    exact returns_rangeFrom hquery hbudget _ _ _
  · exact returns_rangeFrom hquery hbudget _ _ _

end Reads

end SortedSet

end RankedTable

import RankedTable.Proofs.Store.Calls

/-!
# Stores that fail for a while

An outage tells which calls fail, and with what error.  A call that fails does not reach the store,
so a program that is only made to fail at its n-th call of a kind has done by then what it does on
the store itself.

* `Outage`, `Store.failing` — the store during an outage.
* `interrupted_eq_failing` — failures on purpose are an outage.
* **`run_failing_spared`** — calls of a kind that never fails are answered by the store itself.
* `countWrites_append` — a batch may be made in two parts.
* `DeletionFails` — the outages that start with a deletion.
-/

namespace RankedTable

variable {α σ : Type}

/-- Which calls fail, and with what error: the calls of each kind are counted from one. -/
abbrev Outage := Call.Method → ℕ → Option Error

/-- The store during an outage.  Its state holds the calls made so far, the latest first. -/
def Store.failing (outage : Outage) (store : Store σ) : Store (List Call × σ) :=
  fun c (calls, state) =>
    match outage c.method (callCount c.method calls + 1) with
    | some e => (.error e, c :: calls, state)
    | none => ((store c state).1, c :: calls, (store c state).2)

/-- Failures on purpose are an outage. -/
lemma Store.interrupted_eq_failing (plan : FaultPlan) (store : Store σ) :
    store.interrupted plan = store.failing fun method n => (plan method n).map Fault.error := by
  funext c s
  rw [interrupted, failing]
  cases plan c.method (callCount c.method s.1 + 1) <;> rfl

/-! ## Single calls -/

section Calls

variable {outage : Outage} {store : Store σ} {c : Call} {calls : List Call} {s : σ}

lemma Store.failing_spared (h : outage c.method (callCount c.method calls + 1) = none) :
    store.failing outage c (calls, s) = ((store c s).1, c :: calls, (store c s).2) := by
  rw [failing, h]

lemma Store.failing_hit {e : Error}
    (h : outage c.method (callCount c.method calls + 1) = some e) :
    store.failing outage c (calls, s) = (.error e, c :: calls, s) := by
  rw [failing, h]

lemma callCount_cons_self (c : Call) (calls : List Call) :
    callCount c.method (c :: calls) = callCount c.method calls + 1 :=
  List.countP_cons_of_pos (decide_eq_true rfl)

lemma callCount_cons_of_ne {method : Call.Method} (h : c.method ≠ method) (calls : List Call) :
    callCount method (c :: calls) = callCount method calls :=
  List.countP_cons_of_neg (by simpa using h)

end Calls

/-! ## Programs -/

namespace Program

/-- A store that never fails runs programs like the store itself. -/
lemma run_failing_none (store : Store σ) (p : Program α) (calls : List Call) (s : σ) :
    (p.run (store.failing fun _ _ => none) (calls, s)).1 = (p.run store s).1 ∧
      (p.run (store.failing fun _ _ => none) (calls, s)).2.2 = (p.run store s).2 := by
  have hplan : store.interrupted FaultPlan.none = store.failing fun _ _ => none :=
    Store.interrupted_eq_failing FaultPlan.none store
  rw [← hplan]
  exact run_interrupted_none store p calls s

/-- **Calls of a kind that never fails are answered by the store itself**, and leave the calls of
other kinds to be counted as before. -/
theorem run_failing_spared (store : Store σ) {method : Call.Method} {p : Program α}
    (hp : p.Calls (·.method = method)) {outage : Outage} (hspared : ∀ n, outage method n = none)
    (calls : List Call) (s : σ) :
    ∃ made, (∀ other, other ≠ method → callCount other made = callCount other calls) ∧
      p.run (store.failing outage) (calls, s) =
        ((p.run store s).1, made, (p.run store s).2) := by
  induction p generalizing calls s with
  | done result => exact ⟨calls, fun _ _ => rfl, rfl⟩
  | call c next ih =>
      obtain ⟨hc, hnext⟩ := hp
      have hstep : store.failing outage c (calls, s) =
          ((store c s).1, c :: calls, (store c s).2) := Store.failing_spared (hc ▸ hspared _)
      obtain ⟨made, hmade, hrun⟩ := ih _ (hnext _) (c :: calls) (store c s).2
      refine ⟨made, fun other hother => ?_, ?_⟩
      · rw [hmade other hother, callCount_cons_of_ne (hc ▸ hother.symm)]
      · rw [run, run, hstep]
        exact hrun

/-- A batch may be made in two parts. -/
lemma countWrites_append (allowMisses : Bool) (count : ℤ) (front back : List (Program Unit)) :
    countWrites allowMisses count (front ++ back) =
      countWrites allowMisses count front >>= fun n => countWrites allowMisses n back := by
  induction front generalizing count with
  | nil => rfl
  | cons write rest ih =>
      rw [List.cons_append, countWrites, countWrites, bind_assoc]
      refine congrArg (write.attempt >>= ·) (funext fun outcome => ?_)
      cases outcome with
      | ok _ => exact ih (count + 1)
      | error e =>
          dsimp only
          split_ifs
          · exact ih count
          · rfl

end Program

/-- Whether the j-th deletion is the first call to fail, and no page is refused. -/
structure DeletionFails (outage : Outage) (j : ℕ) (e : Error) : Prop where
  pages : ∀ n, outage .query n = none
  before : ∀ n, n < j → outage .delete n = none
  fails : outage .delete j = some e

end RankedTable

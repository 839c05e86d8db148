import RankedTable.Proofs.Store.BreakingOff

/-!
# Programs that end where a call fails

Often it does not matter which calls were made before the one that fails.  What a program ends with
then is told along its run on the store without failures, whichever call it is that fails.

* `Program.EndsOnFailure` — whichever call fails, a program ends there, and with what.
* `EndsOnFailure.bind`, `EndsOnFailure.imp` — programs built from others.
* `endsOnFailure_iff` — a program that breaks off alike whichever calls were made before.
* **`run_failing_ends`** — what a run ends with if one of its calls fails.
* `run_queries`, `run_failing_queries` — a program that only queries leaves the table as it was.
* `Scan.BrokenOff` — a scan that has gone through a part of its range.
* **`endsOn_fold`** — a fold ends with what it found on the pages before.
-/

namespace RankedTable

variable {α β σ : Type}

namespace Program

/-- Whichever call of a run on a store were to fail, the program would end there, and with a result
that goes with the failure. -/
def EndsOnFailure (store : Store σ) (P : Error → Except Error α → Prop) : Program α → σ → Prop
  | done _, _ => True
  | call c next, s =>
    (∀ e, ∃ result, next (.error e) = done result ∧ P e result) ∧
      EndsOnFailure store P (next (store c s).1) (store c s).2

variable {store : Store σ} {P : Error → Except Error α → Prop}

/-- A program ends where a call fails if it breaks off there, whichever calls were made before. -/
lemma endsOnFailure_iff {p : Program α} {s : σ} :
    EndsOnFailure store P p s ↔ BreaksOff store (fun _ => P) p s := by
  induction p generalizing s with
  | done result => exact Iff.rfl
  | call c next ih => exact and_congr_right fun _ => ih _

lemma EndsOnFailure.imp {Q : Error → Except Error α → Prop} {p : Program α} {s : σ}
    (h : EndsOnFailure store P p s) (hPQ : ∀ e result, P e result → Q e result) :
    EndsOnFailure store Q p s :=
  endsOnFailure_iff.mpr ((endsOnFailure_iff.mp h).imp fun _ => hPQ)

/-- A sequence ends where its first part does, or where its second part does. -/
lemma EndsOnFailure.bind {Q : Error → Except Error β → Prop} {p : Program α}
    {k : α → Program β} {s : σ} (hp : EndsOnFailure store P p s)
    (hbroken : ∀ e result, P e result → ∃ other, (done result >>= k) = done other ∧ Q e other)
    (hk : ∀ a s', p.run store s = (.ok a, s') → EndsOnFailure store Q (k a) s') :
    EndsOnFailure store Q (p >>= k) s :=
  endsOnFailure_iff.mpr ((endsOnFailure_iff.mp hp).bind (fun _ e result _ => hbroken e result)
    fun a s' hrun => endsOnFailure_iff.mp (hk a s' hrun))

/-- **A call that fails is the last one of a run**, and tells what the run ends with. -/
theorem run_failing_ends {method : Call.Method} {p : Program α}
    (hp : p.Calls (·.method = method)) {s : σ} (h : EndsOnFailure store P p s) (outage : Outage)
    (calls : List Call) :
    ∃ result made s', p.run (store.failing outage) (calls, s) = (result, made, s') ∧
      callCount method calls ≤ callCount method made ∧
      ∀ n e, callCount method calls < n → n ≤ callCount method made → outage method n = some e →
        P e result := by
  induction p generalizing calls s with
  | done result => exact ⟨result, calls, s, rfl, le_rfl, fun n e hlt hle => by omega⟩
  | call c next ih =>
      obtain ⟨hc, hnext⟩ := hp
      subst hc
      have hcount := callCount_cons_self c calls
      cases houtage : outage c.method (callCount c.method calls + 1) with
      | none =>
          obtain ⟨result, made, s', hrun, hle, hfails⟩ := ih _ (hnext _) h.2 (c :: calls)
          refine ⟨result, made, s', ?_, by omega, fun n e hlt hn he => ?_⟩
          · rw [run, Store.failing_spared houtage]
            exact hrun
          · by_cases hfirst : n = callCount c.method calls + 1
            · rw [hfirst, houtage] at he
              cases he
            · exact hfails n e (by omega) hn he
      | some e =>
          obtain ⟨result, hdone, hP⟩ := h.1 e
          refine ⟨result, c :: calls, s, ?_, by omega, fun n other hlt hn he => ?_⟩
          · rw [run, Store.failing_hit houtage, hdone]
            rfl
          · obtain rfl : n = callCount c.method calls + 1 := by omega
            rw [houtage] at he
            exact Option.some_inj.mp he ▸ hP

/-- Queries leave a table as it is. -/
lemma run_queries {layout : Layout} {p : Program α} (hp : p.Calls (·.method = .query))
    {table table' : Table} {result : Except Error α}
    (hrun : p.run layout.store table = (result, table')) : table' = table := by
  have hstill := run_invariant layout.store (· = table) hp (fun c s hc hs => ?_) rfl
  · rwa [hrun] at hstill
  · cases c with
    | query request => exact hs
    | _ => cases hc

/-- Queries leave a table as it is, whichever of them fail. -/
lemma run_failing_queries (layout : Layout) {p : Program α} (hp : p.Calls (·.method = .query))
    (outage : Outage) (calls : List Call) (table : Table) :
    (p.run (layout.store.failing outage) (calls, table)).2.2 = table := by
  refine run_invariant _ (fun s : List Call × Table => s.2 = table) hp (fun c s hc hs => ?_) rfl
  cases c with
  | query request =>
      rw [Store.failing]
      cases outage (Call.query request).method
        (callCount (Call.query request).method s.1 + 1) <;> exact hs
  | _ => cases hc

end Program

namespace Scan

variable {scan : Scan} {visit : β → Item → Except Error (Visit β)}

/-- How a fold ends if a page fails: with the failure, and with what it found in the items before,
which did not make it end. -/
def BrokenOff (scan : Scan) (visit : β → Item → Except Error (Visit β)) (seen : ℕ) (acc : β)
    (items : List Item) (e : Error) (result : Except Error (β × Option Error)) : Prop :=
  ∃ front seen' acc', front <+: items ∧ scan.visitPage visit seen acc front = .more seen' acc' ∧
    result = .ok (acc', some e)

/-- **In a table a fold ends with what it found on the pages before the one that fails**, whatever
the limit of its pages is. -/
theorem endsOn_fold {layout : Layout} {table : Table} {test : String → Bool}
    (hmirrors : Mirrors layout table)
    (hindex : ∀ subject, scan.request.index = some subject → subject ∈ layout.indexed)
    (hread : ∀ test, ∀ row ∈ table.matching scan.request test, row.readItem = .ok row.item)
    (hpages : table.pageBound ≤ scan.maxPages) (hitems : scan.request.selectCount = false)
    (hbounds : scan.request.bounds = .ok test) (acc : β) :
    Program.EndsOnFailure layout.store
      (scan.BrokenOff visit 0 acc ((table.matching scan.request test).map Row.item))
      (scan.fold visit acc) table := by
  refine Program.endsOnFailure_iff.mpr
    ((breaksOff_fold hmirrors hindex hread hpages hbounds hitems acc).imp ?_)
  rintro asked e result ⟨hfront, seen, found, hmore, rfl⟩
  exact ⟨_, seen, found, hfront.trans (prefix_of_paged _ _), hmore, rfl⟩

end Scan

end RankedTable

import Mathlib.Data.Int.Notation
import Mathlib.Data.Nat.Notation
import Mathlib.Tactic.Lemma
import Mathlib.Tactic.SplitIfs
import RankedTable.Store.Batch
import RankedTable.Store.Interrupted
import RankedTable.Store.Scan

/-!
# What the calls of a program tell about its runs

What holds of every call that a program can make is shown once for each way of building programs.
A property of the store's state that such calls keep is then kept by every run.

* `Program.Calls` — all calls that a program can make have a property.
* `calls_bind`, `calls_countWrites`, `calls_foldPages`, … — one lemma for each way of building.
* `run_map_result`, `run_attempt` — runs of programs whose result is changed, or taken as a value.
* **`run_invariant`** — an invariant of the calls is one of the runs.
* **`run_project`** — a store that only keeps more than another gives the same results.
* `interrupted_none` — a store without planned failures is such a one.
-/

namespace RankedTable

namespace Program

variable {α β σ τ : Type} {P : Call → Prop}

/-- All calls that a program can make, whatever it is answered, have a property. -/
def Calls (P : Call → Prop) : Program α → Prop
  | done _ => True
  | call c next => P c ∧ ∀ reply, Calls P (next reply)

/-- What is known of the calls of a program may be weakened. -/
lemma Calls.imp {Q : Call → Prop} {p : Program α} (hp : Calls P p) (h : ∀ c, P c → Q c) :
    Calls Q p := by
  induction p with
  | done result => trivial
  | call c next ih => exact ⟨h c hp.1, fun reply => ih reply (hp.2 reply)⟩

lemma calls_any (p : Program α) : Calls (fun _ => True) p := by
  induction p with
  | done result => trivial
  | call c next ih => exact ⟨trivial, ih⟩

/-! ## Programs built from others -/

lemma calls_lift (result : Except Error α) : Calls P (lift result) := trivial

lemma calls_pure (a : α) : Calls P (pure a : Program α) := trivial

lemma calls_throw (e : Error) : Calls P (throw e : Program α) := trivial

lemma calls_perform {c : Call} (h : P c) : Calls P (perform c) :=
  ⟨h, fun _ => trivial⟩

lemma calls_bind {p : Program α} {k : α → Program β} (hp : Calls P p)
    (hk : ∀ a, Calls P (k a)) : Calls P (p >>= k) := by
  change Calls P (bind p k)
  induction p with
  | done result =>
      cases result with
      | ok a => exact hk a
      | error e => trivial
  | call c next ih => exact ⟨hp.1, fun reply => ih reply (hp.2 reply)⟩

lemma calls_lift_bind {result : Except Error α} {k : α → Program β}
    (hk : ∀ a, result = .ok a → Calls P (k a)) : Calls P (lift result >>= k) := by
  cases result with
  | ok a => exact hk a rfl
  | error e => trivial

lemma calls_map {p : Program α} (f : α → β) (hp : Calls P p) : Calls P (f <$> p) :=
  calls_bind hp fun _ => trivial

lemma calls_tryCatch {p : Program α} {handler : Error → Program α} (hp : Calls P p)
    (hh : ∀ e, Calls P (handler e)) : Calls P (p.tryCatch handler) := by
  induction p with
  | done result =>
      cases result with
      | ok a => trivial
      | error e => exact hh e
  | call c next ih => exact ⟨hp.1, fun reply => ih reply (hp.2 reply)⟩

lemma calls_withSoFar {p : Program α} (gathered : Gathered) (hp : Calls P p) :
    Calls P (p.withSoFar gathered) :=
  calls_tryCatch hp fun _ => trivial

lemma calls_attempt {p : Program α} (hp : Calls P p) : Calls P p.attempt :=
  calls_tryCatch (calls_bind hp fun _ => trivial) fun _ => trivial

lemma calls_countWrites {allowMisses : Bool} {writes : List (Program Unit)}
    (h : ∀ write ∈ writes, Calls P write) (count : ℤ) :
    Calls P (countWrites allowMisses count writes) := by
  induction writes generalizing count with
  | nil => trivial
  | cons write rest ih =>
      have hrest := fun n => ih (fun w hw => h w (List.mem_cons_of_mem _ hw)) n
      refine calls_bind (calls_attempt (h write (List.mem_cons_self ..))) fun result => ?_
      cases result with
      | ok _ => exact hrest _
      | error e =>
          dsimp only
          split_ifs
          · exact hrest _
          · trivial

/-! ## Scans -/

lemma calls_foldPages (scan : Scan) (visit : β → Item → Except Error (Scan.Visit β))
    (hquery : ∀ request, P (.query request)) (pages : ℕ) (token : Option Token) (seen : ℕ)
    (acc : β) : Calls P (scan.foldPages visit pages token seen acc) := by
  induction pages generalizing token seen acc with
  | zero => trivial
  | succ pages ih =>
      refine ⟨hquery _, fun reply => ?_⟩
      cases reply with
      | error e => trivial
      | ok page =>
          dsimp only
          split
          · trivial
          · trivial
          · split
            · trivial
            · exact ih _ _ _

lemma calls_countPages (scan : Scan) (hquery : ∀ request, P (.query request)) (pages : ℕ)
    (token : Option Token) (total : ℤ) : Calls P (scan.countPages pages token total) := by
  induction pages generalizing token total with
  | zero => trivial
  | succ pages ih =>
      refine ⟨hquery _, fun reply => ?_⟩
      cases reply with
      | error e => trivial
      | ok page =>
          dsimp only
          split
          · trivial
          · exact ih _ _

lemma calls_collect (scan : Scan) (decode : Item → Except Error (String × α))
    (gathered : Assoc α → Gathered) (hquery : ∀ request, P (.query request)) :
    Calls P (scan.collect decode gathered) := by
  refine calls_bind (calls_foldPages scan _ hquery _ _ _ _) fun found => ?_
  rcases found with ⟨acc, _ | e⟩ <;> trivial

/-! ## Runs -/

/-- A sequence that returns has gone through both of its parts. -/
lemma run_bind_ok {store : Store σ} {p : Program α} {k : α → Program β} {b : β} {s s' : σ}
    (h : (p >>= k).run store s = (.ok b, s')) :
    ∃ a s'', p.run store s = (.ok a, s'') ∧ (k a).run store s'' = (.ok b, s') := by
  rw [run_bind] at h
  rcases hrun : p.run store s with ⟨e | a, s''⟩
  · rw [hrun] at h
    cases (Prod.mk.inj h).1
  · rw [hrun] at h
    exact ⟨a, s'', rfl, h⟩

/-- What a run ends with is changed as the program's result is. -/
lemma run_map_result {store : Store σ} {p : Program α} {result : Except Error α} {s s' : σ}
    (f : α → β) (h : p.run store s = (result, s')) :
    (f <$> p).run store s = (result.map f, s') := by
  rw [← bind_pure_comp, run_bind, h]
  cases result <;> rfl

lemma run_map {store : Store σ} {p : Program α} {a : α} {s s' : σ} (f : α → β)
    (h : p.run store s = (.ok a, s')) : (f <$> p).run store s = (.ok (f a), s') :=
  run_map_result f h

/-- The outcome of a run as a value. -/
lemma run_attempt (store : Store σ) (p : Program α) (s : σ) :
    p.attempt.run store s = (.ok (p.run store s).1, (p.run store s).2) := by
  rw [attempt, run_tryCatch, run_bind]
  rcases p.run store s with ⟨_ | _, s'⟩ <;> rfl

/-- **What every call of a program keeps, its runs keep.** -/
theorem run_invariant (store : Store σ) (Inv : σ → Prop) {p : Program α} (hp : Calls P p)
    (hstep : ∀ (c : Call) (s : σ), P c → Inv s → Inv (store c s).2) {s : σ} (hs : Inv s) :
    Inv (p.run store s).2 := by
  induction p generalizing s with
  | done result => exact hs
  | call c next ih => exact ih _ (hp.2 _) (hstep c s hp.1 hs)

/-- **A store that answers like another, and keeps more, runs programs alike.** -/
theorem run_project {store : Store σ} {other : Store τ} (project : σ → τ)
    (hreply : ∀ c s, (store c s).1 = (other c (project s)).1)
    (hstate : ∀ c s, project (store c s).2 = (other c (project s)).2) (p : Program α) (s : σ) :
    (p.run store s).1 = (p.run other (project s)).1 ∧
      project (p.run store s).2 = (p.run other (project s)).2 := by
  induction p generalizing s with
  | done result => exact ⟨rfl, rfl⟩
  | call c next ih =>
      rw [run, run, hreply c s, ← hstate c s]
      exact ih _ _

/-- A store without planned failures runs programs like the store itself. -/
theorem run_interrupted_none (store : Store σ) (p : Program α) (calls : List Call) (s : σ) :
    (p.run (store.interrupted FaultPlan.none) (calls, s)).1 = (p.run store s).1 ∧
      (p.run (store.interrupted FaultPlan.none) (calls, s)).2.2 = (p.run store s).2 :=
  run_project Prod.snd
    (fun _ _ => rfl) (fun _ _ => rfl) p (calls, s)

lemma run_call {store : Store σ} {c : Call} {reply : Except Error c.Reply} {s s' : σ}
    (h : store c s = (reply, s')) {next : Except Error c.Reply → Program α}
    {out : Except Error α × σ} (hrest : (next reply).run store s' = out) :
    (call c next).run store s = out := by
  rw [run, h, hrest]

/-- A store without planned failures answers a call, and keeps it. -/
lemma run_call_kept {store : Store σ} {c : Call} {reply : Except Error c.Reply} {s s' : σ}
    (h : store c s = (reply, s')) (next : Except Error c.Reply → Program α) (calls : List Call) :
    (call c next).run (store.interrupted FaultPlan.none) (calls, s) =
      (next reply).run (store.interrupted FaultPlan.none) (c :: calls, s') := by
  change run _ (next (store c s).1) (c :: calls, (store c s).2) = _
  rw [h]

end Program

end RankedTable

import RankedTable.Proofs.Store.Calls

/-!
# Two runs side by side

Two programs on two stores end alike if they give the same result and leave states that stand in a
relation.  Steps that end alike may be put one behind the other, so a comparison of two runs follows
the way in which the programs are built.

* `Program.Alike` — two runs end alike.
* `Alike.bind`, `Alike.map`, `Alike.attempt` — for each way of building.
* **`alike_of_calls`** — a relation that every call keeps, with the same reply, is kept by runs.
* `Still`, `Alike.still_bind` — runs that leave both states as they were; `alike_bind_of_run` — also
  if they return different things.
-/

namespace RankedTable

namespace Program

variable {α β σ τ : Type} {store : Store σ} {other : Store τ} {R S : σ → τ → Prop}

/-- Two programs end with the same result, in states that stand in a relation. -/
def Alike (store : Store σ) (other : Store τ) (R : σ → τ → Prop) (p q : Program α) (s : σ)
    (t : τ) : Prop :=
  (p.run store s).1 = (q.run other t).1 ∧ R (p.run store s).2 (q.run other t).2

/-- States that are still those of the beginning. -/
def Still (s : σ) (t : τ) (s' : σ) (t' : τ) : Prop :=
  s' = s ∧ t' = t

section Rules

variable {p q : Program α} {s : σ} {t : τ}

lemma alike_of_run {result : Except Error α} {s' : σ} {t' : τ}
    (hp : p.run store s = (result, s')) (hq : q.run other t = (result, t')) (h : R s' t') :
    Alike store other R p q s t := by
  rw [Alike, hp, hq]
  exact ⟨rfl, h⟩

/-- Runs that end in one state of one store have a common end. -/
lemma Alike.exists_run {other : Store σ} {s t : σ} (h : Alike store other Eq p q s t) :
    ∃ result after, p.run store s = (result, after) ∧ q.run other t = (result, after) :=
  ⟨_, _, rfl, Prod.ext h.1.symm h.2.symm⟩

/-- A result that needs no call is the same on any store. -/
lemma alike_done (result : Except Error α) (h : R s t) :
    Alike store other R (done result) (done result) s t :=
  ⟨rfl, h⟩

lemma Alike.imp (h : Alike store other R p q s t) (hRS : ∀ s' t', R s' t' → S s' t') :
    Alike store other S p q s t :=
  ⟨h.1, hRS _ _ h.2⟩

/-- **Runs that end alike may go on alike**; those that fail have to stand as asked in the end. -/
theorem Alike.bind {k l : α → Program β} (h : Alike store other R p q s t)
    (hfail : ∀ s' t', R s' t' → S s' t')
    (hnext : ∀ a s' t', R s' t' → Alike store other S (k a) (l a) s' t') :
    Alike store other S (p >>= k) (q >>= l) s t := by
  rw [Alike] at h
  rw [Alike, run_bind, run_bind]
  generalize p.run store s = left, q.run other t = right at h ⊢
  obtain ⟨result, s'⟩ := left
  obtain ⟨result', t'⟩ := right
  obtain ⟨rfl, hstate⟩ : result = result' ∧ R s' t' := h
  cases result with
  | ok a => exact hnext a s' t' hstate
  | error e => exact ⟨rfl, hfail s' t' hstate⟩

/-- Runs that leave the states alone may go on from there, with what they returned. -/
theorem Alike.still_bind_of_run {k l : α → Program β} (h : Alike store other (Still s t) p q s t)
    (hstart : S s t)
    (hnext : ∀ a, p.run store s = (.ok a, s) → Alike store other S (k a) (l a) s t) :
    Alike store other S (p >>= k) (q >>= l) s t := by
  obtain ⟨hresult, hone, hother⟩ := h
  rw [Alike, run_bind, run_bind]
  generalize hp : p.run store s = left, q.run other t = right at hresult hone hother ⊢
  obtain ⟨result, s'⟩ := left
  obtain ⟨result', t'⟩ := right
  obtain rfl : result = result' := hresult
  obtain rfl : s' = s := hone
  obtain rfl : t' = t := hother
  cases result with
  | ok a => exact hnext a hp
  | error e => exact ⟨rfl, hstart⟩

/-- Runs that leave the states alone may go on from there. -/
theorem Alike.still_bind {k l : α → Program β} (h : Alike store other (Still s t) p q s t)
    (hstart : S s t) (hnext : ∀ a, Alike store other S (k a) (l a) s t) :
    Alike store other S (p >>= k) (q >>= l) s t :=
  h.still_bind_of_run hstart fun a _ => hnext a

/-- Runs that return different things may go on alike all the same. -/
lemma alike_bind_of_run {γ δ : Type} {p : Program γ} {q : Program δ} {k : γ → Program α}
    {l : δ → Program α} {c : γ} {d : δ} (hp : p.run store s = (.ok c, s))
    (hq : q.run other t = (.ok d, t)) (h : Alike store other S (k c) (l d) s t) :
    Alike store other S (p >>= k) (q >>= l) s t := by
  rw [Alike, run_bind, run_bind, hp, hq]
  exact h

lemma Alike.still (h : Alike store other (Still s t) p q s t) (hstart : S s t) :
    Alike store other S p q s t :=
  h.imp fun s' t' hst => by rwa [hst.1, hst.2]

lemma Alike.map (f : α → β) (h : Alike store other R p q s t) :
    Alike store other R (f <$> p) (f <$> q) s t := by
  rw [← bind_pure_comp, ← bind_pure_comp]
  exact h.bind (fun _ _ => id) fun a _ _ hst => alike_done _ hst

lemma Alike.attempt (h : Alike store other R p q s t) :
    Alike store other R p.attempt q.attempt s t := by
  rw [Alike, run_attempt, run_attempt]
  exact ⟨congrArg Except.ok h.1, h.2⟩

end Rules

/-- **What each call keeps, with the same reply from both stores, runs keep with the same
result.** -/
theorem alike_of_calls {P : Call → Prop} {p : Program α} (hp : Calls P p)
    (hstep : ∀ (c : Call) (s : σ) (t : τ), P c → R s t →
      (store c s).1 = (other c t).1 ∧ R (store c s).2 (other c t).2)
    {s : σ} {t : τ} (h : R s t) : Alike store other R p p s t := by
  induction p generalizing s t with
  | done result => exact ⟨rfl, h⟩
  | call c next ih =>
      obtain ⟨hreply, hstate⟩ := hstep c s t hp.1 h
      rw [Alike, run, run, hreply]
      exact ih _ (hp.2 _) hstate

end Program

end RankedTable

import RankedTable.Proofs.Assoc
import RankedTable.Proofs.Store.Interleaving

/-!
# What programs return, whatever comes between their calls

In a shared run the answers to a program's calls come from whatever state the store has got into by
then.  So what a program returns is shown for all answers that a store may give, with a count of
the writes that the answers report.

* `Call.written` — how many writes an answer reports: one or none.
* `Program.Returns` — a program returns something, and what it is told by the writes it has made.
* `returns_bind`, `returns_foldPages`, … — one lemma for each way of building programs.
* **`returns_countWrites`** — a batch returns how many of its writes took effect.
* **`Made.returned`** — what is shown for all answers holds of each program in a shared run.
-/

namespace RankedTable

/-- How many writes the answer to a call reports. -/
def Call.written (c : Call) (reply : Except Error c.Reply) : ℕ :=
  if reply.isOk ∧ c.target?.isSome then 1 else 0

lemma Call.written_query (request : QueryRequest) (reply : Except Error QueryPage) :
    Call.written (.query request) reply = 0 :=
  if_neg fun h => Bool.false_ne_true h.2

namespace Program

variable {α β : Type} {Fine : (c : Call) → Except Error c.Reply → Prop} {Q : ℕ → α → Prop}
  {R : ℕ → β → Prop} {budget written : ℕ}

/-- If all answers are fine, a program that ends within some calls has returned something, and has
not failed.  What it returned goes with the number of writes, to which those before are added. -/
def Returns (Fine : (c : Call) → Except Error c.Reply → Prop) (Q : ℕ → α → Prop) :
    ℕ → ℕ → Program α → Prop
  | _, written, done result => ∃ a, result = .ok a ∧ Q written a
  | 0, _, call _ _ => True
  | budget + 1, written, call c next =>
    ∀ reply, Fine c reply → Returns Fine Q budget (written + c.written reply) (next reply)

/-! ## Programs built from others -/

lemma returns_pure {a : α} (h : Q written a) : Returns Fine Q budget written (pure a) := by
  cases budget <;> exact ⟨a, rfl, h⟩

/-- What is shown of programs with more calls holds of those with less. -/
lemma Returns.mono {p : Program α} {fewer : ℕ} (h : Returns Fine Q budget written p)
    (hle : fewer ≤ budget) : Returns Fine Q fewer written p := by
  induction p generalizing budget fewer written with
  | done result =>
      cases budget <;> cases fewer <;> exact h
  | call c next ih =>
      cases fewer with
      | zero => trivial
      | succ fewer =>
          cases budget with
          | zero => exact absurd hle (Nat.not_succ_le_zero _)
          | succ budget =>
              intro reply hfine
              exact ih reply (h reply hfine) (Nat.le_of_succ_le_succ hle)

lemma returns_bind {p : Program α} {k : α → Program β} (hp : Returns Fine Q budget written p)
    (hk : ∀ w a, Q w a → Returns Fine R budget w (k a)) :
    Returns Fine R budget written (p >>= k) := by
  change Returns Fine R budget written (bind p k)
  induction p generalizing budget written with
  | done result =>
      obtain ⟨a, rfl, ha⟩ : ∃ a, result = .ok a ∧ Q written a := by
        cases budget <;> exact hp
      exact hk written a ha
  | call c next ih =>
      cases budget with
      | zero => trivial
      | succ budget =>
          intro reply hfine
          exact ih reply (hp reply hfine) fun w a ha => (hk w a ha).mono (Nat.le_succ _)

lemma returns_lift_bind {result : Except Error α} {a : α} (hresult : result = .ok a)
    {k : α → Program β} (hk : Returns Fine R budget written (k a)) :
    Returns Fine R budget written (lift result >>= k) := by
  rw [hresult]
  exact hk

/-- A program that does not fail is not changed by how failures are handled. -/
lemma returns_withSoFar {p : Program α} (hp : Returns Fine Q budget written p)
    (gathered : Gathered) : Returns Fine Q budget written (p.withSoFar gathered) := by
  change Returns Fine Q budget written (p.tryCatch _)
  induction p generalizing budget written with
  | done result =>
      obtain ⟨a, rfl, ha⟩ : ∃ a, result = .ok a ∧ Q written a := by
        cases budget <;> exact hp
      exact returns_pure ha
  | call c next ih =>
      cases budget with
      | zero => trivial
      | succ budget =>
          intro reply hfine
          exact ih reply (hp reply hfine)

/-! ## Batches -/

/-- The programs that make one write. -/
inductive SingleWrite : Program Unit → Prop
  | update (key : ItemKey) (updates : Attributes) (conditions : List Condition) :
      SingleWrite (perform (.update key updates conditions))
  | delete (key : ItemKey) (conditions : List Condition) :
      SingleWrite (perform (.delete key conditions))

/-- A write takes effect or misses its condition, if it does not fail otherwise. -/
lemma returns_attempt (hmiss : ∀ c e, Fine c (.error e) → e.isMiss = true) {write : Program Unit}
    (h : SingleWrite write) :
    Returns Fine (fun w outcome => outcome = .ok () ∧ w = written + 1 ∨
      ∃ e, outcome = .error e ∧ e.isMiss = true ∧ w = written) budget written write.attempt := by
  cases budget with
  | zero => cases h <;> trivial
  | succ budget =>
      cases h
      all_goals
        intro reply hfine
        cases reply with
        | ok _ => exact returns_pure (.inl ⟨rfl, rfl⟩)
        | error e => exact returns_pure (.inr ⟨e, rfl, hmiss _ e hfine, rfl⟩)

/-- **A batch returns how many of its writes took effect**, if no write fails but for its
condition. -/
theorem returns_countWrites (hmiss : ∀ c e, Fine c (.error e) → e.isMiss = true)
    {writes : List (Program Unit)} (hwrites : ∀ write ∈ writes, SingleWrite write) :
    Returns Fine (fun w count => count = (w : ℤ)) budget written
      (countWrites true written writes) := by
  induction writes generalizing written with
  | nil => exact returns_pure rfl
  | cons write rest ih =>
      have hrest := fun written => @ih written fun w hw => hwrites w (List.mem_cons_of_mem _ hw)
      refine returns_bind (returns_attempt hmiss (hwrites write (List.mem_cons_self ..))) ?_
      rintro w outcome (⟨rfl, rfl⟩ | ⟨e, rfl, hmissed, rfl⟩)
      · exact_mod_cast hrest (written + 1)
      · dsimp only
        rw [hmissed]
        exact hrest w

/-! ## Scans -/

section Scans

variable {scan : Scan} {Good : Item → Prop} {Kept : β → Prop}
  {visit : β → Item → Except Error (Scan.Visit β)}

/-- A visitor that accepts all items of a page gets to its end, or has seen enough. -/
lemma visitPage_kept (scan : Scan)
    (hvisit : ∀ acc item, Kept acc → Good item →
      ∃ acc', visit acc item = .ok (.more acc') ∧ Kept acc')
    {items : List Item} (hitems : ∀ item ∈ items, Good item) (seen : ℕ) {acc : β}
    (hacc : Kept acc) :
    ∃ acc', Kept acc' ∧ (scan.visitPage visit seen acc items = .finished acc' ∨
      ∃ seen', scan.visitPage visit seen acc items = .more seen' acc') := by
  induction items generalizing seen acc with
  | nil => exact ⟨acc, hacc, .inr ⟨seen, rfl⟩⟩
  | cons item rest ih =>
      have hrest := fun i hi => hitems i (List.mem_cons_of_mem item hi)
      rw [Scan.visitPage]
      by_cases hskip : seen < scan.skip
      · rw [if_pos hskip]
        exact ih hrest _ hacc
      · obtain ⟨acc', hmore, hkept⟩ := hvisit acc item hacc (hitems item (List.mem_cons_self ..))
        rw [if_neg hskip, hmore]
        dsimp only
        split_ifs
        · exact ⟨acc', hkept, .inl rfl⟩
        · exact ih hrest _ hkept

variable (hquery : ∀ request reply, request.partition = scan.request.partition →
  Fine (.query request) reply → ∃ page, reply = .ok page ∧ ∀ item ∈ page.items, Good item)

include hquery

/-- **A scan of acceptable items goes through**, if it may read more pages than calls are made. -/
theorem returns_foldPages
    (hvisit : ∀ acc item, Kept acc → Good item →
      ∃ acc', visit acc item = .ok (.more acc') ∧ Kept acc')
    {pages : ℕ} (hpages : budget < pages) (token : Option Token) (seen : ℕ) {acc : β}
    (hacc : Kept acc) :
    Returns Fine (fun w found => w = written ∧ ∃ acc', found = (acc', none) ∧ Kept acc') budget
      written (scan.foldPages visit pages token seen acc) := by
  induction pages generalizing budget token seen acc with
  | zero => exact absurd hpages (Nat.not_lt_zero _)
  | succ pages ih =>
      cases budget with
      | zero => trivial
      | succ budget =>
          intro reply hfine
          obtain ⟨page, rfl, hitems⟩ := hquery (scan.pageRequest seen token) reply rfl hfine
          obtain ⟨acc', hkept, hpage | ⟨seen', hpage⟩⟩ :=
            visitPage_kept scan hvisit hitems seen hacc
          all_goals
            rw [Call.written_query]
            dsimp only
            rw [hpage]
            dsimp only
          · exact returns_pure ⟨rfl, acc', rfl, hkept⟩
          · cases page.lastKey with
            | none => exact returns_pure ⟨rfl, acc', rfl, hkept⟩
            | some next => exact ih (Nat.lt_of_succ_lt_succ hpages) (some next) seen' hkept

/-- A scan that decodes every item collects what it was asked for. -/
lemma returns_collect {decode : Item → Except Error (String × α)} {Kept : String × α → Prop}
    (hdecode : ∀ item, Good item → ∃ e, decode item = .ok e ∧ Kept e)
    (gathered : Assoc α → Gathered) (hpages : budget < scan.maxPages) :
    Returns Fine (fun w found => w = written ∧ ∀ e ∈ found, Kept e) budget written
      (scan.collect decode gathered) := by
  have hvisit : ∀ (m : Assoc α) item, (∀ e ∈ m, Kept e) → Good item → ∃ m',
      (decode item).map (fun e => Scan.Visit.more (Assoc.insert m e.1 e.2)) = .ok (.more m') ∧
        ∀ e ∈ m', Kept e := by
    intro m item hm hgood
    obtain ⟨e, he, hkept⟩ := hdecode item hgood
    refine ⟨Assoc.insert m e.1 e.2, by rw [he]; rfl, fun other hother => ?_⟩
    rcases Assoc.mem_insert hother with h | h
    · exact hm other h
    · exact h ▸ hkept
  refine returns_bind (returns_foldPages hquery hvisit hpages none 0
    fun _ he => absurd he List.not_mem_nil) ?_
  rintro w found ⟨rfl, m, rfl, hm⟩
  exact returns_pure ⟨rfl, hm⟩

lemma returns_countPages {pages : ℕ} (hpages : budget < pages) (token : Option Token)
    (total : ℤ) :
    Returns Fine (fun w _ => w = written) budget written (scan.countPages pages token total) := by
  induction pages generalizing budget token total with
  | zero => exact absurd hpages (Nat.not_lt_zero _)
  | succ pages ih =>
      cases budget with
      | zero => trivial
      | succ budget =>
          intro reply hfine
          obtain ⟨page, rfl, -⟩ := hquery _ reply rfl hfine
          rw [Call.written_query]
          dsimp only
          cases page.lastKey with
          | none => exact returns_pure rfl
          | some next => exact ih (Nat.lt_of_succ_lt_succ hpages) (some next) _

end Scans

end Program

/-! ## Shared runs -/

variable {ι α σ : Type} {store : Store σ}

lemma length_writesOf_cons (e : Event ι σ) (events : List (Event ι σ)) :
    (writesOf store (e :: events)).length =
      e.call.written (e.reply store) + (writesOf store events).length := by
  rw [writesOf, List.filter_cons, Event.changed, Call.written]
  by_cases hok : (e.reply store).isOk
  · by_cases htarget : e.call.target?.isSome
    · simp [hok, htarget, writesOf, Nat.add_comm]
    · simp [hok, htarget, writesOf]
  · simp [hok, writesOf]

/-- **What is shown for all answers holds of each program in a shared run**, whatever comes between
its calls. -/
theorem Made.returned {Fine : (c : Call) → Except Error c.Reply → Prop} {Q : ℕ → α → Prop}
    {p : Program α} {events : List (Event ι σ)} {result : Except Error α} {budget written : ℕ}
    (h : Made store p events (.done result)) (hp : p.Returns Fine Q budget written)
    (hfine : ∀ e ∈ events, Fine e.call (e.reply store)) (hbudget : events.length ≤ budget) :
    ∃ a, result = .ok a ∧ Q (written + (writesOf store events).length) a := by
  generalize hleft : Program.done result = left at h
  induction h generalizing budget written with
  | nil p =>
      subst hleft
      cases budget <;> exact hp
  | @cons i c s next events q hrest ih =>
      cases budget with
      | zero => exact absurd hbudget (Nat.not_succ_le_zero _)
      | succ budget =>
          rw [length_writesOf_cons, ← Nat.add_assoc]
          exact ih (hp _ (hfine _ (List.mem_cons_self ..)))
            (fun e he => hfine e (List.mem_cons_of_mem _ he)) (Nat.le_of_succ_le_succ hbudget) hleft

end RankedTable

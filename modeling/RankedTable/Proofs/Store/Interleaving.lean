import Mathlib.Logic.Function.Basic
import RankedTable.Proofs.Store.Calls

/-!
# Programs that share a store

Several programs run on one store at a time.  The store answers one call after the other, and
between two calls of a program those of others may come, in any number and order.

* `Event` — a call, with the program that made it and the state that it found.
* `Event.isAnswered`, `Program.isDone` — calls that do not fail, and programs that have ended.
* `Event.changed`, `callsOf`, `writesOf`, `writers` — what calls changed, and which programs did;
  `mem_writers`, `count_writers_le` — the writers of an item by their own calls.
* `Interleaved` — the runs of programs that share a store.
* `Program.interleave`, `interleaved_interleave` — the run in which turns are taken in some order.
* `Made` — what one program does, whatever happens to the store between its calls.
* **`Interleaved.made`** — in a shared run each program does what it can do by itself;
  `Interleaved.calls` — it makes no other calls.
* `Made.of_map`, `Program.map_eq_ok` — programs whose results are changed.
* `Chained`, `Interleaved.chained` — each call finds the state that the one before left;
  `Chained.segment` — so do the calls of a part of a run.
* **`Interleaved.invariant`** — what all calls keep, holds wherever a call is made.
-/

namespace RankedTable

variable {ι α β σ : Type}

/-- The item that a call may change. -/
def Call.target? : Call → Option ItemKey
  | .update key .. => some key
  | .delete key .. => some key
  | _ => none

/-- A call in a shared run. -/
structure Event (ι σ : Type) where
  /-- Which program made the call. -/
  process : ι
  call : Call
  /-- The state that the call found. -/
  before : σ

namespace Event

/-- What the call was answered. -/
def reply (store : Store σ) (e : Event ι σ) : Except Error e.call.Reply :=
  (store e.call e.before).1

/-- The state that the call left. -/
def after (store : Store σ) (e : Event ι σ) : σ :=
  (store e.call e.before).2

/-- The item that the call changed: that of a write which succeeded. -/
def changed (store : Store σ) (e : Event ι σ) : Option ItemKey :=
  if (e.reply store).isOk then e.call.target? else none

/-- Whether a call did not fail, unless for missing its condition. -/
def isAnswered (store : Store σ) (e : Event ι σ) : Bool :=
  match e.reply store with
  | .ok _ => true
  | .error error => error.isMiss

lemma isMiss_of_isAnswered {store : Store σ} {e : Event ι σ} (h : e.isAnswered store = true)
    {error : Error} (hreply : e.reply store = .error error) : error.isMiss = true := by
  rw [isAnswered, hreply] at h
  exact h

end Event

/-- Whether a program has ended. -/
def Program.isDone : Program α → Bool
  | .done _ => true
  | .call .. => false

lemma Program.eq_done_of_isDone {p : Program α} (h : p.isDone = true) :
    ∃ result, p = .done result := by
  cases p with
  | done result => exact ⟨result, rfl⟩
  | call c next => cases h

/-- The calls that one program made. -/
def callsOf [DecidableEq ι] (i : ι) (events : List (Event ι σ)) : List (Event ι σ) :=
  events.filter (·.process = i)

/-- The calls that changed something. -/
def writesOf (store : Store σ) (events : List (Event ι σ)) : List (Event ι σ) :=
  events.filter fun e => (e.changed store).isSome

/-- The programs that changed an item, in the order in which they did. -/
def writers (store : Store σ) (key : ItemKey) (events : List (Event ι σ)) : List ι :=
  (events.filter fun e => e.changed store = some key).map (·.process)

section Writers

variable {store : Store σ} {key : ItemKey} {events : List (Event ι σ)}

lemma writers_cons_of_eq {e : Event ι σ} (h : e.changed store = some key) :
    writers store key (e :: events) = e.process :: writers store key events := by
  rw [writers, List.filter_cons_of_pos (by simpa using h), List.map_cons, writers]

lemma writers_cons_of_ne {e : Event ι σ} (h : e.changed store ≠ some key) :
    writers store key (e :: events) = writers store key events := by
  rw [writers, List.filter_cons_of_neg (by simpa using h), writers]

variable [DecidableEq ι] {i : ι}

lemma mem_writers : i ∈ writers store key events ↔
    ∃ e ∈ writesOf store (callsOf i events), e.changed store = some key := by
  simp only [writers, writesOf, callsOf, List.mem_map, List.mem_filter, decide_eq_true_eq]
  constructor
  · rintro ⟨e, ⟨he, hchanged⟩, hi⟩
    exact ⟨e, ⟨⟨he, hi⟩, by rw [hchanged]; rfl⟩, hchanged⟩
  · rintro ⟨e, ⟨⟨he, hi⟩, -⟩, hchanged⟩
    exact ⟨e, ⟨he, hchanged⟩, hi⟩

/-- A program is no more often among the writers of an item than it changed something. -/
lemma count_writers_le :
    (writers store key events).count i ≤ (writesOf store (callsOf i events)).length := by
  rw [writers, writesOf, callsOf, List.count, List.countP_map, ← List.countP_eq_length_filter,
    List.countP_filter, List.countP_filter]
  refine List.countP_mono_left fun e _ he => ?_
  simp only [Function.comp_apply, Bool.and_eq_true, beq_iff_eq, decide_eq_true_eq] at he ⊢
  exact ⟨by rw [he.2]; rfl, he.1⟩

end Writers

/-! ## Shared runs -/

/-- The runs of programs that share a store: from programs and a state, through some calls, to what
is left of the programs and the state reached. -/
inductive Interleaved [DecidableEq ι] (store : Store σ) :
    (ι → Program α) → σ → List (Event ι σ) → (ι → Program α) → σ → Prop
  | nil (programs : ι → Program α) (s : σ) : Interleaved store programs s [] programs s
  | cons {programs programs' : ι → Program α} {s s' : σ} {i : ι} {c : Call}
      {next : Except Error c.Reply → Program α} {events : List (Event ι σ)}
      (hcall : programs i = .call c next)
      (hrest : Interleaved store (Function.update programs i (next (store c s).1)) (store c s).2
        events programs' s') :
      Interleaved store programs s (⟨i, c, s⟩ :: events) programs' s'

/-- What one program does: the calls it makes, in whatever states, and what is left of it. -/
inductive Made (store : Store σ) : Program α → List (Event ι σ) → Program α → Prop
  | nil (p : Program α) : Made store p [] p
  | cons {i : ι} {c : Call} {s : σ} {next : Except Error c.Reply → Program α}
      {events : List (Event ι σ)} {q : Program α}
      (hrest : Made store (next (store c s).1) events q) :
      Made store (.call c next) (⟨i, c, s⟩ :: events) q

/-- Calls of which each finds the state that the one before left. -/
inductive Chained (store : Store σ) : σ → List (Event ι σ) → σ → Prop
  | nil (s : σ) : Chained store s [] s
  | cons {i : ι} {c : Call} {s s' : σ} {events : List (Event ι σ)}
      (hrest : Chained store (store c s).2 events s') :
      Chained store s (⟨i, c, s⟩ :: events) s'

namespace Chained

variable {store : Store σ} {front back : List (Event ι σ)} {s s' : σ}

/-- A chain can be taken apart anywhere. -/
lemma append (h : Chained store s (front ++ back) s') :
    ∃ t, Chained store s front t ∧ Chained store t back s' := by
  induction front generalizing s with
  | nil => exact ⟨s, .nil s, h⟩
  | cons e rest ih =>
      cases h with
      | cons hrest =>
          obtain ⟨t, hfront, hback⟩ := ih hrest
          exact ⟨t, .cons hfront, hback⟩

lemma segment {middle : List (Event ι σ)} (h : Chained store s (front ++ middle ++ back) s') :
    ∃ t t', Chained store t middle t' := by
  obtain ⟨t', hfront, -⟩ := h.append
  obtain ⟨t, -, hmiddle⟩ := hfront.append
  exact ⟨t, t', hmiddle⟩

end Chained

namespace Interleaved

variable [DecidableEq ι] {store : Store σ} {programs programs' : ι → Program α} {s s' : σ}
  {events : List (Event ι σ)}

/-- **In a shared run each program does what it can do by itself.** -/
theorem made (h : Interleaved store programs s events programs' s') (i : ι) :
    Made store (programs i) (callsOf i events) (programs' i) := by
  induction h with
  | nil programs s => exact .nil _
  | @cons programs programs' s s' j c next events hcall hrest ih =>
      by_cases hij : j = i
      · subst hij
        rw [callsOf, List.filter_cons_of_pos (by simp), hcall]
        rw [Function.update_self] at ih
        exact .cons ih
      · rw [callsOf, List.filter_cons_of_neg (by simpa using hij)]
        rwa [Function.update_of_ne (Ne.symm hij)] at ih

/-- A program that goes on makes only calls that it can make, and so do the others. -/
lemma calls_update {P : ι → Call → Prop} (h : ∀ i, Program.Calls (P i) (programs i)) {j : ι}
    {p : Program α} (hp : Program.Calls (P j) p) (i : ι) :
    Program.Calls (P i) (Function.update programs j p i) := by
  by_cases hij : i = j
  · subst hij
    rwa [Function.update_self]
  · rw [Function.update_of_ne hij]
    exact h i

lemma chained (h : Interleaved store programs s events programs' s') :
    Chained store s events s' := by
  induction h with
  | nil programs s => exact .nil s
  | cons hcall hrest ih => exact .cons ih

/-- **What all calls keep holds wherever a call is made**, and each program makes only calls that it
can make. -/
theorem invariant {P : ι → Call → Prop} {I : σ → Prop}
    (h : Interleaved store programs s events programs' s')
    (hcalls : ∀ i, Program.Calls (P i) (programs i))
    (hstep : ∀ (i : ι) (c : Call) (s : σ), P i c → I s → I (store c s).2) (hs : I s) :
    ∀ e ∈ events, P e.process e.call ∧ I e.before := by
  induction h with
  | nil programs s => exact fun _ he => absurd he List.not_mem_nil
  | @cons programs programs' s s' j c next events hcall hrest ih =>
      have hj := hcalls j
      rw [hcall] at hj
      intro e he
      rcases List.mem_cons.mp he with rfl | he
      · exact ⟨hj.1, hs⟩
      · exact ih (calls_update hcalls (hj.2 _)) (hstep j c s hj.1 hs) e he

lemma calls (h : Interleaved store programs s events programs' s') {P : ι → Call → Prop}
    (hcalls : ∀ i, Program.Calls (P i) (programs i)) : ∀ e ∈ events, P e.process e.call := by
  have hinvariant := h.invariant (I := fun _ => True) hcalls (fun _ _ _ _ _ => trivial) trivial
  exact fun e he => (hinvariant e he).1

end Interleaved

/-! ## Runs in a given order -/

/-- The run in which programs take turns in a given order, each making one call in a turn; turns of
programs that are done are passed over. -/
def Program.interleave [DecidableEq ι] (store : Store σ) (programs : ι → Program α) (s : σ) :
    List ι → List (Event ι σ) × (ι → Program α) × σ
  | [] => ([], programs, s)
  | i :: turns =>
    match programs i with
    | .done _ => interleave store programs s turns
    | .call c next =>
      let (events, left) :=
        interleave store (Function.update programs i (next (store c s).1)) (store c s).2 turns
      (⟨i, c, s⟩ :: events, left)

/-- Whatever the order of turns, it leads to a shared run. -/
theorem Program.interleaved_interleave [DecidableEq ι] (store : Store σ)
    (programs : ι → Program α) (s : σ) (turns : List ι) :
    Interleaved store programs s (interleave store programs s turns).1
      (interleave store programs s turns).2.1 (interleave store programs s turns).2.2 := by
  induction turns generalizing programs s with
  | nil => exact .nil programs s
  | cons i turns ih =>
      rw [interleave]
      cases hi : programs i with
      | done result => exact ih programs s
      | call c next => exact .cons hi (ih _ _)

/-- A program that is not done makes its call in its turn. -/
lemma Program.left_of_call [DecidableEq ι] {store : Store σ} {programs : ι → Program α} {s s' : σ}
    {i j : ι} {c : Call} {next : Except Error c.Reply → Program α} {reply : Except Error c.Reply}
    {turns : List ι} {left : Program α} (hcall : programs i = .call c next)
    (hstore : store c s = (reply, s'))
    (h : (interleave store (Function.update programs i (next reply)) s' turns).2.1 j = left) :
    (interleave store programs s (i :: turns)).2.1 j = left := by
  rw [interleave, hcall]
  dsimp only
  rw [hstore, h]

/-! ## Changed results -/

lemma Program.map_eq_ok {f : α → β} {p : Program α} {b : β}
    (h : f <$> p = .done (.ok b)) : ∃ a, p = .done (.ok a) ∧ f a = b := by
  cases p with
  | done result =>
      cases result with
      | ok a => exact ⟨a, rfl, Except.ok.inj (Program.done.inj h)⟩
      | error e => cases h
  | call c next => cases h

lemma Program.map_eq_error {f : α → β} {p : Program α} {e : Error}
    (h : f <$> p = .done (.error e)) : p = .done (.error e) := by
  cases p with
  | done result =>
      cases result with
      | ok a => cases h
      | error e' => rw [Except.error.inj (Program.done.inj h)]
  | call c next => cases h

/-- A program whose result is changed makes the calls of the program. -/
lemma Made.of_map {store : Store σ} {p : Program α} {f : α → β} {events : List (Event ι σ)}
    {q : Program β} (h : Made store (f <$> p) events q) :
    ∃ q', Made store p events q' ∧ q = f <$> q' := by
  induction events generalizing p with
  | nil =>
      generalize hp : f <$> p = mapped at h
      cases h
      exact ⟨p, .nil p, hp.symm⟩
  | cons e rest ih =>
      cases p with
      | done result => cases result <;> cases h
      | call c next =>
          change Made store (.call c fun reply => f <$> next reply) (e :: rest) q at h
          cases h with
          | cons hrest =>
              obtain ⟨q', hq', rfl⟩ := ih hrest
              exact ⟨q', .cons hq', rfl⟩

end RankedTable

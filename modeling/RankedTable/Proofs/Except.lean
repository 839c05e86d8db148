import Mathlib.Data.List.Forall2
import Mathlib.Data.Nat.Notation
import Mathlib.Tactic.Lemma

/-!
# Steps that may fail

* `bind_eq_ok`, `bind_eq_error` — a sequence succeeds if both of its parts do, and fails if one
  does.
* `forall₂_of_mapM_ok`, `mem_of_mapM_ok` — each result of a list of steps comes from one of them.
* `eq_map_of_mapM_ok` — the results of steps that succeed alike.
* `mapM_ok` — a list of steps succeeds if all of them do.
* `mapM_eq_error` — it fails at the first step that does.
-/

namespace RankedTable

variable {ε α β : Type}

lemma ok_bind (a : α) (f : α → Except ε β) : (Except.ok a >>= f) = f a := rfl

lemma bind_eq_ok {x : Except ε α} {f : α → Except ε β} {b : β} :
    x >>= f = .ok b ↔ ∃ a, x = .ok a ∧ f a = .ok b := by
  cases x with
  | error e =>
      constructor
      · intro h
        cases h
      · rintro ⟨_, h, _⟩
        cases h
  | ok a =>
      constructor
      · exact fun h => ⟨a, rfl, h⟩
      · rintro ⟨_, h, hf⟩
        exact Except.ok.inj h ▸ hf

lemma bind_eq_error {x : Except ε α} {f : α → Except ε β} {e : ε} :
    x >>= f = .error e ↔ x = .error e ∨ ∃ a, x = .ok a ∧ f a = .error e := by
  cases x with
  | error e' =>
      constructor
      · exact fun h => Or.inl (Except.error.inj h ▸ rfl)
      · rintro (h | ⟨_, h, _⟩)
        · exact Except.error.inj h ▸ rfl
        · cases h
  | ok a =>
      constructor
      · exact fun h => Or.inr ⟨a, rfl, h⟩
      · rintro (h | ⟨_, h, hf⟩)
        · cases h
        · exact Except.ok.inj h ▸ hf

lemma forall₂_of_mapM_ok {f : α → Except ε β} {l : List α} {results : List β}
    (h : l.mapM f = .ok results) : List.Forall₂ (fun a b => f a = .ok b) l results := by
  induction l generalizing results with
  | nil =>
      obtain rfl : [] = results := Except.ok.inj h
      exact .nil
  | cons a rest ih =>
      rw [List.mapM_cons] at h
      obtain ⟨first, hfirst, h⟩ := bind_eq_ok.mp h
      obtain ⟨others, hothers, h⟩ := bind_eq_ok.mp h
      obtain rfl : first :: others = results := Except.ok.inj h
      exact .cons hfirst (ih hothers)

lemma mem_of_mapM_ok {f : α → Except ε β} {l : List α} {results : List β}
    (h : l.mapM f = .ok results) {b : β} (hb : b ∈ results) : ∃ a ∈ l, f a = .ok b := by
  replace h := forall₂_of_mapM_ok h
  induction h with
  | nil => exact absurd hb List.not_mem_nil
  | @cons a _ rest _ hfirst _ ih =>
      rcases List.mem_cons.mp hb with rfl | hb
      · exact ⟨a, List.mem_cons_self .., hfirst⟩
      · obtain ⟨a', ha', hf⟩ := ih hb
        exact ⟨a', List.mem_cons_of_mem _ ha', hf⟩

/-- If all steps succeed alike, the results are known. -/
lemma eq_map_of_mapM_ok {f : α → Except ε β} {g : α → β} {l : List α} {results : List β}
    (h : l.mapM f = .ok results) (hf : ∀ a b, f a = .ok b → b = g a) : results = l.map g := by
  replace h := forall₂_of_mapM_ok h
  induction h with
  | nil => rfl
  | cons hfirst _ ih => rw [List.map_cons, ← hf _ _ hfirst, ← ih]

lemma mapM_ok {f : α → Except ε β} {g : α → β} {l : List α} (h : ∀ a ∈ l, f a = .ok (g a)) :
    l.mapM f = .ok (l.map g) := by
  induction l with
  | nil => rfl
  | cons a rest ih =>
      rw [List.mapM_cons, h a (List.mem_cons_self ..),
        ih fun b hb => h b (List.mem_cons_of_mem _ hb)]
      rfl

lemma mapM_eq_error {f : α → Except ε β} {l : List α} {e : ε} :
    l.mapM f = .error e ↔ ∃ front a back, l = front ++ a :: back ∧
      (∀ b ∈ front, ∃ result, f b = .ok result) ∧ f a = .error e := by
  constructor
  · intro h
    induction l with
    | nil => cases h
    | cons a rest ih =>
        rw [List.mapM_cons] at h
        rcases bind_eq_error.mp h with ha | ⟨first, ha, h⟩
        · exact ⟨[], a, rest, rfl, by simp, ha⟩
        · rcases bind_eq_error.mp h with hrest | ⟨others, -, h⟩
          · obtain ⟨front, a', back, rfl, hfront, ha'⟩ := ih hrest
            refine ⟨a :: front, a', back, rfl, ?_, ha'⟩
            rintro b (_ | ⟨_, hb⟩)
            · exact ⟨first, ha⟩
            · exact hfront b hb
          · cases h
  · rintro ⟨front, a, back, rfl, hfront, ha⟩
    induction front with
    | nil => rw [List.nil_append, List.mapM_cons, ha]; rfl
    | cons b front ih =>
        obtain ⟨result, hb⟩ := hfront b (List.mem_cons_self ..)
        rw [List.cons_append, List.mapM_cons, hb,
          ih fun c hc => hfront c (List.mem_cons_of_mem _ hc)]
        rfl

end RankedTable

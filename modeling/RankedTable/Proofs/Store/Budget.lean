import Mathlib.Algebra.Group.Int.Defs
import Mathlib.Data.List.Infix
import Mathlib.Tactic.Lemma
import Mathlib.Tactic.SplitIfs
import RankedTable.Store.Scan

/-!
# Budgets

A scan looks at its budget item by item.  So a pass over items may be taken apart, and one that
takes every item sees the items of its budget.

* `settle` — how a pass ends if there is nothing more to see.
* `visitPage_append` — a pass over two pieces goes on with the second where the first one ended.
* `visitPage_cons`, `visitPage_all` — a pass without a budget goes on until its visitor ends it, and
  sees every item.
* `window` — the items left after skipping some and taking some.
* `prefix_window` — items that do not spend a budget are the first of its window.
* **`visitPage_window`** — a pass that takes every item sees the window of its budget.
* `visitPage_more_window` — one that is not over has not spent the budget.
-/

namespace RankedTable

namespace Scan

variable {β : Type} {scan : Scan} {visit : β → Item → Except Error (Visit β)}

/-! ## One pass -/

/-- How a pass ends if there is nothing more to see. -/
def settle : Progress β → β × Option Error
  | .more _ acc => (acc, none)
  | .finished acc => (acc, none)
  | .failed acc e => (acc, some e)

/-- A pass over two pieces goes on with the second where the first one ended. -/
lemma visitPage_append (seen : ℕ) (acc : β) (front back : List Item) :
    scan.visitPage visit seen acc (front ++ back) =
      match scan.visitPage visit seen acc front with
      | .more seen acc => scan.visitPage visit seen acc back
      | other => other := by
  induction front generalizing seen acc with
  | nil => rfl
  | cons item rest ih =>
      rw [List.cons_append, visitPage, visitPage]
      by_cases hskip : seen < scan.skip
      · rw [if_pos hskip, if_pos hskip]
        exact ih _ _
      · rw [if_neg hskip, if_neg hskip]
        rcases visit acc item with e | (acc' | acc')
        · rfl
        · dsimp only
          split_ifs
          · rfl
          · exact ih _ _
        · rfl

/-- A pass that is not over has seen every item, and its budget is not spent. -/
lemma visitPage_more {seen seen' : ℕ} {acc acc' : β} {items : List Item}
    (hspent : scan.spent seen = false)
    (h : scan.visitPage visit seen acc items = .more seen' acc') :
    seen' = seen + items.length ∧ scan.spent seen' = false := by
  induction items generalizing seen acc with
  | nil =>
      obtain ⟨rfl, -⟩ := Progress.more.inj h
      exact ⟨rfl, hspent⟩
  | cons item rest ih =>
      rw [visitPage] at h
      rw [List.length_cons]
      by_cases hskip : seen < scan.skip
      · rw [if_pos hskip] at h
        have hnext : scan.spent (seen + 1) = false := by
          simp only [spent, Bool.and_eq_false_iff, decide_eq_false_iff_not]
          omega
        obtain ⟨hseen, hspent'⟩ := ih hnext h
        exact ⟨by omega, hspent'⟩
      · rw [if_neg hskip] at h
        rcases hvisit : visit acc item with e | (acc' | acc')
        · rw [hvisit] at h
          simp at h
        · rw [hvisit] at h
          dsimp only at h
          split_ifs at h with hnext
          obtain ⟨hseen, hspent'⟩ := ih (by simpa using hnext) h
          exact ⟨by omega, hspent'⟩
        · rw [hvisit] at h
          simp at h

/-- A pass without a budget goes on until its visitor ends it. -/
lemma visitPage_cons (hskip : scan.skip = 0) (htake : ¬0 < scan.take) (seen : ℕ) (acc : β)
    (item : Item) (rest : List Item) :
    scan.visitPage visit seen acc (item :: rest) =
      match visit acc item with
      | .error e => .failed acc e
      | .ok (.enough acc) => .finished acc
      | .ok (.more acc) => scan.visitPage visit (seen + 1) acc rest := by
  have hnext : ¬seen < scan.skip := by omega
  have hspent : ¬scan.spent (seen + 1) = true := by
    rw [spent, decide_eq_false htake, Bool.false_and]
    exact Bool.false_ne_true
  rw [visitPage, if_neg hnext]
  rcases visit acc item with e | (acc' | acc')
  · rfl
  · exact if_neg hspent
  · rfl

/-- A pass without a budget sees every item. -/
lemma visitPage_all {step : β → Item → β} {items : List Item} (hskip : scan.skip = 0)
    (htake : ¬0 < scan.take)
    (hvisit : ∀ item ∈ items, ∀ acc, visit acc item = .ok (.more (step acc item))) (seen : ℕ)
    (acc : β) :
    scan.visitPage visit seen acc items = .more (seen + items.length) (items.foldl step acc) := by
  induction items generalizing seen acc with
  | nil => rfl
  | cons item rest ih =>
      rw [visitPage_cons hskip htake, hvisit item (List.mem_cons_self ..)]
      dsimp only
      rw [ih (fun i hi => hvisit i (List.mem_cons_of_mem _ hi)), List.length_cons,
        List.foldl_cons, Nat.add_assoc, Nat.add_comm 1]

/-! ## Budgets -/

section Budgets

variable {α γ : Type}

/-- What is left of a list after skipping some and then taking some; all if none are asked for. -/
def window (skip : ℕ) (take : ℤ) (l : List α) : List α :=
  if 0 < take then (l.drop skip).take take.toNat else l.drop skip

/-- The part of the window that is behind the items already seen. -/
def windowFrom (scan : Scan) (seen : ℕ) (items : List α) : List α :=
  if 0 < scan.take then
    (items.drop (scan.skip - seen)).take (scan.skip + scan.take.toNat - max scan.skip seen)
  else items.drop (scan.skip - seen)

lemma windowFrom_zero (scan : Scan) (items : List α) :
    scan.windowFrom 0 items = window scan.skip scan.take items := by
  rw [windowFrom, window, Nat.sub_zero, Nat.max_eq_left (Nat.zero_le _), Nat.add_sub_cancel_left]

lemma window_map (f : α → γ) (skip : ℕ) (take : ℤ) (l : List α) :
    window skip take (l.map f) = (window skip take l).map f := by
  rw [window, window]
  split_ifs
  · rw [List.map_take, List.map_drop]
  · rw [List.map_drop]

lemma window_sublist (skip : ℕ) (take : ℤ) (l : List α) :
    List.Sublist (window skip take l) l := by
  rw [window]
  split_ifs
  · exact (List.take_sublist _ _).trans (List.drop_sublist _ _)
  · exact List.drop_sublist _ _

/-- Behind the offset, items from the front that do not spend the budget are the first of the
window. -/
lemma prefix_window {skip : ℕ} {take : ℤ} {front l : List α} (hfront : front <+: l)
    (hlength : 0 < take → front.length < skip + take) : front.drop skip <+: window skip take l := by
  rw [window]
  split_ifs with htake
  · have := hlength htake
    exact List.prefix_take_iff.mpr ⟨hfront.drop skip, by rw [List.length_drop]; omega⟩
  · exact hfront.drop skip

/-- No budget is spent before the first item. -/
lemma spent_zero (scan : Scan) : scan.spent 0 = false := by
  simp only [spent, Bool.and_eq_false_iff, decide_eq_false_iff_not]
  omega

end Budgets

/-- **A pass that takes every item sees the window of its budget.** -/
theorem visitPage_window {step : β → Item → β} {items : List Item}
    (hvisit : ∀ item ∈ items, ∀ acc, visit acc item = .ok (.more (step acc item))) {seen : ℕ}
    (acc : β) (hspent : scan.spent seen = false) :
    settle (scan.visitPage visit seen acc items) =
      ((scan.windowFrom seen items).foldl step acc, none) := by
  induction items generalizing seen acc with
  | nil =>
      rw [windowFrom]
      split_ifs <;> simp [visitPage, settle]
  | cons item rest ih =>
      have hrest := fun i hi => hvisit i (List.mem_cons_of_mem item hi)
      rw [visitPage]
      by_cases hskip : seen < scan.skip
      · have hnext : scan.spent (seen + 1) = false := by
          simp only [spent, Bool.and_eq_false_iff, decide_eq_false_iff_not]
          omega
        rw [if_pos hskip, ih hrest acc hnext]
        have hdrop : scan.skip - seen = scan.skip - (seen + 1) + 1 := by omega
        have hmax : max scan.skip seen = max scan.skip (seen + 1) := by omega
        rw [windowFrom, windowFrom, hdrop, hmax, List.drop_succ_cons]
      · rw [if_neg hskip, hvisit item (List.mem_cons_self ..)]
        have hdrop : scan.skip - seen = 0 := by omega
        have hdrop' : scan.skip - (seen + 1) = 0 := by omega
        simp only [spent, Bool.and_eq_false_iff, decide_eq_false_iff_not] at hspent
        dsimp only
        by_cases hnext : scan.spent (seen + 1) = true
        · rw [if_pos hnext]
          simp only [spent, Bool.and_eq_true, decide_eq_true_eq] at hnext
          have hone : scan.skip + scan.take.toNat - max scan.skip seen = 1 := by omega
          rw [windowFrom, if_pos hnext.1, hdrop, hone]
          rfl
        · rw [if_neg hnext, ih hrest _ (by simpa using hnext), windowFrom, windowFrom, hdrop,
            hdrop']
          split_ifs with htake
          · have hmore : scan.skip + scan.take.toNat - max scan.skip seen =
                scan.skip + scan.take.toNat - max scan.skip (seen + 1) + 1 := by
              simp only [spent, Bool.and_eq_true, decide_eq_true_eq, not_and] at hnext
              have := hnext htake
              omega
            rw [hmore]
            rfl
          · rfl

/-- A pass that takes every item and is not over has taken those behind the offset, and fewer than
its budget. -/
lemma visitPage_more_window {step : β → Item → β} {items : List Item}
    (hvisit : ∀ item ∈ items, ∀ acc, visit acc item = .ok (.more (step acc item))) {acc acc' : β}
    {seen : ℕ} (h : scan.visitPage visit 0 acc items = .more seen acc') :
    (items.drop scan.skip).foldl step acc = acc' ∧
      (0 < scan.take → items.length < scan.skip + scan.take) := by
  obtain ⟨hseen, hspent⟩ := visitPage_more (spent_zero scan) h
  have hlength : 0 < scan.take → items.length < scan.skip + scan.take := by
    intro htake
    rw [spent, decide_eq_true htake, Bool.true_and, decide_eq_false_iff_not] at hspent
    omega
  refine ⟨?_, hlength⟩
  have hwindow : window scan.skip scan.take items = items.drop scan.skip := by
    rw [window]
    split_ifs with htake
    · have := hlength htake
      exact List.take_of_length_le (by rw [List.length_drop]; omega)
    · rfl
  have hsettled := visitPage_window hvisit acc (spent_zero scan)
  rw [h, windowFrom_zero, hwindow] at hsettled
  exact (Prod.mk.inj hsettled).1.symm

end Scan

end RankedTable

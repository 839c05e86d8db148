import Mathlib.Data.List.Dedup
import Mathlib.Tactic.Lemma
import RankedTable.Value.Basic

/-!
# A set is told by its members

* `eq_of_ascending` — ascending lists with the same members are equal.
* `ofList_perm` — the order in which the members of a set are listed does not matter.
* `sortedMembers`, **`elems_ofList`** — the members of a list, sorted and each once.
-/

namespace RankedTable.OrderedSet

universe u

variable {α : Type u} [LT α] [Std.Irrefl (α := α) (· < ·)]

lemma nodup (s : OrderedSet α) : s.elems.Nodup := by
  refine s.ascending.imp fun {a b} h heq => ?_
  rw [heq] at h
  exact Std.Irrefl.irrefl _ h

variable [AscendingOrder α]

/-- Ascending lists with the same members are equal. -/
lemma eq_of_ascending {l m : List α} (hl : l.Pairwise (· < ·)) (hm : m.Pairwise (· < ·))
    (h : ∀ x, x ∈ l ↔ x ∈ m) : l = m := by
  refine List.Perm.eq_of_pairwise (fun a b _ _ hab hba => ?_) hl hm
    ((List.perm_ext_iff_of_nodup (nodup ⟨l, hl⟩) (nodup ⟨m, hm⟩)).mpr h)
  exact absurd (AscendingOrder.trans hab hba) (Std.Irrefl.irrefl _)

variable [DecidableEq α] [DecidableLT α]

/-- The order in which the members of a set are listed does not matter. -/
lemma ofList_perm {s : OrderedSet α} {listed : List α} (h : listed.Perm s.elems) :
    ofList listed = s :=
  ext (eq_of_ascending (ofList listed).ascending s.ascending fun _ =>
    (mem_ofList listed).trans h.mem_iff)

lemma ofList_elems (s : OrderedSet α) : ofList s.elems = s :=
  ofList_perm (List.Perm.refl _)

/-- The members of a list, each once, the smaller ones first. -/
def sortedMembers (l : List α) : List α :=
  l.dedup.mergeSort fun a b => decide (¬b < a)

/-- **The set of a list has its members sorted and each once.** -/
theorem elems_ofList (l : List α) : (ofList l).elems = sortedMembers l := by
  have hnodup : (sortedMembers l).Nodup :=
    (List.mergeSort_perm _ _).nodup_iff.mpr (List.nodup_dedup l)
  have hsorted : (sortedMembers l).Pairwise fun a b => ¬b < a := by
    refine (List.pairwise_mergeSort (fun a b c hab hbc => ?_) (fun a b => ?_) _).imp
      of_decide_eq_true
    · have hab := of_decide_eq_true hab
      have hbc := of_decide_eq_true hbc
      refine decide_eq_true fun hca => ?_
      by_cases heq : a = b
      · exact hbc (heq ▸ hca)
      · exact hbc (AscendingOrder.trans hca (AscendingOrder.connected hab (Ne.symm heq)))
    · by_cases hba : b < a
      · have hab : ¬a < b := fun hab => Std.Irrefl.irrefl _ (AscendingOrder.trans hab hba)
        simp [hab]
      · simp [hba]
  refine eq_of_ascending (ofList l).ascending ?_ fun x => ?_
  · refine (hsorted.and hnodup).imp fun ⟨hle, hne⟩ => ?_
    exact AscendingOrder.connected hle (Ne.symm hne)
  · rw [mem_ofList, sortedMembers, List.mem_mergeSort, List.mem_dedup]

end RankedTable.OrderedSet

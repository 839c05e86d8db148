import Mathlib.Data.List.Nodup
import Mathlib.Tactic.Lemma
import Mathlib.Tactic.SplitIfs
import RankedTable.Assoc

/-!
# Many writes to one mapping

* `Assoc.latest?` — what a list of writes leaves under a name.
* **`get?_insertAll`** — what is read after many writes: the latest of them, or what was there.
* `mem_insertAll` — nothing else comes into the mapping.
* **`insertAll_append`** — entries of new names are put at the end, in their order.
* `nodup_insertAll` — no write gives a name a second entry.
-/

namespace RankedTable.Assoc

universe u

variable {α : Type u}

/-- What the last write of a name in a list leaves there. -/
def latest? (writes : List (String × α)) (name : String) : Option α :=
  match writes with
  | [] => none
  | (n, v) :: rest => (latest? rest name).or (if n = name then some v else none)

/-- **What is read after many writes** is the latest write, or else what was there before. -/
theorem get?_insertAll (m : Assoc α) (writes : List (String × α)) (name : String) :
    (m.insertAll writes).get? name = (latest? writes name).or (m.get? name) := by
  induction writes generalizing m with
  | nil => rfl
  | cons write rest ih =>
      obtain ⟨n, v⟩ := write
      change ((m.insert n v).insertAll rest).get? name = _
      rw [ih, get?_insert, latest?, Option.or_assoc]
      by_cases h : n = name
      · rw [if_pos h, if_pos h, Option.some_or]
      · rw [if_neg h, if_neg h, Option.none_or]

lemma mem_of_latest? {writes : List (String × α)} {name : String} {v : α}
    (h : latest? writes name = some v) : (name, v) ∈ writes := by
  induction writes with
  | nil => exact absurd h (by simp [latest?])
  | cons write rest ih =>
      obtain ⟨n, w⟩ := write
      rw [latest?, Option.or_eq_some_iff] at h
      rcases h with h | ⟨-, h⟩
      · exact List.mem_cons_of_mem _ (ih h)
      · by_cases hn : n = name
        · rw [if_pos hn, Option.some_inj] at h
          rw [hn, h]
          exact List.mem_cons_self ..
        · rw [if_neg hn] at h
          exact absurd h (by simp)

lemma mem_insert {m : Assoc α} {name : String} {v : α} {e : String × α}
    (h : e ∈ m.insert name v) : e ∈ m ∨ e = (name, v) := by
  induction m with
  | nil => exact Or.inr (List.mem_singleton.mp h)
  | cons entry rest ih =>
      obtain ⟨n, w⟩ := entry
      rw [insert] at h
      by_cases hn : n = name
      · rw [if_pos hn, hn] at h
        rcases List.mem_cons.mp h with h | h
        · exact Or.inr h
        · exact Or.inl (List.mem_cons_of_mem _ h)
      · rw [if_neg hn] at h
        rcases List.mem_cons.mp h with h | h
        · exact Or.inl (h ▸ List.mem_cons_self ..)
        · exact (ih h).imp_left (List.mem_cons_of_mem _)

/-- Every entry of a mapping was there before, or is one of those written. -/
lemma mem_insertAll {m : Assoc α} {writes : List (String × α)} {e : String × α}
    (h : e ∈ m.insertAll writes) : e ∈ m ∨ e ∈ writes := by
  induction writes generalizing m with
  | nil => exact Or.inl h
  | cons write rest ih =>
      rcases ih (m := m.insert write.1 write.2) h with h | h
      · rcases mem_insert h with h | h
        · exact Or.inl h
        · exact Or.inr (h ▸ List.mem_cons_self ..)
      · exact Or.inr (List.mem_cons_of_mem _ h)

/-- What is listed is kept. -/
lemma get?_restrict (m : Assoc α) {names : List String} {name : String} (h : name ∈ names) :
    (m.restrict names).get? name = m.get? name := by
  induction m with
  | nil => rfl
  | cons entry rest ih =>
      obtain ⟨n, v⟩ := entry
      rw [restrict, List.filter_cons, get?]
      by_cases hn : n = name
      · subst hn
        rw [if_pos (List.contains_iff_mem.mpr h), get?, if_pos rfl, if_pos rfl]
      · rw [if_neg hn]
        split_ifs
        · rw [get?, if_neg hn]
          exact ih
        · exact ih

/-- What is not listed is not kept. -/
lemma get?_restrict_of_not_mem (m : Assoc α) {names : List String} {name : String}
    (h : name ∉ names) : (m.restrict names).get? name = none := by
  induction m with
  | nil => rfl
  | cons entry rest ih =>
      rw [restrict, List.filter_cons]
      split_ifs with hn
      · have hne : entry.1 ≠ name := fun heq => h (heq ▸ List.contains_iff_mem.mp hn)
        rw [get?, if_neg hne]
        exact ih
      · exact ih

lemma get?_of_not_mem {m : Assoc α} {name : String} (h : name ∉ m.names) : m.get? name = none := by
  induction m with
  | nil => rfl
  | cons entry rest ih =>
      obtain ⟨n, v⟩ := entry
      rw [names, List.map_cons, List.mem_cons, not_or] at h
      rw [get?, if_neg (Ne.symm h.1)]
      exact ih h.2

lemma get?_append (front back : Assoc α) (name : String) :
    get? (front ++ back) name = (front.get? name).or (back.get? name) := by
  induction front with
  | nil => rfl
  | cons entry rest ih =>
      rw [List.cons_append, get?, get?]
      split_ifs
      · rfl
      · exact ih

/-! ## New names -/

lemma insert_new {m : Assoc α} {name : String} (v : α) (h : name ∉ m.names) :
    m.insert name v = m ++ [(name, v)] := by
  induction m with
  | nil => rfl
  | cons entry rest ih =>
      obtain ⟨n, w⟩ := entry
      have hne : n ≠ name := fun h0 => h (h0 ▸ List.mem_cons_self ..)
      rw [insert, if_neg hne, ih fun h0 => h (List.mem_cons_of_mem _ h0)]
      rfl

/-- **Entries of new names are put at the end**, in the order in which they are written. -/
theorem insertAll_append {m : Assoc α} {entries : List (String × α)}
    (h : (m ++ entries).names.Nodup) : m.insertAll entries = m ++ entries := by
  induction entries generalizing m with
  | nil => exact (List.append_nil m).symm
  | cons e rest ih =>
      have hnew : e.1 ∉ m.names := by
        intro hmem
        rw [names, List.map_append, List.nodup_append] at h
        exact h.2.2 _ hmem _ (List.mem_cons_self ..) rfl
      have happend : m ++ e :: rest = m ++ [e] ++ rest := by simp
      rw [happend] at h
      change (m.insert e.1 e.2).insertAll rest = _
      rw [insert_new e.2 hnew, happend]
      exact ih h

/-- Entries of different names build up themselves. -/
lemma insertAll_nil {entries : List (String × α)} (h : (names entries).Nodup) :
    insertAll [] entries = entries :=
  insertAll_append (m := []) h

lemma mem_names_insert {m : Assoc α} {name other : String} {v : α}
    (h : other ∈ (m.insert name v).names) : other ∈ m.names ∨ other = name := by
  obtain ⟨e, he, rfl⟩ := List.mem_map.mp h
  exact (mem_insert he).imp List.mem_map_of_mem (congrArg Prod.fst)

lemma nodup_insert {m : Assoc α} (name : String) (v : α) (h : m.names.Nodup) :
    (m.insert name v).names.Nodup := by
  induction m with
  | nil => exact List.nodup_singleton name
  | cons entry rest ih =>
      obtain ⟨n, w⟩ := entry
      rw [names, List.map_cons, List.nodup_cons] at h
      rw [insert]
      split_ifs with hn
      · exact List.nodup_cons.mpr h
      · refine List.nodup_cons.mpr ⟨fun hmem => ?_, ih h.2⟩
        rcases mem_names_insert hmem with hmem | heq
        · exact h.1 hmem
        · exact hn heq

/-- No write gives a name a second entry. -/
lemma nodup_insertAll {m : Assoc α} (writes : List (String × α)) (h : m.names.Nodup) :
    (m.insertAll writes).names.Nodup :=
  List.foldlRecOn (motive := fun m : Assoc α => m.names.Nodup) writes _ h
    fun _ hm e _ => nodup_insert e.1 e.2 hm

/-- Of writes under different names each is the latest of its name. -/
lemma latest?_eq_get? {writes : List (String × α)} (h : (names writes).Nodup) (name : String) :
    latest? writes name = get? writes name := by
  have hread := get?_insertAll [] writes name
  rw [insertAll_nil h] at hread
  rw [hread]
  exact (Option.or_none).symm

/-- In a mapping with each name once, the entries are what is read. -/
lemma get?_eq_some_iff {m : Assoc α} (h : m.names.Nodup) {name : String} {v : α} :
    m.get? name = some v ↔ (name, v) ∈ m := by
  induction m with
  | nil => simp [get?]
  | cons entry rest ih =>
      obtain ⟨n, w⟩ := entry
      rw [names, List.map_cons, List.nodup_cons] at h
      rw [get?, List.mem_cons]
      split_ifs with hn
      · subst hn
        rw [Option.some_inj]
        constructor
        · exact fun hw => Or.inl (hw ▸ rfl)
        · rintro (hw | hmem)
          · exact (Prod.mk.inj hw).2.symm
          · exact absurd (List.mem_map_of_mem hmem) h.1
      · rw [ih h.2]
        constructor
        · exact Or.inr
        · exact fun hmem => hmem.resolve_left fun hw => hn (Prod.mk.inj hw).1.symm

end RankedTable.Assoc

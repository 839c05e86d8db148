import Mathlib.Data.List.Forall2
import RankedTable.Proofs.Remote.Reading

/-!
# Expressions say what was added to them

A name keeps the placeholder that it got first, and every operand gets a new one.  As both lists
only grow, what the clauses so far say stays as it is when another one is added.

* `Condition.Fits` — whether a condition has the operands that its operator takes.
* `Placed` — what placing a name does.
* `Expression.Denotes` — the invariant: the expression says what was added, and no placeholder is
  idle.
* **`Denotes.addAssignment`**, **`Denotes.addCondition`** — adding a clause keeps it.
* `addConditions_denotes` — so does adding many.
-/

namespace RankedTable

/-- Whether a condition has as many operands as its operator takes. -/
def Condition.Fits (condition : Condition) : Prop :=
  match condition.op with
  | .eq | .ge | .le => condition.values.length = 1
  | .between => condition.values.length = 2
  | .present | .absent => condition.values.length = 0
  | .unknown _ => False

/-- The same condition on another attribute, if that has a name. -/
def Condition.on (condition : Condition) (subject : String) : Condition :=
  { condition with subject := if subject = "" then condition.subject else subject }

section Growing

variable {names moreNames : List String} {values moreValues : List Value}

lemma getElem?_grown {α : Type} {l : List α} {i : ℕ} {a : α} (h : l[i]? = some a) (more : List α) :
    (l ++ more)[i]? = some a := by
  obtain ⟨hi, -⟩ := List.getElem?_eq_some_iff.mp h
  rw [List.getElem?_append_left hi, h]

/-- A condition says the same when there are more names and values. -/
lemma Clause.Denotes.grown {clause : Clause} {condition : Condition}
    (h : clause.Denotes names values condition) :
    clause.Denotes (names ++ moreNames) (values ++ moreValues) condition := by
  cases h with
  | compare hname hvalue => exact .compare (getElem?_grown hname _) (getElem?_grown hvalue _)
  | between hname hlow hhigh =>
      exact .between (getElem?_grown hname _) (getElem?_grown hlow _) (getElem?_grown hhigh _)
  | present hname => exact .present (getElem?_grown hname _)
  | absent hname => exact .absent (getElem?_grown hname _)

lemma Assignment.Denotes.grown {assignment : Assignment} {assigned : String × Value}
    (h : assignment.Denotes names values assigned) :
    assignment.Denotes (names ++ moreNames) (values ++ moreValues) assigned :=
  ⟨getElem?_grown h.name _, getElem?_grown h.value _⟩

end Growing

namespace Expression

/-- The placeholders of names that the clauses use. -/
def namePlaces (e : Expression) : List NamePlace :=
  e.assignments.map Assignment.name ++ e.conditions.map Clause.name

/-- The placeholders of values that the clauses use. -/
def valuePlaces (e : Expression) : List ValuePlace :=
  e.assignments.map Assignment.value ++ e.conditions.flatMap Clause.operands

/-- What an expression says, if its clauses use each placeholder. -/
structure Denotes (e : Expression) (assigned : List (String × Value))
    (conditions : List Condition) : Prop where
  nodup : e.names.Nodup
  mem_names : ∀ name, name ∈ e.names ↔
    name ∈ assigned.map Prod.fst ∨ name ∈ conditions.map Condition.subject
  values : e.values = assigned.map Prod.snd ++ conditions.flatMap Condition.values
  assignments : List.Forall₂ (Assignment.Denotes e.names e.values) e.assignments assigned
  conditions : List.Forall₂ (Clause.Denotes e.names e.values) e.conditions conditions
  named : ∀ i < e.names.length, ⟨i⟩ ∈ e.namePlaces
  valued : ∀ i < e.values.length, ⟨i⟩ ∈ e.valuePlaces

lemma denotes_empty : Denotes {} [] [] where
  nodup := List.nodup_nil
  mem_names _ := by simp
  values := rfl
  assignments := .nil
  conditions := .nil
  named _ h := absurd h (Nat.not_lt_zero _)
  valued _ h := absurd h (Nat.not_lt_zero _)

lemma exists_of_forall₂ {α β : Type} {R : α → β → Prop} {l : List α} {k : List β}
    (h : List.Forall₂ R l k) {a : α} (ha : a ∈ l) : ∃ b, R a b := by
  induction h with
  | nil => exact absurd ha List.not_mem_nil
  | cons hfirst _ ih =>
      rcases List.mem_cons.mp ha with rfl | ha
      · exact ⟨_, hfirst⟩
      · exact ih ha

section Used

variable {e : Expression} {assigned : List (String × Value)} {conditions : List Condition}

/-- The clauses use no other placeholders of names. -/
lemma Denotes.name_lt (h : e.Denotes assigned conditions) {place : NamePlace}
    (hplace : place ∈ e.namePlaces) : place.index < e.names.length := by
  rcases List.mem_append.mp hplace with hplace | hplace
  · obtain ⟨assignment, hassignment, rfl⟩ := List.mem_map.mp hplace
    obtain ⟨_, hsaid⟩ := exists_of_forall₂ h.assignments hassignment
    exact (List.getElem?_eq_some_iff.mp hsaid.name).1
  · obtain ⟨clause, hclause, rfl⟩ := List.mem_map.mp hplace
    obtain ⟨_, hsaid⟩ := exists_of_forall₂ h.conditions hclause
    cases hsaid with
    | compare hname | between hname | present hname | absent hname =>
        exact (List.getElem?_eq_some_iff.mp hname).1

/-- Nor of values. -/
lemma Denotes.value_lt (h : e.Denotes assigned conditions) {place : ValuePlace}
    (hplace : place ∈ e.valuePlaces) : place.index < e.values.length := by
  rcases List.mem_append.mp hplace with hplace | hplace
  · obtain ⟨assignment, hassignment, rfl⟩ := List.mem_map.mp hplace
    obtain ⟨_, hsaid⟩ := exists_of_forall₂ h.assignments hassignment
    exact (List.getElem?_eq_some_iff.mp hsaid.value).1
  · obtain ⟨clause, hclause, hplace⟩ := List.mem_flatMap.mp hplace
    obtain ⟨_, hsaid⟩ := exists_of_forall₂ h.conditions hclause
    cases hsaid with
    | compare _ hvalue =>
        rw [Clause.operands, List.mem_singleton] at hplace
        exact hplace ▸ (List.getElem?_eq_some_iff.mp hvalue).1
    | between _ hlow hhigh =>
        rcases List.mem_cons.mp hplace with rfl | hplace
        · exact (List.getElem?_eq_some_iff.mp hlow).1
        · exact List.mem_singleton.mp hplace ▸ (List.getElem?_eq_some_iff.mp hhigh).1
    | present | absent => exact absurd hplace List.not_mem_nil

end Used

/-! ## Names -/

/-- What placing a name does to the names: it has the placeholder, and the others keep theirs. -/
structure Placed (names names' : List String) (name : String) (place : NamePlace) : Prop where
  grown : ∃ more, names' = names ++ more
  found : names'[place.index]? = some name
  nodup : names.Nodup → names'.Nodup
  mem : ∀ other, other ∈ names' ↔ other ∈ names ∨ other = name
  fresh : ∀ i < names'.length, i < names.length ∨ i = place.index

/-- Only the names change, and the name is placed. -/
lemma placed_placeName (e : Expression) (name : String) :
    ∃ names place, e.placeName name = (place, { e with names := names }) ∧
      Placed e.names names name place := by
  rw [placeName]
  cases hname : e.names.idxOf? name with
  | some i =>
      obtain ⟨hi, hfound, -⟩ := List.idxOf?_eq_some_iff.mp hname
      have hsome : e.names[i]? = some name := by
        rw [List.getElem?_eq_getElem hi, hfound]
      refine ⟨e.names, ⟨i⟩, rfl, ⟨[], (List.append_nil _).symm⟩, hsome, id, fun other => ?_,
        fun _ h => Or.inl h⟩
      constructor
      · exact Or.inl
      · rintro (h | rfl)
        · exact h
        · exact List.mem_of_getElem? hsome
  | none =>
      have hnew : name ∉ e.names := List.idxOf?_eq_none_iff.mp hname
      refine ⟨e.names ++ [name], ⟨e.names.length⟩, rfl, ⟨[name], rfl⟩, by simp, fun h => ?_,
        by simp, fun i hi => ?_⟩
      · refine List.nodup_append.mpr ⟨h, List.nodup_singleton _, fun a ha b hb => ?_⟩
        rintro rfl
        exact hnew (List.mem_singleton.mp hb ▸ ha)
      · rw [List.length_append, List.length_singleton] at hi
        exact Nat.lt_succ_iff_lt_or_eq.mp hi

/-! ## Clauses -/

section Adding

variable {e : Expression} {assigned : List (String × Value)} {conditions : List Condition}
  {names : List String} {name : String} {place : NamePlace}

/-- The clauses so far say the same with more names and values. -/
lemma Denotes.grown (h : e.Denotes assigned conditions) (hname : Placed e.names names name place)
    (operands : List Value) :
    List.Forall₂ (Assignment.Denotes names (e.values ++ operands)) e.assignments assigned ∧
      List.Forall₂ (Clause.Denotes names (e.values ++ operands)) e.conditions conditions := by
  obtain ⟨more, rfl⟩ := hname.grown
  exact ⟨h.assignments.imp fun _ _ hsaid => hsaid.grown,
    h.conditions.imp fun _ _ hsaid => hsaid.grown⟩

/-- **An assignment is said besides the others.** -/
theorem Denotes.addAssignment (h : e.Denotes assigned []) (name : String) (value : Value) :
    (e.addAssignment name value).Denotes (assigned ++ [(name, value)]) [] := by
  obtain ⟨names, place, hplaced, hname⟩ := e.placed_placeName name
  have hadded : e.addAssignment name value = { e with
      names := names
      values := e.values ++ [value]
      assignments := e.assignments ++ [⟨place, ⟨e.values.length⟩⟩] } := by
    rw [Expression.addAssignment, hplaced]
    rfl
  obtain ⟨hassignments, hconditions⟩ := h.grown hname [value]
  rw [hadded]
  refine ⟨hname.nodup h.nodup, fun other => ?_, ?_, ?_, hconditions, fun i hi => ?_, fun i hi => ?_⟩
  · rw [hname.mem, h.mem_names]
    simp
  · simp [h.values]
  · exact List.rel_append hassignments (.cons ⟨hname.found, by simp⟩ .nil)
  · rcases hname.fresh i hi with hi | rfl
    · have hmem := h.named i hi
      simp only [namePlaces, List.mem_append, List.map_append] at hmem ⊢
      exact hmem.imp_left Or.inl
    · simp [namePlaces]
  · rw [List.length_append, List.length_singleton] at hi
    rcases Nat.lt_succ_iff_lt_or_eq.mp hi with hi | rfl
    · have hmem := h.valued i hi
      simp only [valuePlaces, List.mem_append, List.map_append] at hmem ⊢
      exact hmem.imp_left Or.inl
    · simp [valuePlaces]

/-- A condition is said besides the others, if its clause says it. -/
lemma Denotes.addClause (h : e.Denotes assigned conditions)
    (hname : Placed e.names names name place) {condition : Condition} {clause : Clause}
    (hsubject : condition.subject = name) (hclause : clause.name = place)
    (hsaid : clause.Denotes names (e.values ++ condition.values) condition)
    (hoperands : ∀ i, e.values.length ≤ i → i < e.values.length + condition.values.length →
      ⟨i⟩ ∈ clause.operands) :
    Denotes { e with
        names := names
        values := e.values ++ condition.values
        conditions := e.conditions ++ [clause] } assigned (conditions ++ [condition]) := by
  obtain ⟨hassignments, hconditions⟩ := h.grown hname condition.values
  refine ⟨hname.nodup h.nodup, fun other => ?_, ?_, hassignments, ?_, fun i hi => ?_,
    fun i hi => ?_⟩
  · rw [hname.mem, h.mem_names, ← hsubject]
    simp [or_assoc]
  · simp [h.values]
  · exact List.rel_append hconditions (.cons hsaid .nil)
  · rcases hname.fresh i hi with hi | rfl
    · have hmem := h.named i hi
      simp only [namePlaces, List.mem_append, List.map_append] at hmem ⊢
      exact hmem.imp_right Or.inl
    · simp [namePlaces, hclause]
  · rw [List.length_append] at hi
    by_cases hold : i < e.values.length
    · have hmem := h.valued i hold
      simp only [valuePlaces, List.mem_append, List.flatMap_append] at hmem ⊢
      exact hmem.imp_right Or.inl
    · have hmem := hoperands i (Nat.not_lt.mp hold) hi
      simp [valuePlaces, hmem]

/-- A comparison is said besides the others. -/
lemma Denotes.addComparison (h : e.Denotes assigned conditions)
    (hname : Placed e.names names name place) (comparison : Comparison) (value : Value) :
    ∃ e', addComparison { e with names := names } place comparison [value] = (.ok (), e') ∧
      e'.Denotes assigned (conditions ++ [⟨name, comparison.operator, [value]⟩]) := by
  refine ⟨_, rfl, h.addClause hname rfl rfl (.compare hname.found ?_) fun i hle hlt => ?_⟩
  · exact List.getElem?_concat_length
  · exact List.mem_singleton.mpr (congrArg _ (Nat.le_antisymm (Nat.lt_succ_iff.mp hlt) hle))

/-- **A condition of the right arity is said besides the others.** -/
theorem Denotes.addCondition (h : e.Denotes assigned conditions) {condition : Condition}
    (hfits : condition.Fits) (subject : String) :
    ∃ e', e.addCondition condition subject = (.ok (), e') ∧
      e'.Denotes assigned (conditions ++ [condition.on subject]) := by
  obtain ⟨names, place, hplaced, hname⟩ :=
    e.placed_placeName (if subject = "" then condition.subject else subject)
  obtain ⟨own, op, values⟩ := condition
  rw [Expression.addCondition, hplaced]
  cases op with
  | eq =>
      obtain ⟨value, rfl⟩ := List.length_eq_one_iff.mp hfits
      exact h.addComparison hname .eq value
  | ge =>
      obtain ⟨value, rfl⟩ := List.length_eq_one_iff.mp hfits
      exact h.addComparison hname .ge value
  | le =>
      obtain ⟨value, rfl⟩ := List.length_eq_one_iff.mp hfits
      exact h.addComparison hname .le value
  | between =>
      obtain ⟨low, high, rfl⟩ := List.length_eq_two.mp hfits
      refine ⟨{ e with
          names := names
          values := e.values ++ [low, high]
          conditions := e.conditions ++
            [.between place ⟨e.values.length⟩ ⟨e.values.length + 1⟩] }, ?_,
        h.addClause hname rfl rfl (.between hname.found ?_ ?_) fun i hle hlt => ?_⟩
      · simp [placeValue, Expression.addClause]
      · simp
      · simp
      · rcases Nat.lt_or_eq_of_le hle with hi | rfl
        · obtain rfl : i = e.values.length + 1 := Nat.le_antisymm (Nat.lt_succ_iff.mp hlt) hi
          simp [Clause.operands]
        · simp [Clause.operands]
  | present =>
      obtain rfl := List.length_eq_zero_iff.mp hfits
      refine ⟨{ e with
          names := names
          values := e.values ++ []
          conditions := e.conditions ++ [.present place] }, ?_,
        h.addClause hname rfl rfl (.present hname.found) fun i hle hlt => ?_⟩
      · simp [Expression.addClause]
      · exact absurd hlt (Nat.not_lt.mpr hle)
  | absent =>
      obtain rfl := List.length_eq_zero_iff.mp hfits
      refine ⟨{ e with
          names := names
          values := e.values ++ []
          conditions := e.conditions ++ [.absent place] }, ?_,
        h.addClause hname rfl rfl (.absent hname.found) fun i hle hlt => ?_⟩
      · simp [Expression.addClause]
      · exact absurd hlt (Nat.not_lt.mpr hle)
  | unknown => exact hfits.elim

/-- So are many conditions, one after the other. -/
theorem addConditions_denotes (rename : String → String) {more : List Condition}
    (hfits : ∀ condition ∈ more, condition.Fits) (h : e.Denotes assigned conditions) :
    ∃ e', e.addConditions rename more = .ok e' ∧ e'.Denotes assigned
      (conditions ++ more.map fun condition => condition.on (rename condition.subject)) := by
  induction more generalizing e conditions with
  | nil => exact ⟨e, rfl, by simpa using h⟩
  | cons condition rest ih =>
      obtain ⟨hfirst, hrest⟩ := List.forall_mem_cons.mp hfits
      obtain ⟨e₁, hadd, hsaid⟩ := h.addCondition hfirst (rename condition.subject)
      obtain ⟨e₂, hmore, hall⟩ := ih hrest hsaid
      refine ⟨e₂, ?_, by simpa using hall⟩
      rw [addConditions, hadd]
      exact hmore

/-- So are many assignments. -/
lemma addAssignments_denotes (updates : List (String × Value)) (h : e.Denotes assigned []) :
    (updates.foldl (fun e (name, value) => e.addAssignment name value) e).Denotes
      (assigned ++ updates) [] := by
  induction updates generalizing e assigned with
  | nil => simpa using h
  | cons update rest ih =>
      have hrest := ih (h.addAssignment update.1 update.2)
      rwa [List.append_assoc] at hrest

end Adding

end Expression

end RankedTable

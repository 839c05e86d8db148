import RankedTable.Item
import RankedTable.Proofs.Remote.Words

/-!
# What expressions say

The service reads an expression word by word and fills in what its placeholders stand for.

* `Places` — what placeholders stand for.
* `Places.readConditions`, `Places.readUpdate` — the conditions and the assignments of an
  expression.
* `Clause.Denotes`, `Assignment.Denotes` — what one clause says.
* `readCondition_words` — what is read of a clause is what it says.
* **`readConditions_text`**, **`readUpdate_text`** — so is what is read of many.
-/

namespace RankedTable

/-- What placeholders stand for. -/
structure Places where
  name : String → Option String
  value : String → Option Value

namespace Places

/-! ## Reading -/

/-- The operator of a sign. -/
def operator? (sign : String) : Option Operator :=
  if sign = "=" then some .eq
  else if sign = ">=" then some .ge
  else if sign = "<=" then some .le
  else none

/-- Reads a condition off the front of some words. -/
def readCondition (places : Places) : List String → Option (Condition × List String)
  | "attribute_exists" :: "(" :: name :: ")" :: rest => do
    let subject ← places.name name
    some (⟨subject, .present, []⟩, rest)
  | "attribute_not_exists" :: "(" :: name :: ")" :: rest => do
    let subject ← places.name name
    some (⟨subject, .absent, []⟩, rest)
  | name :: "BETWEEN" :: low :: "AND" :: high :: rest => do
    let subject ← places.name name
    let low ← places.value low
    let high ← places.value high
    some (⟨subject, .between, [low, high]⟩, rest)
  | name :: sign :: value :: rest => do
    let subject ← places.name name
    let op ← operator? sign
    let value ← places.value value
    some (⟨subject, op, [value]⟩, rest)
  | _ => none

/-- Reading a condition takes words. -/
lemma length_readCondition {places : Places} {words rest : List String} {condition : Condition}
    (h : places.readCondition words = some (condition, rest)) : rest.length < words.length := by
  rw [readCondition.eq_def] at h
  split at h <;> simp only [Option.bind_eq_bind, Option.bind_eq_some_iff, Option.some_inj,
    Prod.mk.injEq, reduceCtorEq] at h
  · obtain ⟨_, -, -, rfl⟩ := h
    simp only [List.length_cons]
    omega
  · obtain ⟨_, -, -, rfl⟩ := h
    simp only [List.length_cons]
    omega
  · obtain ⟨_, -, _, -, _, -, -, rfl⟩ := h
    simp only [List.length_cons]
    omega
  · obtain ⟨_, -, _, -, _, -, -, rfl⟩ := h
    simp only [List.length_cons]
    omega

/-- Reads conditions with `AND` between them. -/
def readConditions (places : Places) (words : List String) : Option (List Condition) :=
  match _h : places.readCondition words with
  | some (condition, []) => some [condition]
  | some (condition, "AND" :: rest) => (places.readConditions rest).map (condition :: ·)
  | _ => none
  termination_by words.length
  decreasing_by
    have := length_readCondition _h
    rw [List.length_cons] at this
    omega

/-- Reads assignments with commas between them. -/
def readAssignments (places : Places) : List String → Option (List (String × Value))
  | name :: "=" :: value :: rest => do
    let subject ← places.name name
    let value ← places.value value
    match rest with
    | [] => some [(subject, value)]
    | "," :: rest => (places.readAssignments rest).map ((subject, value) :: ·)
    | _ => none
  | _ => none

/-- Reads what an update sets. -/
def readUpdate (places : Places) : List String → Option (List (String × Value))
  | "SET" :: rest => places.readAssignments rest
  | _ => none

end Places

/-! ## What clauses say -/

/-- The operator of a comparison. -/
def Comparison.operator : Comparison → Operator
  | eq => .eq
  | ge => .ge
  | le => .le

lemma Places.operator?_sign (comparison : Comparison) :
    operator? comparison.sign = some comparison.operator := by
  cases comparison <;> rfl

/-- What a condition over placeholders says, if they stand for the names and values listed. -/
inductive Clause.Denotes (names : List String) (values : List Value) : Clause → Condition → Prop
  | compare {name : NamePlace} {comparison : Comparison} {operand : ValuePlace} {subject : String}
      {value : Value} (hname : names[name.index]? = some subject)
      (hvalue : values[operand.index]? = some value) :
      Denotes names values (.compare name comparison operand)
        ⟨subject, comparison.operator, [value]⟩
  | between {name : NamePlace} {low high : ValuePlace} {subject : String} {lowest highest : Value}
      (hname : names[name.index]? = some subject) (hlow : values[low.index]? = some lowest)
      (hhigh : values[high.index]? = some highest) :
      Denotes names values (.between name low high) ⟨subject, .between, [lowest, highest]⟩
  | present {name : NamePlace} {subject : String} (hname : names[name.index]? = some subject) :
      Denotes names values (.present name) ⟨subject, .present, []⟩
  | absent {name : NamePlace} {subject : String} (hname : names[name.index]? = some subject) :
      Denotes names values (.absent name) ⟨subject, .absent, []⟩

/-- What an assignment over placeholders says. -/
structure Assignment.Denotes (names : List String) (values : List Value) (assignment : Assignment)
    (assigned : String × Value) : Prop where
  name : names[assignment.name.index]? = some assigned.1
  value : values[assignment.value.index]? = some assigned.2

/-- Whether placeholders stand for the names and values listed, by their numbers. -/
structure Places.Of (names : List String) (values : List Value) (places : Places) : Prop where
  name : ∀ place : NamePlace, places.name place.text = names[place.index]?
  value : ∀ place : ValuePlace, places.value place.text = values[place.index]?

variable {names : List String} {values : List Value} {places : Places}

/-- **What is read of a clause is what it says.** -/
theorem readCondition_words (hplaces : places.Of names values) {clause : Clause}
    {condition : Condition} (h : clause.Denotes names values condition) (rest : List String) :
    places.readCondition (clause.words ++ rest) = some (condition, rest) := by
  cases h with
  | @compare name comparison operand _ _ hname hvalue =>
      have hsign : comparison.sign ≠ "(" ∧ comparison.sign ≠ "BETWEEN" := by
        cases comparison <;> decide
      change places.readCondition (name.text :: comparison.sign :: operand.text :: rest) = _
      rw [← hplaces.name] at hname
      rw [← hplaces.value] at hvalue
      rw [Places.readCondition, hname, hvalue, Places.operator?_sign]
      · rfl
      · exact fun _ _ h _ => hsign.1 h
      · exact fun _ _ h _ => hsign.1 h
      · exact fun _ _ h _ => hsign.2 h
  | @between name low high _ _ _ hname hlow hhigh =>
      change places.readCondition
        (name.text :: "BETWEEN" :: low.text :: "AND" :: high.text :: rest) = _
      rw [← hplaces.name] at hname
      rw [← hplaces.value] at hlow hhigh
      rw [Places.readCondition, hname, hlow, hhigh]
      rfl
  | @present name _ hname =>
      change places.readCondition ("attribute_exists" :: "(" :: name.text :: ")" :: rest) = _
      rw [Places.readCondition, hplaces.name, hname]
      rfl
  | @absent name _ hname =>
      change places.readCondition ("attribute_not_exists" :: "(" :: name.text :: ")" :: rest) = _
      rw [Places.readCondition, hplaces.name, hname]
      rfl

lemma readConditions_last {words : List String} {condition : Condition}
    (h : places.readCondition words = some (condition, [])) :
    places.readConditions words = some [condition] := by
  rw [Places.readConditions]
  split <;> simp_all

lemma readConditions_more {words rest : List String} {condition : Condition}
    (h : places.readCondition words = some (condition, "AND" :: rest)) :
    places.readConditions words = (places.readConditions rest).map (condition :: ·) := by
  rw [Places.readConditions]
  split <;> simp_all

/-- **What is read of many conditions is what they say**, in order. -/
theorem readConditions_text (hplaces : places.Of names values) {clauses : List Clause}
    {conditions : List Condition}
    (h : List.Forall₂ (Clause.Denotes names values) clauses conditions) (hne : clauses ≠ []) :
    places.readConditions (words (" AND ".intercalate (clauses.map Clause.text))) =
      some conditions := by
  rw [words_conditions]
  induction h with
  | nil => exact absurd rfl hne
  | @cons clause condition more others hclause hmore ih =>
      cases hmore with
      | nil =>
          have hread := readCondition_words hplaces hclause []
          rw [List.append_nil] at hread
          rw [List.map_singleton, List.intercalate_singleton]
          exact readConditions_last hread
      | cons _ _ =>
          have hread := readCondition_words hplaces hclause
          rw [List.map_cons, List.map_cons, List.intercalate_cons_cons, List.append_assoc,
            List.singleton_append, readConditions_more (hread _)]
          exact congrArg _ (ih (List.cons_ne_nil _ _))

/-- **So is what is read of many assignments.** -/
theorem readUpdate_text (hplaces : places.Of names values) {assignments : List Assignment}
    {assigned : List (String × Value)}
    (h : List.Forall₂ (Assignment.Denotes names values) assignments assigned)
    (hne : assignments ≠ []) :
    places.readUpdate (words ("SET " ++ ", ".intercalate (assignments.map Assignment.text))) =
      some assigned := by
  rw [words_assignments, Places.readUpdate]
  induction h with
  | nil => exact absurd rfl hne
  | @cons assignment _ more others hassignment hmore ih =>
      have hname := hassignment.name
      have hvalue := hassignment.value
      rw [← hplaces.name] at hname
      rw [← hplaces.value] at hvalue
      cases hmore with
      | nil =>
          change places.readAssignments
            [assignment.name.text, "=", assignment.value.text] = _
          rw [Places.readAssignments, hname, hvalue]
          rfl
      | cons _ _ =>
          have hrest := ih (List.cons_ne_nil _ _)
          rw [List.map_cons, List.map_cons, List.intercalate_cons_cons]
          change places.readAssignments (assignment.name.text :: "=" :: assignment.value.text ::
            "," :: _) = _
          rw [Places.readAssignments, hname, hvalue]
          exact congrArg (Option.map _) hrest

end RankedTable

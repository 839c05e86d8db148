import Mathlib.Tactic.Lemma
import Mathlib.Tactic.SplitIfs
import RankedTable.Proofs.Decimal.Digits
import RankedTable.Remote.Expression

/-!
# The words of expressions

The service takes an expression apart into words.  Blanks stand between words, and a bracket or a
comma is a word of its own.

* `words` — the words of a text.
* `words_blank`, `words_mark`, `words_comma`, `words_word` — where a text can be taken apart, and
  where not.
* `words_intercalate` — the words of clauses strung together.
* `Clause.words`, `Assignment.words` — the words of one clause.
* **`words_clause`**, **`words_assignment`** — these are the words of its text.
* **`mem_words_conditions`**, **`mem_words_assignments`** — the placeholders among the words of many
  are those of the clauses.
-/

namespace RankedTable

namespace Words

/-- The characters that are words of their own. -/
def isMark (c : Char) : Bool :=
  c = '(' || c = ')' || c = ','

/-- Puts a word in front of others, unless it is empty. -/
def finish (word : List Char) (rest : List String) : List String :=
  if word.isEmpty then rest else String.ofList word :: rest

/-- The words of characters that come after the beginning of a word. -/
def splitFrom (word : List Char) : List Char → List String
  | [] => finish word []
  | c :: rest =>
    if c = ' ' then finish word (splitFrom [] rest)
    else if isMark c then finish word (String.singleton c :: splitFrom [] rest)
    else splitFrom (word ++ [c]) rest

end Words

open Words

/-- The words of a text. -/
def words (text : String) : List String :=
  splitFrom [] text.toList

namespace Words

lemma finish_append (word : List Char) (front back : List String) :
    finish word (front ++ back) = finish word front ++ back := by
  rw [finish, finish]
  split_ifs <;> rfl

/-- What a separator adds to the words around it. -/
def separator (c : Char) : List String :=
  if isMark c then [String.singleton c] else []

lemma splitFrom_separator {c : Char} (hc : c = ' ' ∨ isMark c = true)
    (word front back : List Char) :
    splitFrom word (front ++ c :: back) =
      splitFrom word front ++ (separator c ++ splitFrom [] back) := by
  induction front generalizing word with
  | nil =>
      rw [List.nil_append, splitFrom, splitFrom, separator, ← finish_append]
      rcases hc with rfl | hc
      · rfl
      · have hblank : c ≠ ' ' := by
          rintro rfl
          cases hc
        rw [if_neg hblank, if_pos hc, if_pos hc]
        rfl
  | cons d front ih =>
      rw [List.cons_append, splitFrom, splitFrom]
      split_ifs
      · rw [ih, finish_append]
      · rw [ih, ← List.cons_append, finish_append]
      · exact ih _

end Words

/-- Two texts with a blank between them have the words of both. -/
lemma words_blank (front back : String) :
    words (front ++ " " ++ back) = words front ++ words back := by
  rw [words, String.toList_append, String.toList_append, List.append_assoc]
  exact splitFrom_separator (Or.inl rfl) [] front.toList back.toList

/-- Two texts with a mark between them also have the mark. -/
lemma words_mark {c : Char} (hc : isMark c = true) (front back : String) :
    words (front ++ String.singleton c ++ back) =
      words front ++ String.singleton c :: words back := by
  rw [words, String.toList_append, String.toList_append, List.append_assoc,
    String.toList_singleton, List.singleton_append, splitFrom_separator (Or.inr hc), separator,
    if_pos hc]
  rfl

/-- Two texts with a comma and a blank between them also have the comma. -/
lemma words_comma (front back : String) :
    words (front ++ ", " ++ back) = words front ++ [","] ++ words back := by
  have hcomma : ", " = String.singleton ',' ++ "" ++ " " := by decide
  rw [hcomma, ← String.append_assoc, words_blank, ← String.append_assoc, words_mark rfl]
  rfl

/-- Whether a text is a single word. -/
def IsWord (text : String) : Prop :=
  text ≠ "" ∧ ∀ c ∈ text.toList, c ≠ ' ' ∧ isMark c = false

lemma words_word {text : String} (h : IsWord text) : words text = [text] := by
  have hsplit : ∀ rest word : List Char, (∀ c ∈ rest, c ≠ ' ' ∧ isMark c = false) →
      splitFrom word rest = finish (word ++ rest) [] := by
    intro rest
    induction rest with
    | nil => exact fun word _ => by rw [List.append_nil]; rfl
    | cons c rest ih =>
        intro word hrest
        obtain ⟨⟨hblank, hmark⟩, hrest⟩ := List.forall_mem_cons.mp hrest
        rw [splitFrom, if_neg hblank, if_neg (by simp [hmark]), ih _ hrest, List.append_assoc]
        rfl
  have hne : text.toList ≠ [] := fun hnil => h.1 (String.toList_inj.mp hnil)
  rw [words, hsplit _ _ h.2, finish, List.nil_append, if_neg (by simpa using hne),
    String.ofList_toList]

/-- Texts strung together have the words of all, with those of what stands between them. -/
lemma words_intercalate {between : String} (middle : List String)
    (h : ∀ front back, words (front ++ between ++ back) = words front ++ middle ++ words back)
    (texts : List String) :
    words (between.intercalate texts) = middle.intercalate (texts.map words) := by
  induction texts with
  | nil => rfl
  | cons text rest ih =>
      cases rest with
      | nil => simp
      | cons next more =>
          rw [String.intercalate_cons_cons, h, ih]
          exact List.intercalate_cons_cons.symm

/-! ## Clauses -/

/-- A sign and digits are a single word. -/
lemma isWord_placed {text : String} {c d : Char} {n : ℕ}
    (htext : text.toList = c :: d :: natDigits n) (hc : c ≠ ' ' ∧ isMark c = false)
    (hd : d ≠ ' ' ∧ isMark d = false) : IsWord text := by
  constructor
  · rintro rfl
    cases htext
  · rw [htext]
    refine List.forall_mem_cons.mpr ⟨hc, List.forall_mem_cons.mpr ⟨hd, fun e he => ?_⟩⟩
    have hdigit := Decimal.isAsciiDigit_iff.mp (Decimal.allDigits_natDigits n e he)
    -- blanks and marks come before the digits
    have hother : ∀ other : Char, other.toNat < 48 → e ≠ other := by
      rintro other hother rfl
      omega
    simp only [isMark, Bool.or_eq_false_iff, decide_eq_false_iff_not]
    exact ⟨hother _ (by decide), ⟨hother _ (by decide), hother _ (by decide)⟩, hother _ (by decide)⟩

lemma toList_text_name (place : NamePlace) :
    place.text.toList = '#' :: 'n' :: natDigits place.index := by
  simp [NamePlace.text]

lemma toList_text_value (place : ValuePlace) :
    place.text.toList = ':' :: 'v' :: natDigits place.index := by
  simp [ValuePlace.text]

lemma words_name (place : NamePlace) : words place.text = [place.text] :=
  words_word (isWord_placed (toList_text_name place) (by decide) (by decide))

lemma words_value (place : ValuePlace) : words place.text = [place.text] :=
  words_word (isWord_placed (toList_text_value place) (by decide) (by decide))

/-- The words of a function called on an attribute. -/
lemma words_call {call function : String} (h : call = function ++ "(") (place : NamePlace) :
    words (call ++ place.text ++ ")") = words function ++ ["(", place.text, ")"] := by
  have hclose := words_mark (c := ')') rfl (call ++ place.text) ""
  rw [String.append_empty] at hclose
  have hopen := words_mark (c := '(') rfl function place.text
  rw [words_name] at hopen
  have hwords : words (call ++ place.text) = words function ++ ["(", place.text] := h ▸ hopen
  refine hclose.trans ?_
  rw [hwords, List.append_assoc]
  rfl

/-- The words of a condition. -/
def Clause.words : Clause → List String
  | compare name comparison value => [name.text, comparison.sign, value.text]
  | between name low high => [name.text, "BETWEEN", low.text, "AND", high.text]
  | present name => ["attribute_exists", "(", name.text, ")"]
  | absent name => ["attribute_not_exists", "(", name.text, ")"]

/-- The words of an assignment. -/
def Assignment.words (assignment : Assignment) : List String :=
  [assignment.name.text, "=", assignment.value.text]

/-- **The text of a condition has its words.** -/
theorem words_clause (clause : Clause) : words clause.text = clause.words := by
  cases clause with
  | compare name comparison value =>
      change words (name.text ++ " " ++ comparison.sign ++ " " ++ value.text) = _
      rw [words_blank, words_blank, words_name, words_value]
      cases comparison <;> rfl
  | between name low high =>
      have hbetween : " BETWEEN " = " " ++ "BETWEEN" ++ " " := by decide
      have hand : " AND " = " " ++ "AND" ++ " " := by decide
      change words (name.text ++ " BETWEEN " ++ low.text ++ " AND " ++ high.text) = _
      rw [hbetween, hand]
      simp only [← String.append_assoc, words_blank, words_name, words_value]
      rfl
  | present name =>
      change words ("attribute_exists(" ++ name.text ++ ")") = _
      exact words_call (by decide : _ = "attribute_exists" ++ "(") name
  | absent name =>
      change words ("attribute_not_exists(" ++ name.text ++ ")") = _
      exact words_call (by decide : _ = "attribute_not_exists" ++ "(") name

/-- **So does the text of an assignment.** -/
theorem words_assignment (assignment : Assignment) :
    words assignment.text = assignment.words := by
  have hequals : " = " = " " ++ "=" ++ " " := by decide
  change words (assignment.name.text ++ " = " ++ assignment.value.text) = _
  rw [hequals]
  simp only [← String.append_assoc, words_blank, words_name, words_value]
  rfl

/-! ## Many clauses -/

/-- The words of conditions strung together. -/
lemma words_conditions (clauses : List Clause) :
    words (" AND ".intercalate (clauses.map Clause.text)) =
      ["AND"].intercalate (clauses.map Clause.words) := by
  have hand : " AND " = " " ++ "AND" ++ " " := by decide
  have hbetween : ∀ front back,
      words (front ++ " AND " ++ back) = words front ++ ["AND"] ++ words back := by
    intro front back
    rw [hand]
    simp only [← String.append_assoc, words_blank]
    rfl
  rw [words_intercalate ["AND"] hbetween, List.map_map]
  exact congrArg _ (List.map_congr_left fun clause _ => words_clause clause)

/-- The words of assignments strung together. -/
lemma words_assignments (assignments : List Assignment) :
    words ("SET " ++ ", ".intercalate (assignments.map Assignment.text)) =
      "SET" :: [","].intercalate (assignments.map Assignment.words) := by
  have hset : "SET " = "SET" ++ " " := by decide
  rw [hset, words_blank, words_intercalate [","] words_comma, List.map_map]
  exact congrArg ("SET" :: [","].intercalate ·)
    (List.map_congr_left fun assignment _ => words_assignment assignment)

/-! ## Placeholders -/

/-- The placeholder of a condition's attribute. -/
def Clause.name : Clause → NamePlace
  | compare name _ _ | between name _ _ | present name | absent name => name

/-- The placeholders of a condition's operands. -/
def Clause.operands : Clause → List ValuePlace
  | compare _ _ value => [value]
  | between _ low high => [low, high]
  | present _ | absent _ => []

/-- Whether a text is a placeholder, of a name or of a value. -/
def IsPlace (word : String) : Prop :=
  word.toList.head? = some '#' ∨ word.toList.head? = some ':'

instance decidableIsPlace (word : String) : Decidable (IsPlace word) :=
  inferInstanceAs (Decidable (_ ∨ _))

lemma head_text_name (place : NamePlace) : place.text.toList.head? = some '#' := by
  rw [toList_text_name]
  rfl

lemma head_text_value (place : ValuePlace) : place.text.toList.head? = some ':' := by
  rw [toList_text_value]
  rfl

lemma isPlace_name (place : NamePlace) : IsPlace place.text :=
  Or.inl (head_text_name place)

lemma isPlace_value (place : ValuePlace) : IsPlace place.text :=
  Or.inr (head_text_value place)

lemma mem_intercalate {middle : List String} {word : String} (hmiddle : word ∉ middle)
    (parts : List (List String)) :
    word ∈ middle.intercalate parts ↔ ∃ part ∈ parts, word ∈ part := by
  induction parts with
  | nil => simp
  | cons part rest ih =>
      cases rest with
      | nil => simp
      | cons next more =>
          rw [List.intercalate_cons_cons, List.mem_append, List.mem_append, ih]
          simp [hmiddle]

/-- The words of expressions that are no placeholders. -/
def fixedWords : List String :=
  ["=", ">=", "<=", "BETWEEN", "AND", "SET", "attribute_exists", "attribute_not_exists", "(", ")",
    ","]

lemma not_mem_fixedWords {word : String} (h : IsPlace word) : word ∉ fixedWords := by
  intro hword
  have hfixed : ∀ other ∈ fixedWords, ¬IsPlace other := by decide
  exact hfixed word hword h

/-- The placeholders among the words of a condition. -/
lemma Clause.mem_words {clause : Clause} {word : String} (h : IsPlace word) :
    word ∈ clause.words ↔
      word = clause.name.text ∨ ∃ place ∈ clause.operands, word = place.text := by
  have hplain := not_mem_fixedWords h
  simp only [fixedWords, List.mem_cons, not_or] at hplain
  cases clause with
  | compare name comparison value =>
      cases comparison <;> simp [Clause.words, Clause.name, operands, Comparison.sign, hplain]
  | between name low high => simp [Clause.words, Clause.name, operands, hplain]
  | present name => simp [Clause.words, Clause.name, operands, hplain]
  | absent name => simp [Clause.words, Clause.name, operands, hplain]

/-- **The placeholders among the words of many conditions** are theirs. -/
theorem mem_words_conditions {clauses : List Clause} {word : String} (h : IsPlace word) :
    word ∈ words (" AND ".intercalate (clauses.map Clause.text)) ↔
      (∃ place ∈ clauses.map Clause.name, word = place.text) ∨
        ∃ place ∈ clauses.flatMap Clause.operands, word = place.text := by
  have hplain := not_mem_fixedWords h
  simp only [fixedWords, List.mem_cons, not_or] at hplain
  rw [words_conditions, mem_intercalate (by simp [hplain])]
  simp only [List.mem_map, exists_exists_and_eq_and, Clause.mem_words h, List.mem_flatMap]
  constructor
  · rintro ⟨clause, hclause, hname | ⟨place, hplace, hvalue⟩⟩
    · exact Or.inl ⟨clause, hclause, hname⟩
    · exact Or.inr ⟨place, ⟨clause, hclause, hplace⟩, hvalue⟩
  · rintro (⟨clause, hclause, hname⟩ | ⟨place, ⟨clause, hclause, hplace⟩, hvalue⟩)
    · exact ⟨clause, hclause, Or.inl hname⟩
    · exact ⟨clause, hclause, Or.inr ⟨place, hplace, hvalue⟩⟩

/-- **So are those of many assignments.** -/
theorem mem_words_assignments {assignments : List Assignment} {word : String} (h : IsPlace word) :
    word ∈ words ("SET " ++ ", ".intercalate (assignments.map Assignment.text)) ↔
      (∃ place ∈ assignments.map Assignment.name, word = place.text) ∨
        ∃ place ∈ assignments.map Assignment.value, word = place.text := by
  have hplain := not_mem_fixedWords h
  simp only [fixedWords, List.mem_cons, not_or] at hplain
  rw [words_assignments, List.mem_cons, mem_intercalate (by simp [hplain])]
  simp only [hplain, false_or, List.mem_map, exists_exists_and_eq_and, Assignment.words,
    List.mem_cons, or_false, and_or_left, exists_or]

end RankedTable

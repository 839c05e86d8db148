import Mathlib.Data.Nat.Notation
import Mathlib.Tactic.Lemma
import Mathlib.Tactic.SplitIfs
import RankedTable.Tree.Json

/-!
# Documents are read back

A document of texts, lists and records is read back as the tree it was written from, if it does not
nest deeper than the reader allows; otherwise it is refused.

* `Tree.depth` — how many levels a tree nests.
* `Tree.IsTextual` — trees of texts, lists and records.
* `readText_escaped` — a text is read up to its closing quote, escapes undone.
* `readValue_writeValue` — a tree is read back, or is too deep, whatever comes after it.
* **`readDocument_writeValue`** — so is a whole document.
-/

namespace RankedTable

namespace Tree

mutual

/-- How many levels a tree nests; a list or record without contents adds none. -/
def depth : Tree → ℕ
  | .list elems => if elems.isEmpty then 0 else elemsDepth elems + 1
  | .record fields => if fields.isEmpty then 0 else fieldsDepth fields + 1
  | _ => 0

/-- How many levels the deepest of some trees nests. -/
def elemsDepth : List Tree → ℕ
  | [] => 0
  | elem :: rest => max elem.depth (elemsDepth rest)

/-- How many levels the deepest of some fields nests. -/
def fieldsDepth : List (String × Tree) → ℕ
  | [] => 0
  | (_, tree) :: rest => max tree.depth (fieldsDepth rest)

end

mutual

/-- Trees of texts, lists and records alone. -/
def IsTextual : Tree → Prop
  | .text _ => True
  | .list elems => AllTextual elems
  | .record fields => FieldsTextual fields
  | _ => False

/-- Lists of such trees. -/
def AllTextual : List Tree → Prop
  | [] => True
  | elem :: rest => elem.IsTextual ∧ AllTextual rest

/-- Fields with such trees. -/
def FieldsTextual : List (String × Tree) → Prop
  | [] => True
  | (_, tree) :: rest => tree.IsTextual ∧ FieldsTextual rest

end

end Tree

namespace Json

/-! ## Texts -/

/-- The escape of a control character names its code. -/
lemma hex4?_control : ∀ n < 32, hex4? '0' '0' (hexDigit (n / 16)) (hexDigit (n % 16)) = some n := by
  decide

lemma readText_short {e c : Char} (rest : List Char) (h : shortEscape? e = some c) :
    readText ('\\' :: e :: rest) = (readText rest).map fun (text, rest) => (c :: text, rest) := by
  have he : e ≠ 'u' := by
    rintro rfl
    cases h
  rw [readText, h]
  exact fun _ _ _ _ _ hu => absurd hu he

lemma readText_unicode {a b c d : Char} {n : ℕ} (rest : List Char) (h : hex4? a b c d = some n)
    (hn : n < 0xd800) :
    readText ('\\' :: 'u' :: a :: b :: c :: d :: rest) =
      (readText rest).map fun (text, rest) => (Char.ofNat n :: text, rest) := by
  rw [readText, h]
  dsimp only
  rw [if_neg (by omega), if_neg (by omega)]

lemma readText_plain {c : Char} (rest : List Char) (hquote : c ≠ '\x22') (hslash : c ≠ '\\')
    (hcontrol : ¬c.toNat < 32) :
    readText (c :: rest) = (readText rest).map fun (text, rest) => (c :: text, rest) := by
  rw [readText]
  · exact if_neg (not_or.mpr ⟨hcontrol, hslash⟩)
  · exact fun h => absurd h hquote
  · exact fun _ _ _ _ _ h => absurd h hslash
  · exact fun _ _ h => absurd h hslash

/-- A character is read back, whether it is escaped or not. -/
lemma readText_escapeChar (c : Char) (rest : List Char) :
    readText (escapeChar c ++ rest) =
      (readText rest).map fun (text, rest) => (c :: text, rest) := by
  rw [escapeChar]
  split_ifs with hquote hslash hback hfeed hline hreturn htab hcontrol
  rotate_left 7
  · have hcode : hexPadded 4 c.toNat =
        ['0', '0', hexDigit (c.toNat / 16), hexDigit (c.toNat % 16)] := by
      have hlow : c.toNat / 16 % 16 = c.toNat / 16 := by omega
      have hzero : c.toNat / 256 % 16 = 0 ∧ c.toNat / 4096 % 16 = 0 := by omega
      change [hexDigit (c.toNat / 4096 % 16), hexDigit (c.toNat / 256 % 16),
        hexDigit (c.toNat / 16 % 16), hexDigit (c.toNat / 1 % 16)] = _
      rw [hlow, hzero.1, hzero.2, Nat.div_one]
      rfl
    rw [hcode]
    exact (readText_unicode rest (hex4?_control _ hcontrol) (by omega)).trans
      (by rw [Char.ofNat_toNat])
  · exact readText_plain rest hquote hslash hcontrol
  -- what is left has a short escape
  all_goals
    subst_vars
    exact readText_short rest (by rfl)

/-- **A text is read up to its closing quote**, with all escapes undone. -/
theorem readText_escaped (cs rest : List Char) :
    readText (cs.flatMap escapeChar ++ '\x22' :: rest) = some (cs, rest) := by
  induction cs with
  | nil =>
      rw [List.flatMap_nil, List.nil_append, readText]
  | cons c cs ih =>
      rw [List.flatMap_cons, List.append_assoc, readText_escapeChar, ih]
      rfl

/-! ## One step of a reader -/

lemma skipSpaces_cons {c : Char} (cs : List Char) (h : isSpace c = false) :
    skipSpaces (c :: cs) = c :: cs :=
  List.dropWhile_cons_of_neg (by simp [h])

lemma readValue_text (steps depth : ℕ) (s : String) (rest : List Char) :
    readValue (steps + 1) depth (writeText s ++ rest) = some (.text s, rest) := by
  have hquote : readValue (steps + 1) depth (writeText s ++ rest) =
      (readText (s.toList.flatMap escapeChar ++ ['\x22'] ++ rest)).map fun (text, rest) =>
        (.text (String.ofList text), rest) := by
    rw [readValue]
    rfl
  rw [hquote, List.append_assoc, List.singleton_append, readText_escaped, Option.map_some]
  dsimp only
  rw [String.ofList_toList]

/-- A list with contents takes a level. -/
lemma readValue_list {c : Char} (steps depth : ℕ) (cs : List Char) (hspace : isSpace c = false)
    (hclose : c ≠ ']') :
    readValue (steps + 1) 0 ('[' :: c :: cs) = none ∧
      readValue (steps + 1) (depth + 1) ('[' :: c :: cs) =
        (readElems steps depth (c :: cs)).map fun (elems, rest) => (.list elems, rest) := by
  have hopen : skipSpaces ('[' :: c :: cs) = '[' :: c :: cs := rfl
  constructor <;> simp [readValue, hopen, skipSpaces_cons cs hspace, hclose]

/-- So does a record with contents. -/
lemma readValue_record (steps depth : ℕ) (cs : List Char) :
    readValue (steps + 1) 0 ('\x7b' :: '\x22' :: cs) = none ∧
      readValue (steps + 1) (depth + 1) ('\x7b' :: '\x22' :: cs) =
        (readFields steps depth ('\x22' :: cs)).map fun (fields, rest) =>
          (.record fields, rest) := by
  constructor <;> rw [readValue] <;> rfl

/-- A field that cannot be read ends the record. -/
lemma readFields_none {steps depth : ℕ} {cs : List Char} (name : String)
    (h : readValue steps depth cs = none) :
    readFields (steps + 1) depth (writeText name ++ ':' :: cs) = none := by
  simp [readFields, writeText, skipSpaces_cons, isSpace, readText_escaped, h]

/-- The last field. -/
lemma readFields_last {steps depth : ℕ} {cs rest : List Char} {tree : Tree} (name : String)
    (h : readValue steps depth cs = some (tree, '\x7d' :: rest)) :
    readFields (steps + 1) depth (writeText name ++ ':' :: cs) = some ([(name, tree)], rest) := by
  simp [readFields, writeText, skipSpaces_cons, isSpace, readText_escaped, h]

/-- A field with others after it. -/
lemma readFields_more {steps depth : ℕ} {cs rest : List Char} {tree : Tree} (name : String)
    (h : readValue steps depth cs = some (tree, ',' :: rest)) :
    readFields (steps + 1) depth (writeText name ++ ':' :: cs) =
      (readFields steps depth rest).map fun (fields, rest) => ((name, tree) :: fields, rest) := by
  simp [readFields, writeText, skipSpaces_cons, isSpace, readText_escaped, h]

lemma writeElems_cons (elem next : Tree) (more : List Tree) :
    writeElems (elem :: next :: more) = writeValue elem ++ ',' :: writeElems (next :: more) := by
  rw [writeElems]
  exact List.cons_ne_nil _ _

lemma writeFields_cons (name : String) (tree : Tree) (next : String × Tree)
    (more : List (String × Tree)) :
    writeFields ((name, tree) :: next :: more) =
      writeText name ++ ':' :: (writeValue tree ++ ',' :: writeFields (next :: more)) := by
  rw [writeFields]
  · rw [List.append_assoc, List.cons_append]
  · exact List.cons_ne_nil _ _

/-- What is written for a textual tree starts with a mark of its own. -/
lemma writeValue_head {tree : Tree} (h : tree.IsTextual) :
    ∃ c cs, writeValue tree = c :: cs ∧ isSpace c = false ∧ c ≠ ']' := by
  cases tree with
  | text s => exact ⟨'\x22', _, rfl, rfl, by decide⟩
  | list elems => exact ⟨'[', _, rfl, rfl, by decide⟩
  | record fields => exact ⟨'\x7b', _, rfl, rfl, by decide⟩
  | _ => exact absurd h (by simp [Tree.IsTextual])

/-! ## Whole trees -/

mutual

/-- **A tree is read back, or is too deep**, whatever comes after it. -/
theorem readValue_writeValue : ∀ (tree : Tree) (steps depth : ℕ) (rest : List Char),
    tree.IsTextual → (writeValue tree).length ≤ steps →
      readValue steps depth (writeValue tree ++ rest) =
        if tree.depth ≤ depth then some (tree, rest) else none
  | .text s, 0, depth, rest, _, hsteps => by simp [writeValue, writeText] at hsteps
  | .text s, steps + 1, depth, rest, _, _ => by
      rw [if_pos (by simp [Tree.depth]), writeValue, readValue_text]
  | .list elems, 0, depth, rest, _, hsteps => by simp [writeValue] at hsteps
  | .list [], steps + 1, depth, rest, _, _ => by
      rw [if_pos (by simp [Tree.depth]), readValue]
      rfl
  | .list (elem :: elems), steps + 1, depth, rest, htextual, hsteps => by
      rw [Tree.IsTextual] at htextual
      rw [writeValue, List.length_cons] at hsteps
      have helems := fun depth => readElems_writeElems (elem :: elems) steps depth rest htextual
        (List.cons_ne_nil _ _) (by omega)
      obtain ⟨c, cs, hwritten, hspace, hclose⟩ : ∃ c cs, writeElems (elem :: elems) = c :: cs ∧
          isSpace c = false ∧ c ≠ ']' := by
        obtain ⟨c, cs, hhead, hspace, hclose⟩ := writeValue_head htextual.1
        cases elems with
        | nil => exact ⟨c, cs ++ [']'], by rw [writeElems, hhead, List.cons_append], hspace, hclose⟩
        | cons next more =>
            exact ⟨c, _, by rw [writeElems_cons, hhead, List.cons_append], hspace, hclose⟩
      rw [writeValue, hwritten, List.cons_append, List.cons_append]
      cases depth with
      | zero =>
          rw [(readValue_list steps 0 (cs ++ rest) hspace hclose).1]
          simp [Tree.depth]
      | succ depth =>
          rw [(readValue_list steps depth (cs ++ rest) hspace hclose).2, ← List.cons_append,
            ← hwritten, helems depth, Tree.depth]
          simp only [List.isEmpty_cons, Bool.false_eq_true, if_false, Nat.add_le_add_iff_right]
          split_ifs <;> rfl
  | .record fields, 0, depth, rest, _, hsteps => by simp [writeValue] at hsteps
  | .record [], steps + 1, depth, rest, _, _ => by
      rw [if_pos (by simp [Tree.depth]), readValue]
      rfl
  | .record (field :: fields), steps + 1, depth, rest, htextual, hsteps => by
      rw [Tree.IsTextual] at htextual
      rw [writeValue, List.length_cons] at hsteps
      have hfields := fun depth => readFields_writeFields (field :: fields) steps depth rest
        htextual (List.cons_ne_nil _ _) (by omega)
      obtain ⟨cs, hwritten⟩ : ∃ cs, writeFields (field :: fields) = '\x22' :: cs := by
        cases fields <;> exact ⟨_, rfl⟩
      rw [writeValue, hwritten, List.cons_append, List.cons_append]
      cases depth with
      | zero =>
          rw [(readValue_record steps 0 (cs ++ rest)).1]
          simp [Tree.depth]
      | succ depth =>
          rw [(readValue_record steps depth (cs ++ rest)).2, ← List.cons_append, ← hwritten,
            hfields depth, Tree.depth]
          simp only [List.isEmpty_cons, Bool.false_eq_true, if_false, Nat.add_le_add_iff_right]
          split_ifs <;> rfl
  | .null, _, _, _, htextual, _ => absurd htextual (by simp [Tree.IsTextual])
  | .bool _, _, _, _, htextual, _ => absurd htextual (by simp [Tree.IsTextual])
  | .int _, _, _, _, htextual, _ => absurd htextual (by simp [Tree.IsTextual])
  | .float _, _, _, _, htextual, _ => absurd htextual (by simp [Tree.IsTextual])
  | .bytes _, _, _, _, htextual, _ => absurd htextual (by simp [Tree.IsTextual])

theorem readElems_writeElems : ∀ (elems : List Tree) (steps depth : ℕ) (rest : List Char),
    Tree.AllTextual elems → elems ≠ [] → (writeElems elems).length ≤ steps →
      readElems steps depth (writeElems elems ++ rest) =
        if Tree.elemsDepth elems ≤ depth then some (elems, rest) else none
  | [], _, _, _, _, hne, _ => absurd rfl hne
  | [elem], 0, _, _, _, _, hsteps => by simp [writeElems] at hsteps
  | [elem], steps + 1, depth, rest, htextual, _, hsteps => by
      rw [writeElems, List.length_append, List.length_singleton] at hsteps
      rw [writeElems, readElems, List.append_assoc,
        readValue_writeValue elem steps depth _ htextual.1 (by omega), Tree.elemsDepth,
        Tree.elemsDepth, Nat.max_zero]
      split_ifs <;> rfl
  | elem :: next :: more, 0, _, _, _, _, hsteps => by simp [writeElems_cons] at hsteps
  | elem :: next :: more, steps + 1, depth, rest, htextual, _, hsteps => by
      rw [writeElems_cons, List.length_append, List.length_cons] at hsteps
      rw [writeElems_cons, readElems, List.append_assoc, List.cons_append,
        readValue_writeValue elem steps depth _ htextual.1 (by omega), Tree.elemsDepth]
      have hmore := readElems_writeElems (next :: more) steps depth rest htextual.2
        (List.cons_ne_nil _ _) (by omega)
      by_cases helem : elem.depth ≤ depth
      · rw [if_pos helem]
        change (readElems steps depth (writeElems (next :: more) ++ rest)).map _ = _
        rw [hmore]
        simp only [Nat.max_le, helem, true_and]
        split_ifs <;> rfl
      · rw [if_neg helem, if_neg fun h => helem (Nat.max_le.mp h).1]

theorem readFields_writeFields : ∀ (fields : List (String × Tree)) (steps depth : ℕ)
    (rest : List Char),
    Tree.FieldsTextual fields → fields ≠ [] → (writeFields fields).length ≤ steps →
      readFields steps depth (writeFields fields ++ rest) =
        if Tree.fieldsDepth fields ≤ depth then some (fields, rest) else none
  | [], _, _, _, _, hne, _ => absurd rfl hne
  | [(name, tree)], 0, _, _, _, _, hsteps => by simp [writeFields, writeText] at hsteps
  | [(name, tree)], steps + 1, depth, rest, htextual, _, hsteps => by
      rw [writeFields, List.length_append, List.length_append, List.length_cons] at hsteps
      have htree := readValue_writeValue tree steps depth ('\x7d' :: rest) htextual.1 (by omega)
      rw [writeFields, List.append_assoc, List.append_assoc, List.cons_append, Tree.fieldsDepth,
        Tree.fieldsDepth, Nat.max_zero]
      split_ifs at htree ⊢
      · exact readFields_last name htree
      · exact readFields_none name htree
  | (name, tree) :: next :: more, 0, _, _, _, _, hsteps => by
      simp [writeFields_cons, writeText] at hsteps
  | (name, tree) :: next :: more, steps + 1, depth, rest, htextual, _, hsteps => by
      rw [writeFields_cons, List.length_append, List.length_cons, List.length_append,
        List.length_cons] at hsteps
      have htree := readValue_writeValue tree steps depth
        (',' :: (writeFields (next :: more) ++ rest)) htextual.1 (by omega)
      have hmore := readFields_writeFields (next :: more) steps depth rest htextual.2
        (List.cons_ne_nil _ _) (by omega)
      rw [writeFields_cons, List.append_assoc, List.cons_append, List.append_assoc,
        List.cons_append, Tree.fieldsDepth]
      by_cases hdepth : tree.depth ≤ depth
      · rw [if_pos hdepth] at htree
        rw [readFields_more name htree, hmore]
        simp only [Nat.max_le, hdepth, true_and]
        split_ifs <;> rfl
      · rw [if_neg hdepth] at htree
        rw [readFields_none name htree, if_neg fun h => hdepth (Nat.max_le.mp h).1]

end

/-- **A document is read back if it does not nest too deep**, and is refused otherwise. -/
theorem readDocument_writeValue {tree : Tree} (h : tree.IsTextual) (depth : ℕ) :
    readDocument depth (writeValue tree) = if tree.depth ≤ depth then some tree else none := by
  have hread := readValue_writeValue tree (2 * (writeValue tree).length + 1) depth [] h (by omega)
  rw [List.append_nil] at hread
  rw [readDocument, hread]
  split_ifs <;> rfl

end Json

end RankedTable

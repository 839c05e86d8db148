import RankedTable.Proofs.Assoc
import RankedTable.Proofs.Except
import RankedTable.Proofs.OrderedSet
import RankedTable.Proofs.Text.Base64
import RankedTable.Proofs.Tree.Json
import RankedTable.Table.Basic

/-!
# Attributes are read back from their documents

A document lists the members of a set in any order, and everything else in the order of the value.
As long as no map has a name twice, the value is read back from each of its documents.

* `Value.IsDocument`, `Value.AreDocuments` — the documents of a value, and of named values.
* `Value.DistinctNames`, `Value.EntriesDistinct` — no map has a name twice, however deep it lies.
* `IsDocument.ofDocument` — a value is read back from each of its documents.
* **`readAttributes_toJson`** — attributes are read back from the text of each of their documents,
  if it does not nest too deep.
* `textWithin` — values that nest as deep as one likes.
-/

namespace RankedTable

namespace Value

/-! ## Documents of a value -/

mutual

/-- The documents of a value.  The members of a set may come in any order. -/
def IsDocument : Value → Tree → Prop
  | .text s, tree => tree = document .text [("value", .text s)]
  | .number digits, tree => tree = document .number [("value", .text digits)]
  | .binary b, tree => tree = document .binary [("value", .text (encodeBase64 b))]
  | .textSet members, tree => ∃ listed : List String, listed.Perm members.elems ∧
      tree = document .textSet [("values", .list (listed.map .text))]
  | .numberSet members, tree => ∃ listed : List String, listed.Perm members.elems ∧
      tree = document .numberSet [("values", .list (listed.map .text))]
  | .binarySet members, tree => ∃ listed : List Bytes, listed.Perm members.elems ∧
      tree = document .binarySet [("values", .list (listed.map fun b => .text (encodeBase64 b)))]
  | .map entries, tree => ∃ fields, AreDocuments entries fields ∧
      tree = document .map [("value", .record fields)]
  | .null, tree => tree = document .null []

/-- The documents of named values, each under its name. -/
def AreDocuments : List (String × Value) → List (String × Tree) → Prop
  | [], fields => fields = []
  | (name, value) :: rest, fields => ∃ tree more, value.IsDocument tree ∧ AreDocuments rest more ∧
      fields = (name, tree) :: more

end

mutual

/-- What is written for a value is one of its documents. -/
theorem isDocument_toDocument : ∀ value : Value, value.IsDocument value.toDocument
  | .text _ | .number _ | .binary _ | .null => rfl
  | .textSet members => ⟨members.elems, .refl _, rfl⟩
  | .numberSet members => ⟨members.elems, .refl _, rfl⟩
  | .binarySet members => ⟨members.elems, .refl _, rfl⟩
  | .map entries => ⟨_, areDocuments_entriesToDocument entries, rfl⟩

theorem areDocuments_entriesToDocument :
    ∀ entries : List (String × Value), AreDocuments entries (entriesToDocument entries)
  | [] => rfl
  | (_, value) :: rest =>
    ⟨_, _, isDocument_toDocument value, areDocuments_entriesToDocument rest, rfl⟩

end

mutual

/-- Whether no map has a name twice, however deep it lies. -/
def DistinctNames : Value → Prop
  | .map entries => EntriesDistinct entries
  | _ => True

/-- Whether named values have names of their own, and so do the maps in them. -/
def EntriesDistinct : List (String × Value) → Prop
  | [] => True
  | (name, value) :: rest =>
    name ∉ Assoc.names rest ∧ value.DistinctNames ∧ EntriesDistinct rest

end

lemma EntriesDistinct.nodup {entries : List (String × Value)} (h : EntriesDistinct entries) :
    (Assoc.names entries).Nodup := by
  induction entries with
  | nil => exact List.nodup_nil
  | cons e rest ih => exact List.nodup_cons.mpr ⟨h.1, ih h.2.2⟩

lemma EntriesDistinct.ofList {entries : List (String × Value)} (h : EntriesDistinct entries) :
    Assoc.ofList entries = entries :=
  Assoc.insertAll_nil h.nodup

/-! ## Reading one record -/

lemma ofDocument_value {kind : Kind} (tree : Tree) (h : kind ≠ .map) :
    ofDocument (document kind [("value", tree)]) = ofPayload kind.tag ⟨some tree, none⟩ := by
  rw [document, ofDocument]
  cases kind with
  | map => exact absurd rfl h
  | _ => rfl

lemma ofDocument_values {kind : Kind} (tree : Tree) (h : kind ≠ .map) :
    ofDocument (document kind [("values", tree)]) = ofPayload kind.tag ⟨none, some tree⟩ := by
  rw [document, ofDocument]
  cases kind with
  | map => exact absurd rfl h
  | _ => rfl

lemma ofDocument_map (fields : List (String × Tree)) :
    ofDocument (document .map [("value", .record fields)]) =
      (entriesOfDocument fields).map fun entries => .map (Assoc.ofList entries) := by
  have hfield : mapField [("kind", .text Kind.map.tag), ("value", .record fields)] =
      entriesOfDocument fields := by
    rw [mapField, if_neg (by simp), mapField, if_pos (by simp)]
    exact fun _ h => nomatch h
  rw [document, ofDocument]
  change (mapField [("kind", .text Kind.map.tag), ("value", .record fields)]).map _ = _
  rw [hfield]

/-- Texts are read back as the set they were listed from. -/
lemma textSetField_listed {members : OrderedSet String} {listed : List String}
    (h : listed.Perm members.elems) :
    textSetField (some (.list (listed.map .text))) = .ok members := by
  have hread : (listed.map Tree.text).mapM (fun t => textField (some t)) = .ok listed := by
    rw [List.mapM_map]
    exact (mapM_ok fun s _ => rfl).trans (congrArg _ (List.map_id listed))
  rw [textSetField, membersField, ok_bind, hread, ok_bind, OrderedSet.ofList_perm h]
  rfl

lemma bytesField_encoded (b : Bytes) : bytesField (some (.text (encodeBase64 b))) = .ok b := by
  rw [bytesField, textField, ok_bind, decodeBase64?_encodeBase64]

/-- Byte strings are read back as the set they were listed from. -/
lemma binarySetField_listed {members : OrderedSet Bytes} {listed : List Bytes}
    (h : listed.Perm members.elems) :
    binarySetField (some (.list (listed.map fun b => .text (encodeBase64 b)))) = .ok members := by
  have hread : (listed.map fun b => Tree.text (encodeBase64 b)).mapM
      (fun t => bytesField (some t)) = .ok listed := by
    rw [List.mapM_map]
    exact (mapM_ok fun b _ => bytesField_encoded b).trans (congrArg _ (List.map_id listed))
  rw [binarySetField, membersField, ok_bind, hread, ok_bind, OrderedSet.ofList_perm h]
  rfl

/-! ## Reading whole values -/

mutual

/-- **A value is read back from each of its documents.** -/
theorem IsDocument.ofDocument : ∀ {value : Value} {tree : Tree}, value.IsDocument tree →
    value.DistinctNames → ofDocument tree = .ok value
  | .text s, _, h, _ => by rw [h, ofDocument_value _ (by decide)]; rfl
  | .number digits, _, h, _ => by rw [h, ofDocument_value _ (by decide)]; rfl
  | .binary b, _, h, _ => by
      rw [h, ofDocument_value _ (by decide)]
      change (bytesField (some (.text (encodeBase64 b)))).map _ = _
      rw [bytesField_encoded]
      rfl
  | .textSet members, _, ⟨listed, hlisted, h⟩, _ => by
      rw [h, ofDocument_values _ (by decide)]
      change (textSetField _).map _ = _
      rw [textSetField_listed hlisted]
      rfl
  | .numberSet members, _, ⟨listed, hlisted, h⟩, _ => by
      rw [h, ofDocument_values _ (by decide)]
      change (textSetField _).map _ = _
      rw [textSetField_listed hlisted]
      rfl
  | .binarySet members, _, ⟨listed, hlisted, h⟩, _ => by
      rw [h, ofDocument_values _ (by decide)]
      change (binarySetField _).map _ = _
      rw [binarySetField_listed hlisted]
      rfl
  | .map entries, _, ⟨fields, hfields, h⟩, hdistinct => by
      rw [h, ofDocument_map, hfields.entriesOfDocument hdistinct]
      change Except.ok (Value.map (Assoc.ofList entries)) = _
      rw [EntriesDistinct.ofList hdistinct]
  | .null, _, h, _ => by rw [h, document, ofDocument]; rfl

theorem AreDocuments.entriesOfDocument : ∀ {entries : List (String × Value)}
    {fields : List (String × Tree)}, AreDocuments entries fields → EntriesDistinct entries →
      entriesOfDocument fields = .ok entries
  | [], _, h, _ => by rw [h, entriesOfDocument]
  | (_, value) :: rest, _, ⟨tree, more, htree, hmore, h⟩, hdistinct => by
      rw [h, entriesOfDocument, htree.ofDocument hdistinct.2.1, ok_bind,
        hmore.entriesOfDocument hdistinct.2.2]
      rfl

end

/-! ## How deep a document nests -/

lemma allTextual_map {α : Type} (f : α → String) (l : List α) :
    Tree.AllTextual (l.map fun a => .text (f a)) := by
  induction l with
  | nil => trivial
  | cons a rest ih => exact ⟨trivial, ih⟩

lemma elemsDepth_map {α : Type} (f : α → String) (l : List α) :
    Tree.elemsDepth (l.map fun a => .text (f a)) = 0 := by
  induction l with
  | nil => rfl
  | cons a rest ih =>
      rw [List.map_cons, Tree.elemsDepth, ih]
      rfl

/-- A record nests deeper than its payload, and the kind adds nothing. -/
lemma depth_document (kind : Kind) (name : String) (tree : Tree) :
    (document kind [(name, tree)]).depth = 1 + tree.depth := by
  simp [document, Tree.depth, Tree.fieldsDepth, Nat.add_comm]

/-- The members of a set add a level if there are any. -/
lemma depth_members {α : Type} (f : α → String) {listed members : List α}
    (h : listed.Perm members) :
    (Tree.list (listed.map fun a => .text (f a))).depth = levelAround 0 (!members.isEmpty) := by
  rw [Tree.depth, elemsDepth_map, List.isEmpty_map, h.isEmpty_eq, levelAround]
  cases members.isEmpty <;> rfl

mutual

/-- Documents hold nothing but texts, lists and records. -/
theorem IsDocument.isTextual :
    ∀ {value : Value} {tree : Tree}, value.IsDocument tree → tree.IsTextual
  | .text _, _, h | .number _, _, h | .binary _, _, h => h ▸ ⟨trivial, trivial, trivial⟩
  | .textSet _, _, ⟨listed, _, h⟩ | .numberSet _, _, ⟨listed, _, h⟩ =>
      h ▸ ⟨trivial, allTextual_map id listed, trivial⟩
  | .binarySet _, _, ⟨listed, _, h⟩ => h ▸ ⟨trivial, allTextual_map encodeBase64 listed, trivial⟩
  | .map _, _, ⟨_, hfields, h⟩ => h ▸ ⟨trivial, hfields.fieldsTextual, trivial⟩
  | .null, _, h => h ▸ ⟨trivial, trivial⟩

theorem AreDocuments.fieldsTextual : ∀ {entries : List (String × Value)}
    {fields : List (String × Tree)}, AreDocuments entries fields → Tree.FieldsTextual fields
  | [], _, h => h ▸ trivial
  | _ :: _, _, ⟨_, _, htree, hmore, h⟩ => h ▸ ⟨htree.isTextual, hmore.fieldsTextual⟩

end

/-- The entries of a map add a level if there are any. -/
lemma AreDocuments.depth_record {entries : List (String × Value)} {fields : List (String × Tree)}
    (h : AreDocuments entries fields) (hdepth : Tree.fieldsDepth fields = entriesDepth entries) :
    (Tree.record fields).depth = levelAround (entriesDepth entries) (!entries.isEmpty) := by
  rw [Tree.depth, hdepth]
  cases entries with
  | nil => rw [AreDocuments.eq_1] at h; rw [h]; rfl
  | cons =>
      obtain ⟨_, _, _, _, rfl⟩ := h
      rfl

mutual

/-- Every document of a value nests as deep as the one that is written for it. -/
theorem IsDocument.depth_eq :
    ∀ {value : Value} {tree : Tree}, value.IsDocument tree → tree.depth = value.depth
  | .text _, _, h | .number _, _, h | .binary _, _, h => by rw [h, depth_document]; rfl
  | .textSet _, _, ⟨_, hlisted, h⟩ | .numberSet _, _, ⟨_, hlisted, h⟩ => by
      rw [h, depth_document, Value.depth, ← depth_members id hlisted]
      rfl
  | .binarySet _, _, ⟨_, hlisted, h⟩ => by
      rw [h, depth_document, Value.depth, ← depth_members encodeBase64 hlisted]
  | .map entries, _, ⟨fields, hfields, h⟩ => by
      rw [h, depth_document, Value.depth, hfields.depth_record hfields.fieldsDepth_eq]
  | .null, _, h => by rw [h]; rfl

theorem AreDocuments.fieldsDepth_eq : ∀ {entries : List (String × Value)}
    {fields : List (String × Tree)}, AreDocuments entries fields →
      Tree.fieldsDepth fields = entriesDepth entries
  | [], _, h => h ▸ rfl
  | _ :: _, _, ⟨_, _, htree, hmore, h⟩ => by
      rw [h, Tree.fieldsDepth, entriesDepth, htree.depth_eq, hmore.fieldsDepth_eq]

end

end Value

open Value

/-- **Attributes are read back from the text of each of their documents**, if it does not nest too
deep. -/
theorem readAttributes_toJson {attrs : Attributes} {fields : List (String × Tree)}
    (hdistinct : EntriesDistinct attrs) (hfields : AreDocuments attrs fields) :
    readAttributes (Tree.record fields).toJson = Table.readBack attrs := by
  have htextual : (Tree.record fields).IsTextual := hfields.fieldsTextual
  rw [readAttributes, Tree.ofJson?, Tree.toJson, String.toList_ofList,
    Json.readDocument_writeValue htextual, hfields.depth_record hfields.fieldsDepth_eq,
    Table.readBack, Attributes.depth]
  split_ifs
  · change (entriesOfDocument fields).map Assoc.ofList = _
    rw [hfields.entriesOfDocument hdistinct]
    exact congrArg Except.ok hdistinct.ofList
  · rfl

/-! ## What can be written -/

namespace Value

/-- A value with entries nests by their level and its own. -/
lemma two_mul_le_levelAround {entries : List (String × Value)}
    (h : 2 * entriesNesting entries ≤ entriesDepth entries + 1) :
    2 * entriesNesting entries ≤ levelAround (entriesDepth entries) (!entries.isEmpty) := by
  cases entries with
  | nil => exact Nat.le_refl _
  | cons => exact h

mutual

/-- Each value inside others takes two levels of their document. -/
theorem nesting_le_depth : ∀ value : Value, 2 * value.nesting ≤ value.depth + 1
  | .text _ | .number _ | .binary _ | .null => Nat.le_refl _
  | .textSet _ | .numberSet _ | .binarySet _ => by
      rw [nesting, depth]
      · omega
      all_goals exact fun _ h => nomatch h
  | .map entries => by
      have h := two_mul_le_levelAround (entriesNesting_le_depth entries)
      rw [nesting, depth]
      omega

theorem entriesNesting_le_depth : ∀ entries : List (String × Value),
    2 * entriesNesting entries ≤ entriesDepth entries + 1
  | [] => Nat.zero_le _
  | (_, value) :: rest => by
      have hvalue := nesting_le_depth value
      have hrest := entriesNesting_le_depth rest
      rw [entriesNesting, entriesDepth]
      omega

end

end Value

/-- What can be read back can be written. -/
theorem canBeWritten_of_depth {attrs : Attributes} (h : attrs.depth ≤ Json.maxDepth) :
    attrs.canBeWritten = true := by
  have hdepth := two_mul_le_levelAround (entriesNesting_le_depth attrs)
  rw [Attributes.depth] at h
  have hmax : Json.maxDepth ≤ 2 * maxNesting := by decide
  exact decide_eq_true (by omega)

/-! ## Values as deep as one likes -/

/-- A text inside of maps. -/
def textWithin : ℕ → Value
  | 0 => .text "x"
  | n + 1 => .map [("m", textWithin n)]

lemma nesting_textWithin (n : ℕ) : (textWithin n).nesting = n + 1 := by
  induction n with
  | zero => rfl
  | succ n ih =>
      rw [textWithin, Value.nesting, Value.entriesNesting, ih, Value.entriesNesting]
      omega

lemma depth_textWithin (n : ℕ) : (textWithin n).depth = 2 * n + 1 := by
  induction n with
  | zero => rfl
  | succ n ih =>
      rw [textWithin, Value.depth, Value.entriesDepth, ih, Value.entriesDepth]
      simp only [Value.levelAround, List.isEmpty_cons, Bool.not_false, if_true]
      omega

lemma distinctNames_textWithin (n : ℕ) : (textWithin n).DistinctNames := by
  induction n with
  | zero => trivial
  | succ n ih => exact ⟨List.not_mem_nil, ih, trivial⟩

end RankedTable

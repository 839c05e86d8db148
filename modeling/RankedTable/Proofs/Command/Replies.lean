import RankedTable.Proofs.Command.Reached
import RankedTable.Proofs.Table.Page

/-!
# What clients' tables reply

In a client's table nothing nests, so what is stored can be read back, and a write of one more value
is not refused for its depth.  What is left is told by the attributes at the address alone.

* `Layout.get_ok` — what is read of an item.
* `Layout.IsAttribute` — the names under which conditions look at attributes.
* `ClientTable.store_get`, `ClientTable.readItem_ok` — reading never fails.
* **`ClientTable.reply_update`** — a write fails by a condition or by a value without a place in the
  index, and by nothing else; `ClientTable.update_text` — one of a text by a condition alone.
* `ClientTable.delete_present` — an item that is there is deleted.
-/

namespace RankedTable

/-- What is read of an item has the attributes that were asked for. -/
lemma Layout.get_ok {table : Table} {key : ItemKey} {name : String} {found : Option Item}
    (h : Layout.get table key (some [name]) = .ok found) :
    found.bind (·.get? name) = table.attribute? key name := by
  rw [Layout.get] at h
  split_ifs at h
  · obtain ⟨current, hload, h⟩ := bind_eq_ok.mp h
    rw [← Except.ok.inj h, Layout.load_ok hload, Table.attribute?]
    cases table.find? key with
    | none => rfl
    | some item => exact Assoc.get?_restrict _ (List.mem_singleton_self _)
  · cases h

/-! ## Attributes that conditions are on -/

/-- Whether a name is that of an attribute, and addresses no part of an item's key. -/
structure Layout.IsAttribute (layout : Layout) (name : String) : Prop where
  ne_item : name ≠ Condition.keyAttribute
  ne_partition : name ≠ layout.partitionName
  ne_member : name ≠ layout.memberName

section Conditions

variable {layout : Layout} {name : String} (h : layout.IsAttribute name)

include h

/-- Under the name of an attribute a condition reads the attribute. -/
lemma Layout.IsAttribute.read (table : Table) (key : ItemKey) :
    layout.read key ((table.find? key).map Item.attributes) name = table.attribute? key name := by
  rw [Table.attribute?]
  cases table.find? key with
  | none => rfl
  | some item =>
      change (if _ then _ else if _ then _ else _) = _
      rw [if_neg (not_or.mpr ⟨h.ne_item, h.ne_partition⟩), if_neg h.ne_member]
      rfl

/-- Conditions on an attribute look at nothing but the attribute. -/
lemma Layout.IsAttribute.check_congr {one other : Table} {key : ItemKey}
    (hsame : one.attribute? key name = other.attribute? key name) {conditions : List Condition}
    (hconditions : ∀ condition ∈ conditions, condition.subject = name) :
    layout.check key ((one.find? key).map Item.attributes) conditions =
      layout.check key ((other.find? key).map Item.attributes) conditions := by
  induction conditions with
  | nil => rfl
  | cons condition rest ih =>
      rw [Layout.check, Layout.check, hconditions condition (List.mem_cons_self ..), h.read, h.read,
        hsame, ih fun c hc => hconditions c (List.mem_cons_of_mem _ hc)]

end Conditions

/-! ## Clients' tables -/

/-- What does not nest in documents does not nest in other values. -/
lemma Value.nesting_of_depth {value : Value} (h : value.depth = 1) : value.nesting = 1 := by
  cases value with
  | map entries =>
      cases entries with
      | nil => rfl
      | cons e rest =>
          rw [Value.depth, Value.levelAround] at h
          simp at h
  | _ => rfl

namespace ClientTable

variable {settings : Settings} {table : Table}

lemma load_eq (h : ClientTable settings table) (key : ItemKey) :
    table.load key = .ok ((table.find? key).map Item.attributes) := by
  rw [Table.load]
  cases hitem : table.find? key with
  | none => rfl
  | some item =>
      dsimp only
      rw [h.readBack hitem]
      rfl

/-- An item is read, or found missing; there is no other way. -/
lemma store_get (h : ClientTable settings table) (key : ItemKey) (name : String) :
    ∃ found : Option Item, found.bind (·.get? name) = table.attribute? key name ∧
      settings.layout.store (.get key (some [name])) table = (.ok found, table) := by
  have hget : Layout.get table key (some [name]) =
      .ok (((table.find? key).map Item.attributes).map fun attrs =>
        ⟨key, attrs.restrict [name]⟩) := by
    rw [Layout.get, if_pos h.mirrors.isOpen, h.load_eq]
    rfl
  exact ⟨_, Layout.get_ok hget, congrArg (·, table) hget⟩

/-- With one more value that does not nest, an item can still be written. -/
lemma canBeWritten (h : ClientTable settings table) (key : ItemKey) (name : String) {value : Value}
    (hdepth : value.depth = 1) :
    Attributes.canBeWritten
      ((((table.find? key).map Item.attributes).getD []).insertAll [(name, value)]) = true := by
  have hnesting : ∀ {entries : List (String × Value)}, (∀ e ∈ entries, e.2.depth = 1) →
      Value.entriesNesting entries ≤ 1 := by
    intro entries hflat
    induction entries with
    | nil => exact Nat.zero_le _
    | cons e rest ih =>
        rw [Value.entriesNesting, Value.nesting_of_depth (hflat e (List.mem_cons_self ..))]
        exact Nat.max_le.mpr ⟨Nat.le_refl 1, ih fun e he => hflat e (List.mem_cons_of_mem _ he)⟩
  refine decide_eq_true (Nat.le_trans (hnesting fun e he => ?_) (by decide))
  rcases Assoc.mem_insertAll he with hold | hnew
  · cases hitem : table.find? key with
    | none =>
        rw [hitem] at hold
        exact absurd hold List.not_mem_nil
    | some item =>
        rw [hitem] at hold
        exact h.flat key item hitem e hold
  · rw [List.mem_singleton.mp hnew]
    exact hdepth

/-- **A write of one value fails by its conditions, or by a value without a place in the index**,
and by nothing else. -/
theorem reply_update (h : ClientTable settings table) (key : ItemKey) (name : String)
    {value : Value} (hdepth : value.depth = 1) (conditions : List Condition) :
    (settings.layout.store (.update key [(name, value)] conditions) table).1 =
      settings.layout.check key ((table.find? key).map Item.attributes) conditions >>= fun _ =>
        if settings.layout.indexed.contains name then value.sortText.map fun _ => ()
        else .ok () := by
  have hcommit : ∀ result : Except Error Table,
      (Layout.commit table result).1 = result.map fun _ => () := by
    intro result
    cases result <;> rfl
  rw [Layout.store, hcommit, Layout.update, if_pos h.mirrors.isOpen, h.load_eq, ok_bind]
  cases settings.layout.check key ((table.find? key).map Item.attributes) conditions with
  | error e => rfl
  | ok _ =>
      rw [ok_bind, ok_bind, if_pos (h.canBeWritten key name hdepth), Layout.writeIndex]
      split_ifs
      · cases value.sortText <;> rfl
      · rfl

/-- A write of one text fails by its conditions alone. -/
lemma update_text (h : ClientTable settings table) (key : ItemKey) (name text : String)
    (conditions : List Condition) :
    (settings.layout.update table key [(name, .text text)] conditions).map (fun _ => ()) =
      settings.layout.check key ((table.find? key).map Item.attributes) conditions := by
  have hreply := h.reply_update key name (show (Value.text text).depth = 1 from rfl) conditions
  have hplace : (if settings.layout.indexed.contains name then
      (Value.text text).sortText.map fun _ => ()
    else .ok ()) = (.ok () : Except Error Unit) := by
    split_ifs <;> rfl
  rw [hplace, Layout.store] at hreply
  generalize settings.layout.check key ((table.find? key).map Item.attributes) conditions = checked
    at hreply ⊢
  generalize settings.layout.update table key [(name, .text text)] conditions = updated
    at hreply ⊢
  cases updated <;> cases checked <;> exact hreply

/-- The items of a range can be read. -/
lemma readItem_ok (h : ClientTable settings table) {request : QueryRequest} {test : String → Bool}
    {row : Row} (hrow : row ∈ table.matching request test) : row.readItem = .ok row.item := by
  have hmem := Table.mem_rows_of_mem_matching hrow
  have hitem : table.find? row.item.key = some row.item := by
    cases hindex : request.index with
    | none =>
        rw [hindex] at hmem
        exact ((Table.mem_rows_items h.mirrors.items row).mp hmem).2.1
    | some subject =>
        rw [hindex] at hmem
        exact ((Table.mem_rows_index h.mirrors.rows row).mp hmem).2.1
  rw [Row.readItem, h.readBack hitem]
  rfl

/-- An item that is there is deleted. -/
lemma delete_present (h : ClientTable settings table) {key : ItemKey} {item : Item}
    (hitem : table.find? key = some item) :
    settings.layout.delete table key [.itemPresent] = .ok (table.remove key) := by
  rw [Layout.delete, if_pos h.mirrors.isOpen, h.load_eq, hitem]
  rfl

end ClientTable

end RankedTable

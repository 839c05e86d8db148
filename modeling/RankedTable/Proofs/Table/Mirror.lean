import RankedTable.Proofs.Assoc
import RankedTable.Proofs.Except
import RankedTable.Table.Store

/-!
# The index mirrors the items

A write puts an item and index rows separately.  What keeps them together is that each indexed
attribute of each item has exactly one row, with the text its value sorts by.

* `Table.attribute?`, `Table.indexed?` — what the items and what the index have at an address.
* `Mirrors` — the invariant.
* `update_ok`, `delete_ok` — what a write that succeeded did.
* `IndexWritten` — the index rows that an update leaves.
* `attribute?_update` — what is read after an update.
* `Layout.Step`, **`step_store`** — what a call does to a table; `store_invariant`.
* **`Mirrors.update`**, **`Mirrors.delete`**, **`Mirrors.store`** — writes keep the invariant.
-/

namespace RankedTable

/-! ## Keyed lists -/

section Keyed

variable {α κ : Type} [DecidableEq κ]

/-- In a list with one element for each key, the elements are those that are found. -/
lemma find?_key_iff {key : α → κ} {l : List α} (h : (l.map key).Nodup) (a : α) :
    l.find? (fun b => key b = key a) = some a ↔ a ∈ l := by
  constructor
  · exact List.mem_of_find?_eq_some
  · intro ha
    induction l with
    | nil => exact absurd ha (List.not_mem_nil)
    | cons b rest ih =>
        rw [List.map_cons, List.nodup_cons] at h
        rcases List.mem_cons.mp ha with rfl | ha
        · simp
        · have hne : key b ≠ key a := fun h0 => h.1 (h0 ▸ List.mem_map_of_mem ha)
          rw [List.find?_cons_of_neg (by simpa using hne)]
          exact ih h.2 ha

/-- Puts an element in the place of the one with its key, or at the end. -/
def put (key : α → κ) (a : α) : List α → List α
  | [] => [a]
  | b :: rest => if key b = key a then a :: rest else b :: put key a rest

lemma find?_put (key : α → κ) (a : α) (l : List α) (k : κ) :
    (put key a l).find? (key · = k) = if key a = k then some a else l.find? (key · = k) := by
  induction l with
  | nil => by_cases h : key a = k <;> simp [put, h]
  | cons b rest ih =>
      by_cases hb : key b = key a <;> by_cases hk : key a = k <;>
        simp_all [put, List.find?_cons]

lemma mem_map_put {key : α → κ} {a : α} {l : List α} {k : κ} (h : k ∈ (put key a l).map key) :
    k = key a ∨ k ∈ l.map key := by
  induction l with
  | nil => exact Or.inl (List.mem_singleton.mp h)
  | cons b rest ih =>
      rw [put] at h
      split_ifs at h with hb
      · rcases List.mem_cons.mp h with h | h
        · exact Or.inl h
        · exact Or.inr (List.mem_cons_of_mem _ h)
      · rcases List.mem_cons.mp h with h | h
        · exact Or.inr (h ▸ List.mem_cons_self ..)
        · exact (ih h).imp_right (List.mem_cons_of_mem _)

lemma nodup_put (key : α → κ) (a : α) {l : List α} (h : (l.map key).Nodup) :
    ((put key a l).map key).Nodup := by
  induction l with
  | nil => exact List.nodup_singleton _
  | cons b rest ih =>
      rw [List.map_cons, List.nodup_cons] at h
      rw [put]
      split_ifs with hb
      · rw [List.map_cons, List.nodup_cons, ← hb]
        exact h
      · rw [List.map_cons, List.nodup_cons]
        refine ⟨fun hmem => ?_, ih h.2⟩
        rcases mem_map_put hmem with hkey | hkey
        · exact hb hkey
        · exact h.1 hkey

/-- Nothing else is put. -/
lemma mem_put {key : α → κ} {a b : α} {l : List α} (h : b ∈ put key a l) : b = a ∨ b ∈ l := by
  induction l with
  | nil => exact Or.inl (List.mem_singleton.mp h)
  | cons c rest ih =>
      rw [put] at h
      split_ifs at h
      · exact (List.mem_cons.mp h).imp_right (List.mem_cons_of_mem _)
      · rcases List.mem_cons.mp h with rfl | h
        · exact Or.inr (List.mem_cons_self ..)
        · exact (ih h).imp_right (List.mem_cons_of_mem _)

/-- In the place of another element there is no new key. -/
lemma map_put_of_mem {key : α → κ} {a : α} {l : List α} (h : key a ∈ l.map key) :
    (put key a l).map key = l.map key := by
  induction l with
  | nil => exact absurd h List.not_mem_nil
  | cons b rest ih =>
      rw [put]
      split_ifs with hb
      · rw [List.map_cons, List.map_cons, hb]
      · have hrest := (List.mem_cons.mp h).resolve_left (Ne.symm hb)
        rw [List.map_cons, List.map_cons, ih hrest]

/-- A new key comes at the end. -/
lemma map_put_of_not_mem {key : α → κ} {a : α} {l : List α} (h : key a ∉ l.map key) :
    (put key a l).map key = l.map key ++ [key a] := by
  induction l with
  | nil => rfl
  | cons b rest ih =>
      obtain ⟨hb, hrest⟩ := not_or.mp (mt List.mem_cons.mpr h)
      rw [put, if_neg (Ne.symm hb), List.map_cons, List.map_cons, ih hrest, List.cons_append]

/-- Elements of other keys stay as they are. -/
lemma filter_put {key : α → κ} {a : α} {p : α → Bool} (hp : ∀ b, key b = key a → p b = false)
    (l : List α) : (put key a l).filter p = l.filter p := by
  induction l with
  | nil => simp [put, hp a rfl]
  | cons b rest ih =>
      rw [put]
      split_ifs with hb
      · rw [List.filter_cons_of_neg (by simp [hp a rfl]),
          List.filter_cons_of_neg (by simp [hp b hb])]
      · rw [List.filter_cons, List.filter_cons, ih]

end Keyed

namespace Table

/-! ## What is at an address -/

/-- An attribute of the item at an address. -/
def attribute? (table : Table) (key : ItemKey) (name : String) : Option Value :=
  (table.find? key).bind (·.get? name)

/-- The item and attribute that an index row is for. -/
def address (row : IndexRow) : ItemKey × String :=
  (row.key, row.subject)

/-- The text of the index row for an item's attribute. -/
def indexed? (table : Table) (key : ItemKey) (subject : String) : Option String :=
  (table.index.find? (address · = (key, subject))).map (·.sortText)

lemma putIn_eq_put (item : Item) (items : List Item) :
    putIn item items = put Item.key item items := by
  induction items with
  | nil => rfl
  | cons other rest ih => rw [putIn, put, ih]

lemma putRowIn_eq_put (row : IndexRow) (rows : List IndexRow) :
    putRowIn row rows = put address row rows := by
  induction rows with
  | nil => rfl
  | cons other rest ih =>
      rw [putRowIn, put, ih]
      simp only [address, Prod.mk.injEq]

lemma indexed?_putIndexRow (table : Table) (row : IndexRow) (key : ItemKey) (subject : String) :
    (table.putIndexRow row).indexed? key subject =
      if address row = (key, subject) then some row.sortText else table.indexed? key subject := by
  rw [indexed?, putIndexRow, putRowIn_eq_put, find?_put]
  split_ifs <;> rfl

lemma indexed?_remove (table : Table) (key other : ItemKey) (subject : String) :
    (table.remove key).indexed? other subject =
      if key = other then none else table.indexed? other subject := by
  rw [indexed?, remove, List.find?_filter]
  split_ifs with h
  · rw [Option.map_eq_none_iff, List.find?_eq_none]
    intro row _ hrow
    simp [address] at hrow
    exact hrow.1 (hrow.2.1.trans h.symm)
  · rw [indexed?]
    congr 2
    funext row
    by_cases hrow : address row = (other, subject)
    · have hkey : row.key = other := congrArg Prod.fst hrow
      simp [hrow, hkey, Ne.symm h]
    · simp [hrow]

lemma attribute?_remove (table : Table) (key other : ItemKey) (name : String) :
    (table.remove key).attribute? other name =
      if key = other then none else table.attribute? other name := by
  rw [attribute?, find?_remove]
  split_ifs <;> rfl

/-- Items that a deletion leaves were there before. -/
lemma find?_of_remove {table : Table} {key other : ItemKey} {item : Item}
    (h : (table.remove key).find? other = some item) : table.find? other = some item := by
  rw [find?_remove] at h
  split_ifs at h
  exact h

/-- So were their attributes. -/
lemma attribute?_of_remove {table : Table} {key other : ItemKey} {name : String} {value : Value}
    (h : (table.remove key).attribute? other name = some value) :
    table.attribute? other name = some value := by
  rw [attribute?_remove] at h
  split_ifs at h
  exact h

end Table

/-! ## The invariant -/

/-- The index and the items tell the same: one item at an address, one row for an attribute of it,
and a row for just those attributes that are indexed, with the text that the value sorts by. -/
structure Mirrors (layout : Layout) (table : Table) : Prop where
  isOpen : table.isOpen = true
  items : (table.items.map Item.key).Nodup
  rows : (table.index.map Table.address).Nodup
  row : ∀ key subject, table.indexed? key subject =
    if subject ∈ layout.indexed then (table.attribute? key subject).bind (·.sortText.toOption)
    else none
  sortable : ∀ key subject value, subject ∈ layout.indexed →
    table.attribute? key subject = some value → ∃ text, value.sortText = .ok text

lemma mirrors_empty (layout : Layout) : Mirrors layout {} where
  isOpen := rfl
  items := List.nodup_nil
  rows := List.nodup_nil
  row key subject := by
    change none = if _ then none else none
    rw [ite_self]
  sortable _ _ _ _ h := absurd h (by simp [Table.attribute?, Table.find?])

namespace Layout

variable {layout : Layout} {table table' : Table} {key : ItemKey} {updates : Attributes}
  {conditions : List Condition}

/-! ## Updates -/

/-- What is loaded are the attributes of the item, if it is there. -/
lemma load_ok {current : Option Attributes} (h : table.load key = .ok current) :
    current = (table.find? key).map Item.attributes := by
  rw [Table.load] at h
  cases hitem : table.find? key with
  | none =>
      rw [hitem] at h
      exact (Except.ok.inj h).symm
  | some item =>
      rw [hitem] at h
      dsimp only at h
      rw [Table.readBack] at h
      split_ifs at h
      · exact (Except.ok.inj h).symm
      · cases h

/-- What an update that succeeded did: its conditions held, and the item and the index rows were
written. -/
lemma update_ok (h : layout.update table key updates conditions = .ok table') :
    layout.check key ((table.find? key).map Item.attributes) conditions = .ok () ∧
      layout.writeIndex key
        (table.putItem ⟨key, (((table.find? key).map Item.attributes).getD []).insertAll updates⟩)
        updates = .ok table' := by
  rw [update] at h
  split_ifs at h
  · obtain ⟨current, hload, h⟩ := bind_eq_ok.mp h
    obtain ⟨⟨⟩, hcheck, h⟩ := bind_eq_ok.mp h
    rw [load_ok hload] at hcheck h
    dsimp only at h
    split_ifs at h
    · exact ⟨hcheck, h⟩
    · cases h
  · cases h

/-- The index after an update: rows for the latest values it wrote, and the rows from before. -/
structure IndexWritten (layout : Layout) (key : ItemKey) (updates : Attributes)
    (before after : Table) : Prop where
  items : after.items = before.items
  isOpen : after.isOpen = before.isOpen
  rows : (before.index.map Table.address).Nodup → (after.index.map Table.address).Nodup
  sortable : ∀ name value, (name, value) ∈ updates → name ∈ layout.indexed →
    ∃ text, value.sortText = .ok text
  indexed? : ∀ other subject, after.indexed? other subject =
    if key = other ∧ subject ∈ layout.indexed then
      ((Assoc.latest? updates subject).bind (·.sortText.toOption)).or
        (before.indexed? other subject)
    else before.indexed? other subject

/-- An indexed attribute is written first, and later ones may write over its row. -/
lemma IndexWritten.cons {name text : String} {value : Value} (hname : name ∈ layout.indexed)
    (htext : value.sortText = .ok text)
    (h : IndexWritten layout key updates (table.putIndexRow ⟨key, name, text⟩) table') :
    IndexWritten layout key ((name, value) :: updates) table table' := by
  refine ⟨h.items, h.isOpen, fun hrows => h.rows ?_, ?_, ?_⟩
  · rw [Table.putIndexRow, Table.putRowIn_eq_put]
    exact nodup_put Table.address _ hrows
  · intro n v hnv hn
    rcases List.mem_cons.mp hnv with hnv | hnv
    · rw [(Prod.mk.inj hnv).2]
      exact ⟨text, htext⟩
    · exact h.sortable n v hnv hn
  · intro other subject
    rw [h.indexed?, Table.indexed?_putIndexRow, Assoc.latest?, Table.address]
    by_cases hk : key = other
    · subst hk
      by_cases hs : name = subject
      · subst hs
        cases hlatest : Assoc.latest? updates name with
        | none => simp [hname, htext, Except.toOption]
        | some w =>
            obtain ⟨t, ht⟩ := h.sortable name w (Assoc.mem_of_latest? hlatest) hname
            simp [hname, ht, Except.toOption]
      · simp [hs]
    · simp [hk]

/-- An attribute without an index leaves no row. -/
lemma IndexWritten.skip {name : String} {value : Value} (hname : name ∉ layout.indexed)
    (h : IndexWritten layout key updates table table') :
    IndexWritten layout key ((name, value) :: updates) table table' := by
  refine ⟨h.items, h.isOpen, h.rows, ?_, ?_⟩
  · intro n v hnv hn
    rcases List.mem_cons.mp hnv with hnv | hnv
    · rw [(Prod.mk.inj hnv).1] at hn
      exact absurd hn hname
    · exact h.sortable n v hnv hn
  · intro other subject
    rw [h.indexed?, Assoc.latest?]
    by_cases hs : name = subject
    · subst hs
      rw [if_neg fun h => hname h.2, if_neg fun h => hname h.2]
    · rw [if_neg hs, Option.or_none]

lemma writeIndex_ok (h : layout.writeIndex key table updates = .ok table') :
    IndexWritten layout key updates table table' := by
  induction updates generalizing table with
  | nil =>
      obtain rfl : table = table' := Except.ok.inj h
      exact ⟨rfl, rfl, id, by simp, by simp [Assoc.latest?]⟩
  | cons update rest ih =>
      obtain ⟨name, value⟩ := update
      rw [writeIndex] at h
      split_ifs at h with hname
      · obtain ⟨text, htext, h⟩ := bind_eq_ok.mp h
        exact (ih h).cons (List.contains_iff_mem.mp hname) htext
      · rw [List.contains_iff_mem] at hname
        exact (ih h).skip hname

/-- What is found after an update. -/
lemma find?_update (h : layout.update table key updates conditions = .ok table') (other : ItemKey) :
    table'.find? other =
      if key = other then
        some ⟨key, (((table.find? key).map Item.attributes).getD []).insertAll updates⟩
      else table.find? other := by
  have hwritten := writeIndex_ok (update_ok h).2
  rw [Table.find?, hwritten.items]
  exact Table.find?_putItem table _ other

/-- What is read after an update: what it wrote last, or what was there. -/
lemma attribute?_update (h : layout.update table key updates conditions = .ok table')
    (other : ItemKey) (name : String) :
    table'.attribute? other name =
      if key = other then (Assoc.latest? updates name).or (table.attribute? key name)
      else table.attribute? other name := by
  rw [Table.attribute?, find?_update h]
  split_ifs with hk
  · change Assoc.get? (Assoc.insertAll _ updates) name = _
    rw [Assoc.get?_insertAll, Table.attribute?]
    cases table.find? key <;> rfl
  · rfl

/-- After a write of one attribute the others are as they were. -/
lemma attribute?_write {name : String} {value : Value}
    (h : layout.update table key [(name, value)] conditions = .ok table') (other : ItemKey)
    (n : String) :
    table'.attribute? other n =
      if key = other ∧ name = n then some value else table.attribute? other n := by
  rw [attribute?_update h, Assoc.latest?, Assoc.latest?, Option.none_or]
  by_cases hk : key = other
  · rw [if_pos hk, hk]
    by_cases hn : name = n
    · rw [if_pos hn, if_pos ⟨rfl, hn⟩, Option.some_or]
    · rw [if_neg hn, if_neg fun hboth => hn hboth.2, Option.none_or]
  · rw [if_neg hk, if_neg fun hboth => hk hboth.1]

/-! ## Deletions -/

/-- What a deletion that succeeded did: its conditions held, and the item is gone. -/
lemma delete_ok (h : layout.delete table key conditions = .ok table') :
    layout.check key ((table.find? key).map Item.attributes) conditions = .ok () ∧
      table' = table.remove key := by
  rw [delete] at h
  split_ifs at h
  · obtain ⟨current, hload, h⟩ := bind_eq_ok.mp h
    obtain ⟨⟨⟩, hcheck, h⟩ := bind_eq_ok.mp h
    rw [load_ok hload] at hcheck
    exact ⟨hcheck, (Except.ok.inj h).symm⟩
  · cases h

/-! ## Calls -/

/-- A write goes through just if there is a table that it leaves. -/
lemma commit_eq_ok {table table' : Table} {result : Except Error Table} :
    commit table result = (.ok (), table') ↔ result = .ok table' := by
  cases result with
  | ok left => simp [commit]
  | error e => simp [commit]

/-- What a call does to a table: whether it succeeds, and what it leaves. -/
inductive Step (layout : Layout) (table : Table) : Call → Bool → Table → Prop
  | read (key : ItemKey) (names : Option (List String)) (ok : Bool) :
      Step layout table (.get key names) ok table
  | queried (request : QueryRequest) (ok : Bool) : Step layout table (.query request) ok table
  | failed (c : Call) : Step layout table c false table
  | updated {key : ItemKey} {updates : Attributes} {conditions : List Condition} {table' : Table}
      (hok : layout.update table key updates conditions = .ok table') :
      Step layout table (.update key updates conditions) true table'
  | deleted {key : ItemKey} {conditions : List Condition} {table' : Table}
      (hok : layout.delete table key conditions = .ok table') :
      Step layout table (.delete key conditions) true table'

/-- **A call changes a table only by a write that succeeds.** -/
theorem step_store (layout : Layout) (c : Call) (table : Table) :
    layout.Step table c (layout.store c table).1.isOk (layout.store c table).2 := by
  cases c with
  | get key names => exact .read key names _
  | query request => exact .queried request _
  | update key updates conditions =>
      cases hresult : layout.update table key updates conditions with
      | ok table' =>
          rw [store, hresult]
          exact .updated hresult
      | error e =>
          rw [store, hresult]
          exact .failed _
  | delete key conditions =>
      cases hresult : layout.delete table key conditions with
      | ok table' =>
          rw [store, hresult]
          exact .deleted hresult
      | error e =>
          rw [store, hresult]
          exact .failed _

/-- **What the writes keep that succeed, a call keeps**: an update or a deletion, if it is one. -/
theorem store_invariant {layout : Layout} {P : Table → Prop} {c : Call} {table : Table}
    (h : P table)
    (hupdate : ∀ key updates conditions table', c = .update key updates conditions →
      layout.update table key updates conditions = .ok table' → P table')
    (hdelete : ∀ key conditions table', c = .delete key conditions →
      layout.delete table key conditions = .ok table' → P table') :
    P (layout.store c table).2 := by
  have hstep := layout.step_store c table
  generalize (layout.store c table).1.isOk = ok, (layout.store c table).2 = after at hstep ⊢
  cases hstep with
  | updated hok => exact hupdate _ _ _ _ rfl hok
  | deleted hok => exact hdelete _ _ _ rfl hok
  | _ => exact h

end Layout

/-! ## Writes keep the index in step -/

variable {layout : Layout} {table table' : Table} {key : ItemKey} {updates : Attributes}
  {conditions : List Condition}

/-- **An update keeps the index in step with the items.** -/
theorem Mirrors.update (h : Mirrors layout table)
    (hok : layout.update table key updates conditions = .ok table') : Mirrors layout table' := by
  have hwritten := Layout.writeIndex_ok (Layout.update_ok hok).2
  have hattribute := Layout.attribute?_update hok
  refine ⟨hwritten.isOpen.trans h.isOpen, ?_, hwritten.rows h.rows, ?_, ?_⟩
  · rw [hwritten.items, Table.putItem, Table.putIn_eq_put]
    exact nodup_put Item.key _ h.items
  · intro other subject
    have hrow := h.row other subject
    rw [hwritten.indexed?, hattribute]
    change (if _ then Option.or _ (table.indexed? other subject)
      else table.indexed? other subject) = _
    rw [hrow]
    by_cases hk : key = other
    · subst hk
      by_cases hs : subject ∈ layout.indexed
      · cases hlatest : Assoc.latest? updates subject with
        | none => simp [hs]
        | some value =>
            obtain ⟨text, htext⟩ := hwritten.sortable _ _ (Assoc.mem_of_latest? hlatest) hs
            simp [hs, htext, Except.toOption]
      · simp [hs]
    · simp [hk]
  · intro other subject value hs hvalue
    rw [hattribute] at hvalue
    split_ifs at hvalue with hk
    · rcases Option.or_eq_some_iff.mp hvalue with hlatest | ⟨-, hold⟩
      · exact hwritten.sortable _ _ (Assoc.mem_of_latest? hlatest) hs
      · exact h.sortable _ _ _ hs hold
    · exact h.sortable _ _ _ hs hvalue

/-- **So does a deletion.** -/
theorem Mirrors.delete (h : Mirrors layout table)
    (hok : layout.delete table key conditions = .ok table') : Mirrors layout table' := by
  rw [(Layout.delete_ok hok).2]
  refine ⟨h.isOpen, ?_, ?_, ?_, ?_⟩
  · exact h.items.sublist (List.filter_sublist.map _)
  · exact h.rows.sublist (List.filter_sublist.map _)
  · intro other subject
    rw [Table.indexed?_remove, Table.attribute?_remove, h.row]
    split_ifs <;> rfl
  · intro other subject value hs hvalue
    exact h.sortable _ _ _ hs (Table.attribute?_of_remove hvalue)

/-- **Every call keeps the index in step**, also one that fails. -/
theorem Mirrors.store (h : Mirrors layout table) (c : Call) :
    Mirrors layout (layout.store c table).2 :=
  Layout.store_invariant h (fun _ _ _ _ _ hok => h.update hok) fun _ _ _ _ hok => h.delete hok

end RankedTable

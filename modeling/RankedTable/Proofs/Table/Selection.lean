import RankedTable.Proofs.Table.Page
import RankedTable.Proofs.Value.Order

/-!
# What a query ranges over

A query knows the texts of an index, and compares them with those of its operands.  What it means
are the values: if all of them are of one kind, the rows of its range are the items whose value lies
within the bounds, and rows are ordered as values are, and then by name.

* `Item.HasMagnitude`, `Item.Precedes` — what items are compared by, and in which order.
* `Condition.IsRange`, `Condition.Admits` — bounds of one kind, and what lies within them.
* `QueryRequest.Selects` — the items of a range.
* **`row_spelled`** — a row sorts by what its item is compared by.
* `Value.IsOperand.bounds`, `Condition.IsRange.test` — bounds are tested on texts as they are meant.
* **`mem_matching`**, `pairwise_matching` — the rows of a range are the items that its request
  selects, in order.
-/

namespace RankedTable

variable {layout : Layout} {table : Table} {request : QueryRequest}

/-! ## Items and bounds -/

/-- What an item is compared by in an index: its attribute, or its name in the primary order. -/
def Item.HasMagnitude (index : Option String) (item : Item) (m : Magnitude) : Prop :=
  match index with
  | none => m = .text item.key.member
  | some subject => ∃ value, item.get? subject = some value ∧ value.HasMagnitude m

/-- Whether an item comes before another in an index: by what they are compared by, then by name. -/
def Item.Before (index : Option String) (a b : Item) : Prop :=
  ∃ m n, a.HasMagnitude index m ∧ b.HasMagnitude index n ∧
    (m.Below n ∨ m = n ∧ a.key.member < b.key.member)

/-- Whether an item comes before another in a direction. -/
def Item.Precedes (index : Option String) (forward : Bool) (a b : Item) : Prop :=
  if forward then a.Before index b else b.Before index a

/-- Operands of a kind that can be compared. -/
def Value.IsOperand (kind : Value.Kind) (v : Value) : Prop :=
  v.kind = kind ∧ ∃ m, v.HasMagnitude m

/-- The conditions that bound a range of values of a kind. -/
def Condition.IsRange (kind : Value.Kind) (condition : Condition) : Prop :=
  match condition.op, condition.values with
  | .eq, [v] => v.IsOperand kind
  | .ge, [low] => low.IsOperand kind
  | .le, [high] => high.IsOperand kind
  | .between, [low, high] => low.IsOperand kind ∧ high.IsOperand kind
  | _, _ => False

/-- What lies within the bounds. -/
def Condition.Admits (condition : Condition) (m : Magnitude) : Prop :=
  match condition.op, condition.values with
  | .eq, [v] => v.HasMagnitude m
  | .ge, [low] => ∃ l, low.HasMagnitude l ∧ l.AtMost m
  | .le, [high] => ∃ h, high.HasMagnitude h ∧ m.AtMost h
  | .between, [low, high] =>
    (∃ l, low.HasMagnitude l ∧ l.AtMost m) ∧ ∃ h, high.HasMagnitude h ∧ m.AtMost h
  | _, _ => False

/-- Whether an item is in the range of a request. -/
def QueryRequest.Selects (request : QueryRequest) (item : Item) : Prop :=
  item.key.partition = request.partition ∧ ∃ m, item.HasMagnitude request.index m ∧
    ∀ condition, request.keyRange = some condition → condition.Admits m

/-- Whether what a request ranges over is of one kind: the names, or the values of an attribute that
has an index. -/
def Table.IsOfKind (layout : Layout) (table : Table) (request : QueryRequest) (kind : Value.Kind) :
    Prop :=
  match request.index with
  | none => kind = .text
  | some subject => subject ∈ layout.indexed ∧ ∀ item ∈ table.items,
      item.key.partition = request.partition → ∀ value, item.get? subject = some value →
        value.kind = kind

lemma Item.HasMagnitude.unique {index : Option String} {item : Item} {m n : Magnitude}
    (hm : item.HasMagnitude index m) (hn : item.HasMagnitude index n) : m = n := by
  cases index with
  | none => exact hm.trans hn.symm
  | some subject =>
      obtain ⟨v, hv, hvm⟩ := hm
      obtain ⟨w, hw, hwn⟩ := hn
      obtain rfl := Option.some_inj.mp (hv.symm.trans hw)
      exact hvm.unique hwn

/-! ## Texts and bounds -/

lemma Value.IsOperand.sortText {kind : Value.Kind} {v : Value} (h : v.IsOperand kind) :
    ∃ m text, v.HasMagnitude m ∧ m.kind = kind ∧ v.sortText = .ok text ∧ m.Spelled text := by
  obtain ⟨hkind, m, hm⟩ := h
  obtain ⟨text, htext, hspelled⟩ := sortText_of_hasMagnitude hm
  exact ⟨m, text, hm, hm.kind_eq.trans hkind, htext, hspelled⟩

/-- Texts are on a side of an operand's as what they stand for is of what it stands for. -/
lemma Value.IsOperand.bounds {kind : Value.Kind} {v : Value} (h : v.IsOperand kind) :
    ∃ s, v.sortText = .ok s ∧ ∀ {m : Magnitude} {text : String}, m.kind = kind → m.Spelled text →
      (s ≤ text ↔ ∃ b, v.HasMagnitude b ∧ b.AtMost m) ∧
        (text ≤ s ↔ ∃ b, v.HasMagnitude b ∧ m.AtMost b) := by
  obtain ⟨b, s, hb, hkind, hs, hspelled⟩ := h.sortText
  refine ⟨s, hs, fun hm htext => ⟨?_, ?_⟩⟩
  · rw [hspelled.le_iff htext (hkind.trans hm.symm)]
    exact ⟨fun hle => ⟨b, hb, hle⟩, fun ⟨l, hl, hle⟩ => hl.unique hb ▸ hle⟩
  · rw [htext.le_iff hspelled (hm.trans hkind.symm)]
    exact ⟨fun hle => ⟨b, hb, hle⟩, fun ⟨l, hl, hle⟩ => hl.unique hb ▸ hle⟩

/-- **A row sorts by what its item is compared by.** -/
theorem row_spelled {kind : Value.Kind} (h : Mirrors layout table)
    (hkind : table.IsOfKind layout request kind) {row : Row}
    (hrow : row ∈ table.rows request.partition request.index) :
    ∃ m, row.item.HasMagnitude request.index m ∧ m.kind = kind ∧ m.Spelled row.sortText := by
  cases hindex : request.index with
  | none =>
      rw [hindex] at hrow
      rw [Table.IsOfKind, hindex] at hkind
      exact ⟨_, rfl, hkind.symm, ((Table.mem_rows_items h.items row).mp hrow).2.2⟩
  | some subject =>
      rw [hindex] at hrow
      rw [Table.IsOfKind, hindex] at hkind
      obtain ⟨hpartition, hitem, htext⟩ := (Table.mem_rows_index h.rows row).mp hrow
      rw [h.row, if_pos hkind.1, Table.attribute?, hitem] at htext
      obtain ⟨value, hvalue, hsort⟩ := Option.bind_eq_some_iff.mp htext
      obtain ⟨text, hok⟩ := h.sortable row.item.key subject value hkind.1 (by
        rw [Table.attribute?, hitem]
        exact hvalue)
      rw [hok] at hsort
      obtain rfl : text = row.sortText := Option.some_inj.mp hsort
      obtain ⟨m, hm, hspelled⟩ := hasMagnitude_of_sortText hok
      have hvalueKind := hkind.2 row.item (List.mem_of_find?_eq_some hitem) hpartition value hvalue
      exact ⟨m, ⟨value, hvalue, hm⟩, hm.kind_eq.trans hvalueKind, hspelled⟩

/-- **The bounds of a kind are tested on texts** as they are meant for what these stand for. -/
theorem Condition.IsRange.test {kind : Value.Kind} {condition : Condition}
    (h : condition.IsRange kind) :
    ∃ clause inBounds, condition.rangeClause = .ok clause ∧ clause.test = .ok inBounds ∧
      ∀ m text, m.kind = kind → m.Spelled text →
        (inBounds text = true ↔ condition.Admits m) := by
  obtain ⟨subject, op, values⟩ := condition
  match op, values, h with
  | .eq, [v], h =>
      obtain ⟨b, s, hb, hkind, hs, hspelled⟩ := h.sortText
      refine ⟨⟨.eq, [s]⟩, _, by simp [rangeClause, hs], rfl, fun m text hm htext => ?_⟩
      rw [decide_eq_true_eq, htext.eq_iff hspelled (hm.trans hkind.symm)]
      exact ⟨fun heq => heq ▸ hb, fun hv => hv.unique hb⟩
  | .ge, [low], h =>
      obtain ⟨s, hs, hbounds⟩ := h.bounds
      refine ⟨⟨.ge, [s]⟩, _, by simp [rangeClause, hs], rfl, fun m text hm htext => ?_⟩
      rw [decide_eq_true_eq]
      exact (hbounds hm htext).1
  | .le, [high], h =>
      obtain ⟨s, hs, hbounds⟩ := h.bounds
      refine ⟨⟨.le, [s]⟩, _, by simp [rangeClause, hs], rfl, fun m text hm htext => ?_⟩
      rw [decide_eq_true_eq]
      exact (hbounds hm htext).2
  | .between, [low, high], h =>
      obtain ⟨s, hs, hlow⟩ := h.1.bounds
      obtain ⟨t, ht, hhigh⟩ := h.2.bounds
      refine ⟨⟨.between, [s, t]⟩, _, by simp [rangeClause, hs, ht]; rfl, rfl,
        fun m text hm htext => ?_⟩
      rw [Bool.and_eq_true, decide_eq_true_eq, decide_eq_true_eq]
      exact and_congr (hlow hm htext).1 (hhigh hm htext).2

/-- A request for a range of one kind is accepted, and its rows are those that it selects. -/
lemma exists_accepted {kind : Value.Kind} (hkind : table.IsOfKind layout request kind)
    (hrange : ∀ condition, request.keyRange = some condition → condition.IsRange kind) :
    ∃ test, request.Accepted layout test ∧ ∀ m text, m.kind = kind → m.Spelled text →
      (test text = true ↔ ∀ condition, request.keyRange = some condition →
        condition.Admits m) := by
  have hindex : ∀ subject, request.index = some subject → subject ∈ layout.indexed := by
    intro subject hsubject
    rw [Table.IsOfKind, hsubject] at hkind
    exact hkind.1
  cases hcondition : request.keyRange with
  | none =>
      refine ⟨fun _ => true, ⟨hindex, none, none, by rw [hcondition]; rfl, rfl, fun _ => rfl⟩, ?_⟩
      simp
  | some condition =>
      obtain ⟨clause, inBounds, hclause, hbounds, htest⟩ := (hrange condition hcondition).test
      refine ⟨inBounds, ⟨hindex, some clause, some inBounds, ?_, ?_, fun _ => rfl⟩, ?_⟩
      · rw [hcondition, Option.mapM_some, hclause]
        rfl
      · rw [Option.mapM_some, hbounds]
        rfl
      · intro m text hm hspelled
        rw [htest m text hm hspelled]
        exact ⟨fun h _ heq => Option.some_inj.mp heq ▸ h, fun h => h condition rfl⟩

/-! ## Rows and items -/

section Range

variable {kind : Value.Kind} {test : String → Bool} (hmirrors : Mirrors layout table)
  (hkind : table.IsOfKind layout request kind)

include hmirrors hkind

/-- An item that can be compared in an index has a row there. -/
lemma exists_row {item : Item} (hitem : item ∈ table.items)
    (hpartition : item.key.partition = request.partition) {m : Magnitude}
    (hm : item.HasMagnitude request.index m) :
    ∃ row ∈ table.rows request.partition request.index, row.item = item := by
  have hfind := (Table.find?_eq_some_iff hmirrors.items item).mpr hitem
  cases hindex : request.index with
  | none => exact ⟨⟨item.key.member, item⟩,
      (Table.mem_rows_items hmirrors.items _).mpr ⟨hpartition, hfind, rfl⟩, rfl⟩
  | some subject =>
      rw [hindex] at hm
      rw [Table.IsOfKind, hindex] at hkind
      obtain ⟨value, hvalue, hmagnitude⟩ := hm
      obtain ⟨text, htext, -⟩ := sortText_of_hasMagnitude hmagnitude
      refine ⟨⟨text, item⟩, (Table.mem_rows_index hmirrors.rows _).mpr ⟨hpartition, hfind, ?_⟩, rfl⟩
      rw [hmirrors.row, if_pos hkind.1, Table.attribute?, hfind, Option.bind_some, hvalue,
        Option.bind_some, htext]
      rfl

/-- **The rows of a range are the items that its request selects.** -/
theorem mem_matching (htest : ∀ m text, m.kind = kind → m.Spelled text → (test text = true ↔
      ∀ condition, request.keyRange = some condition → condition.Admits m)) (item : Item) :
    item ∈ (table.matching request test).map Row.item ↔
      item ∈ table.items ∧ request.Selects item := by
  rw [List.mem_map]
  constructor
  · rintro ⟨row, hrow, rfl⟩
    obtain ⟨hrow, hbounds⟩ := List.mem_filter.mp (mem_sortRows.mp hrow)
    obtain ⟨m, hm, hmkind, hspelled⟩ := row_spelled hmirrors hkind hrow
    obtain ⟨hitem, hpartition⟩ := Table.item_of_mem_rows hrow
    exact ⟨hitem, hpartition, m, hm, (htest m _ hmkind hspelled).mp hbounds⟩
  · rintro ⟨hitem, hpartition, m, hm, hadmits⟩
    obtain ⟨row, hrow, rfl⟩ := exists_row hmirrors hkind hitem hpartition hm
    obtain ⟨n, hn, hnkind, hspelled⟩ := row_spelled hmirrors hkind hrow
    obtain rfl := hm.unique hn
    exact ⟨row, mem_sortRows.mpr (List.mem_filter.mpr
      ⟨hrow, (htest m _ hnkind hspelled).mpr hadmits⟩), rfl⟩

/-- Rows of an index compare as their items do. -/
lemma before_of_row {a b : Row} (ha : a ∈ table.rows request.partition request.index)
    (hb : b ∈ table.rows request.partition request.index) (hab : a.Before b) :
    a.item.Before request.index b.item := by
  obtain ⟨m, hm, hmkind, hms⟩ := row_spelled hmirrors hkind ha
  obtain ⟨n, hn, hnkind, hns⟩ := row_spelled hmirrors hkind hb
  rw [Row.Before, hms.lt_iff hns (hmkind.trans hnkind.symm),
    hms.eq_iff hns (hmkind.trans hnkind.symm)] at hab
  exact ⟨m, n, hm, hn, hab⟩

lemma pairwise_matching : ((table.matching request test).map Row.item).Pairwise
    (Item.Precedes request.index request.forward) := by
  have hapart := (Table.apart_rows hmirrors.items hmirrors.rows request.partition
    request.index).filter (test ·.sortText)
  rw [List.pairwise_map]
  refine (pairwise_sortRows hapart request.forward).imp_of_mem fun {a b} ha hb hab => ?_
  have ha := Table.mem_rows_of_mem_matching ha
  have hb := Table.mem_rows_of_mem_matching hb
  cases hforward : request.forward with
  | true =>
      rw [hforward] at hab
      exact before_of_row hmirrors hkind ha hb hab
  | false =>
      rw [hforward] at hab
      exact before_of_row hmirrors hkind hb ha hab

end Range

end RankedTable

import RankedTable.Proofs.Table.Page
import RankedTable.Proofs.Table.Refusal
import RankedTable.Store.Batch

/-!
# What queries are answered

A query has no condition that could be missed, so if it fails it does so for another reason.  If it
does not fail, its page has items of the collection only, as they are in the table.

* `Answers` — a result that is no missed condition, and has a property if it is no error.
* `answers_bind`, `answers_mapM`, … — how such results are put together.
* **`answers_query`** — what a query is answered.
-/

namespace RankedTable

variable {α β : Type} {P : α → Prop} {R : β → Prop}

/-- A result that is no missed condition, and has a property if it is no error. -/
structure Answers (P : α → Prop) (x : Except Error α) : Prop where
  error : ∀ e, x = .error e → e.isMiss = false
  ok : ∀ a, x = .ok a → P a

lemma answers_ok {a : α} (h : P a) : Answers P (.ok a) where
  error _ he := by cases he
  ok b hb := Except.ok.inj hb ▸ h

lemma answers_error {e : Error} (h : e.isMiss = false) : Answers P (.error e : Except Error α) where
  error e' he := Except.error.inj he ▸ h
  ok _ hb := by cases hb

lemma answers_bind {x : Except Error α} {f : α → Except Error β} (hx : Answers P x)
    (hf : ∀ a, P a → Answers R (f a)) : Answers R (x >>= f) := by
  cases x with
  | error e => exact answers_error (hx.error e rfl)
  | ok a => exact hf a (hx.ok a rfl)

lemma answers_mapM {f : β → Except Error α} {l : List β} (h : ∀ b ∈ l, Answers P (f b)) :
    Answers (fun results => ∀ a ∈ results, P a) (l.mapM f) := by
  refine ⟨fun e he => ?_, fun results hresults a ha => ?_⟩
  · obtain ⟨front, b, back, rfl, -, hb⟩ := mapM_eq_error.mp he
    exact (h b (by simp)).error e hb
  · obtain ⟨b, hb, ha⟩ := mem_of_mapM_ok hresults ha
    exact (h b hb).ok a ha

lemma answers_optionMapM {f : β → Except Error α} (h : ∀ b, Answers P (f b)) (o : Option β) :
    Answers (fun _ => True) (o.mapM f) := by
  cases o with
  | none => exact answers_ok trivial
  | some b => exact answers_bind (h b) fun _ _ => answers_ok trivial

/-! ## The parts of a query -/

lemma answers_sortText (value : Value) : Answers (fun _ => True) value.sortText := by
  refine ⟨fun e he => ?_, fun _ _ => trivial⟩
  cases Value.sortText_error_iff.mp he <;> rfl

lemma answers_rangeClause (condition : Condition) :
    Answers (fun _ => True) condition.rangeClause := by
  refine answers_bind (answers_mapM fun value _ => answers_sortText value) fun operands _ => ?_
  cases condition.op with
  | eq | between | ge | le => exact answers_ok trivial
  | _ => exact answers_error rfl

lemma answers_test (clause : RangeClause) : Answers (fun _ => True) clause.test := by
  rw [RangeClause.test]
  split
  case h_5 => exact answers_error rfl
  all_goals exact answers_ok trivial

lemma answers_tokenFields (index : Option String) (token : Token) :
    Answers (fun _ => True) (tokenFields index token) := by
  unfold tokenFields
  split
  case h_3 => exact answers_error rfl
  all_goals exact answers_ok trivial

lemma answers_bound (tree : Tree) : Answers (fun _ => True) (Bound.ofTree tree) := by
  cases tree with
  | int n =>
      rw [Bound.ofTree]
      split_ifs
      · exact answers_ok trivial
      · exact answers_error rfl
  | list | record => exact answers_error rfl
  | _ => exact answers_ok trivial

lemma answers_position (fields : Tree × Tree) : Answers (fun _ => True) (do
    return Position.mk (← Bound.ofTree fields.1) (← Bound.ofTree fields.2)) :=
  answers_bind (answers_bound fields.1) fun _ _ => answers_bind (answers_bound fields.2) fun _ _ =>
    answers_ok trivial

/-- An item is read back as it is, or not at all. -/
lemma answers_readItem (row : Row) : Answers (· = row.item) row.readItem := by
  rw [Row.readItem, Table.readBack]
  split_ifs
  · exact answers_ok rfl
  · exact answers_error rfl

/-! ## Queries -/

variable {layout : Layout} {table : Table} {request : QueryRequest}

lemma answers_pages (limit : Option ℤ) {rows : List Row}
    (hrows : ∀ row ∈ rows, row ∈ table.rows request.partition request.index) :
    Answers (fun page : QueryPage => ∀ item ∈ page.items,
        item ∈ table.items ∧ item.key.partition = request.partition) (
      if request.selectCount then
        .ok { count := rows.length, lastKey := pageToken limit rows }
      else do
        let items ← rows.mapM Row.readItem
        return { items := items, count := items.length, lastKey := pageToken limit rows }) := by
  split_ifs
  · exact answers_ok fun _ hitem => absurd hitem List.not_mem_nil
  · refine answers_bind (answers_mapM fun row hrow => ?_) fun items hitems => answers_ok hitems
    have hread := answers_readItem row
    exact ⟨hread.error, fun item hitem => hread.ok item hitem ▸
      Table.item_of_mem_rows (hrows row hrow)⟩

/-- **A query is answered with items of the collection**, or fails for another reason than a missed
condition. -/
theorem answers_query (layout : Layout) (table : Table) (request : QueryRequest) :
    Answers (fun page => ∀ item ∈ page.items,
      item ∈ table.items ∧ item.key.partition = request.partition)
      (layout.query table request) := by
  have hrows : ∀ (limit : Option ℤ) (p : Row → Bool), ∀ row ∈
      cut limit (sortRows request.forward
        ((table.rows request.partition request.index).filter p)),
      row ∈ table.rows request.partition request.index := fun limit p row hrow =>
    List.mem_of_mem_filter (mem_sortRows.mp (mem_of_mem_cut hrow))
  rw [Layout.query]
  split
  case' h_1 =>
    split
    case' isFalse => exact answers_error rfl
  all_goals
    beta_reduce
    refine answers_bind (answers_optionMapM answers_rangeClause _) fun clause _ => ?_
    refine answers_bind (answers_optionMapM (answers_tokenFields _) _) fun fields _ => ?_
    dsimp only
    split
    case' isFalse => exact answers_error rfl
    refine answers_bind (answers_optionMapM answers_test _) fun test _ => ?_
    refine answers_bind (answers_optionMapM answers_position _) fun start _ => ?_
    split
    case' h_1 =>
      split
      case' isFalse => exact answers_error rfl
    all_goals exact answers_pages _ (hrows _ _)

end RankedTable

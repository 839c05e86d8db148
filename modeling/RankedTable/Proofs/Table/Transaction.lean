import RankedTable.Proofs.Table.Mirror
import RankedTable.Proofs.Table.Refusal

/-!
# Writes as transactions

A write of a local table is a sequence of statements, and each statement changes rows at once.  The
item is written before the values of its indexed attributes are looked at, so a write can stop with
some rows changed and others not.  All of its statements therefore run in a transaction, which is
rolled back by an error.

* `Write`, `Layout.write` — the two calls that change a table.
* `Statements`, `Layout.statements` — what they consist of; `transaction` — a commit or a rollback.
* `Layout.Refuses`, `Layout.Stops` — every way in which a write can stop, with the rows
  it has changed by then.
* **`exec_statements_iff`** — there are no other ways.
* **`write_eq_transaction`** — a write is the transaction of its statements.
* `write_unconditional`, `write_refused` — a write whose conditions hold, and one that is refused.
* **`write_atomic`** — a write that fails changes nothing; one that succeeds had all of its
  conditions, and leaves the rows of other items.
-/

namespace RankedTable

/-- A call that changes a table. -/
inductive Write where
  | update (key : ItemKey) (updates : Attributes) (conditions : List Condition)
  | delete (key : ItemKey) (conditions : List Condition)

namespace Write

/-- The item that is written. -/
def key : Write → ItemKey
  | update key .. => key
  | delete key _ => key

/-- What has to hold of the item before. -/
def conditions : Write → List Condition
  | update _ _ conditions => conditions
  | delete _ conditions => conditions

/-- The same write, whatever there is of its item. -/
def unconditional : Write → Write
  | update key updates _ => update key updates []
  | delete key _ => delete key []

end Write

/-- The store's answer to a write, and the table it leaves. -/
def Layout.write (layout : Layout) (table : Table) : Write → Except Error Unit × Table
  | .update key updates conditions => layout.store (.update key updates conditions) table
  | .delete key conditions => layout.store (.delete key conditions) table

/-! ## Statements -/

/-- Statements on the rows of a table.  An error leaves the rows as they are by then. -/
abbrev Statements := ExceptT Error (StateM Table)

namespace Statements

variable {α β : Type}

/-- Executes statements. -/
def exec (s : Statements α) (table : Table) : Except Error α × Table :=
  StateT.run (ExceptT.run s) table

/-- A step that looks at no row. -/
def settle (result : Except Error α) : Statements α :=
  ExceptT.mk (pure result)

/-- Changes rows. -/
def change (f : Table → Table) : Statements Unit :=
  modify f

@[simp] lemma exec_get (table : Table) : (get : Statements Table).exec table = (.ok table, table) :=
  rfl

@[simp] lemma exec_settle (result : Except Error α) (table : Table) :
    (settle result).exec table = (result, table) :=
  rfl

lemma exec_bind (s : Statements α) (k : α → Statements β) (table : Table) :
    (s >>= k).exec table =
      match s.exec table with
      | (.ok a, working) => (k a).exec working
      | (.error e, working) => (.error e, working) := by
  simp only [exec, ExceptT.run_bind, StateT.run_bind]
  rcases StateT.run (ExceptT.run s) table with ⟨⟨⟩ | ⟨⟩, working⟩ <;> rfl

end Statements

/-- Commits what the statements changed, or rolls all of it back. -/
def transaction (s : Statements Unit) (table : Table) : Except Error Unit × Table :=
  match s.exec table with
  | (.ok (), working) => (.ok (), working)
  | (.error e, _) => (.error e, table)

namespace Layout

/-- Writes an index row for each new attribute that is indexed.  The text of a row is made when its
turn comes. -/
def upsertIndex (layout : Layout) (key : ItemKey) : List (String × Value) → Statements Unit
  | [] => pure ()
  | (name, value) :: rest => do
    if layout.indexed.contains name then
      let sortText ← Statements.settle value.sortText
      Statements.change (·.putIndexRow ⟨key, name, sortText⟩)
    layout.upsertIndex key rest

/-- The attributes of an item, if it can be read and the conditions hold of it. -/
def examine (layout : Layout) (key : ItemKey) (conditions : List Condition) (table : Table) :
    Except Error Attributes := do
  unless table.isOpen do
    throw .closed
  let current ← table.load key
  layout.check key current conditions
  return current.getD []

/-- The statements of a write. -/
def statements (layout : Layout) : Write → Statements Unit
  | .update key updates conditions => do
    let current ← Statements.settle (layout.examine key conditions (← MonadState.get))
    let merged := current.insertAll updates
    unless Attributes.canBeWritten merged do
      throw .nestedTooDeep
    Statements.change (·.putItem ⟨key, merged⟩)
    layout.upsertIndex key updates
  | .delete key conditions => do
    let _ ← Statements.settle (layout.examine key conditions (← MonadState.get))
    Statements.change fun table => { table with items := table.items.filter (·.key ≠ key) }
    Statements.change fun table => { table with index := table.index.filter (·.key ≠ key) }

/-! ## Where a write stops -/

variable (layout : Layout) (table : Table)

/-- The value of an item that a condition is about. -/
def subject (key : ItemKey) (condition : Condition) : Option Value :=
  layout.read key ((table.find? key).map Item.attributes) condition.subject

/-- The item can be read, and the conditions hold of it. -/
structure Admits (key : ItemKey) (conditions : List Condition) : Prop where
  isOpen : table.isOpen = true
  depth : ∀ item, table.find? key = some item → item.attributes.depth ≤ Json.maxDepth
  holds : ∀ condition ∈ conditions, condition.holds (layout.subject table key condition) = .ok true

/-- The errors for which a write stops before it changes a row. -/
inductive Refuses (key : ItemKey) (conditions : List Condition) : Error → Prop
  | closed (hopen : table.isOpen = false) : Refuses key conditions .closed
  | unreadable {item : Item} (hopen : table.isOpen = true) (hitem : table.find? key = some item)
      (hdepth : Json.maxDepth < item.attributes.depth) : Refuses key conditions .invalidField
  | missed {front back : List Condition} {condition : Condition}
      (hfront : layout.Admits table key front) (hsplit : conditions = front ++ condition :: back)
      (hmissed : condition.holds (layout.subject table key condition) = .ok false) :
      Refuses key conditions (.conditionFailed (.condition condition.op condition.subject key))
  | raised {front back : List Condition} {condition : Condition} {value : Value} {e : Error}
      (hfront : layout.Admits table key front) (hsplit : conditions = front ++ condition :: back)
      (hvalue : layout.subject table key condition = some value)
      (hraises : condition.Raises value e) : Refuses key conditions e

/-- The attributes that an update gives an item. -/
def updated (key : ItemKey) (updates : Attributes) : Attributes :=
  (((table.find? key).map Item.attributes).getD []).insertAll updates

/-- The errors for which a write stops, with the table that it has come to by then. -/
inductive Stops : Write → Error → Table → Prop
  | refused {w : Write} {e : Error} (h : layout.Refuses table w.key w.conditions e) :
      Stops w e table
  | nestedTooDeep {key : ItemKey} {updates : Attributes} {conditions : List Condition}
      (hadmits : layout.Admits table key conditions)
      (hdeep : ¬ (updated table key updates).canBeWritten) :
      Stops (.update key updates conditions) .nestedTooDeep table
  /-- The item has been written, and the index rows of the updates before this one. -/
  | unsorted {key : ItemKey} {updates front back : Attributes} {conditions : List Condition}
      {name : String} {value : Value} {e : Error} {working : Table}
      (hadmits : layout.Admits table key conditions)
      (hwritten : (updated table key updates).canBeWritten)
      (hsplit : updates = front ++ (name, value) :: back) (hname : name ∈ layout.indexed)
      (hvalue : value.Unsorted e)
      (hrows : layout.writeIndex key (table.putItem ⟨key, updated table key updates⟩) front =
        .ok working) :
      Stops (.update key updates conditions) e working

variable {layout table} {key : ItemKey} {conditions front back : List Condition}
  {updates earlier later : Attributes} {working : Table}

/-! ## Reading the item -/

lemma check_append {current : Option Attributes}
    (h : ∀ c ∈ front, c.holds (layout.read key current c.subject) = .ok true) :
    layout.check key current (front ++ back) = layout.check key current back := by
  induction front with
  | nil => rfl
  | cons c front ih =>
      rw [List.cons_append, check, h c (List.mem_cons_self ..)]
      exact ih fun c hc => h c (List.mem_cons_of_mem _ hc)

/-- An open table looks at the conditions on an item that it can read. -/
lemma examine_eq (hopen : table.isOpen = true)
    (hdepth : ∀ item, table.find? key = some item → item.attributes.depth ≤ Json.maxDepth) :
    layout.examine key conditions table =
      (layout.check key ((table.find? key).map Item.attributes) conditions).map fun _ =>
        ((table.find? key).map Item.attributes).getD [] := by
  have hload : table.load key = .ok ((table.find? key).map Item.attributes) := by
    rw [Table.load]
    cases hitem : table.find? key with
    | none => rfl
    | some item =>
        dsimp only
        rw [Table.readBack, if_pos (hdepth item hitem)]
        rfl
  rw [examine, hopen, hload]
  cases hcheck : layout.check key ((table.find? key).map Item.attributes) conditions with
  | ok | error => simp [bind, Except.bind, hcheck]; rfl

/-- What is admitted goes on with the attributes of the item. -/
lemma Admits.examine_ok (h : layout.Admits table key conditions) :
    layout.examine key conditions table =
      .ok (((table.find? key).map Item.attributes).getD []) := by
  have hcheck : layout.check key _ (conditions ++ []) = _ := check_append h.holds
  rw [List.append_nil] at hcheck
  rw [examine_eq h.isOpen h.depth, hcheck]
  rfl

/-- The conditions before have been found to hold when this one is looked at. -/
lemma Admits.examine_append {condition : Condition} (h : layout.Admits table key front) :
    layout.examine key (front ++ condition :: back) table =
      (layout.check key ((table.find? key).map Item.attributes) (condition :: back)).map fun _ =>
        ((table.find? key).map Item.attributes).getD [] := by
  rw [examine_eq h.isOpen h.depth, check_append h.holds]

lemma Refuses.examine_error {e : Error} (h : layout.Refuses table key conditions e) :
    layout.examine key conditions table = .error e := by
  cases h with
  | closed hopen => rw [examine, hopen]; rfl
  | unreadable hopen hitem hdepth =>
      rw [examine, hopen, Table.load, hitem]
      dsimp only
      rw [Table.readBack, if_neg (Nat.not_le.mpr hdepth)]
      rfl
  | @missed front back condition hfront hsplit hmissed =>
      rw [hsplit, hfront.examine_append, check]
      rw [subject] at hmissed
      rw [hmissed]
      rfl
  | raised hfront hsplit hvalue hraises =>
      have hholds := Condition.holds_error_iff.mpr ⟨_, hvalue, hraises⟩
      rw [subject] at hholds
      rw [hsplit, hfront.examine_append, check, hholds]
      rfl

/-- A write of an item is admitted or refused. -/
lemma admits_or_refuses (layout : Layout) (table : Table) (key : ItemKey)
    (conditions : List Condition) :
    layout.Admits table key conditions ∨ ∃ e, layout.Refuses table key conditions e := by
  by_cases hopen : table.isOpen = true
  swap
  · exact .inr ⟨_, .closed (by simpa using hopen)⟩
  by_cases hdepth : ∀ item, table.find? key = some item → item.attributes.depth ≤ Json.maxDepth
  swap
  · obtain ⟨item, hdepth⟩ := not_forall.mp hdepth
    obtain ⟨hitem, hdepth⟩ := Classical.not_imp.mp hdepth
    exact .inr ⟨_, .unreadable hopen hitem (Nat.not_le.mp hdepth)⟩
  -- the conditions are gone through until one does not hold
  suffices h : ∀ front, layout.Admits table key front →
      layout.Admits table key (front ++ conditions) ∨
        ∃ e, layout.Refuses table key (front ++ conditions) e from
    h [] ⟨hopen, hdepth, by simp⟩
  induction conditions with
  | nil => exact fun front hfront => .inl (by rwa [List.append_nil])
  | cons condition rest ih =>
      intro front hfront
      cases hholds : condition.holds (layout.subject table key condition) with
      | error e =>
          obtain ⟨value, hvalue, hraises⟩ := Condition.holds_error_iff.mp hholds
          exact .inr ⟨e, .raised hfront rfl hvalue hraises⟩
      | ok held =>
          cases held with
          | false => exact .inr ⟨_, .missed hfront rfl hholds⟩
          | true =>
              have hnext : layout.Admits table key (front ++ [condition]) :=
                ⟨hopen, hdepth, by simpa [or_imp, forall_and, hholds] using hfront.holds⟩
              simpa using ih (front ++ [condition]) hnext

/-! ## Writing the index -/

lemma writeIndex_append (h : layout.writeIndex key table earlier = .ok working) :
    layout.writeIndex key table (earlier ++ later) = layout.writeIndex key working later := by
  induction earlier generalizing table with
  | nil => rw [List.nil_append, Except.ok.inj h]
  | cons update earlier ih =>
      obtain ⟨name, value⟩ := update
      rw [writeIndex] at h
      rw [List.cons_append, writeIndex]
      split_ifs at h ⊢ with hname
      · obtain ⟨text, htext, h⟩ := bind_eq_ok.mp h
        rw [htext]
        exact ih h
      · exact ih h

lemma exec_upsertIndex_cons (layout : Layout) (key : ItemKey) (table : Table) (name : String)
    (value : Value) (later : Attributes) :
    (layout.upsertIndex key ((name, value) :: later)).exec table =
      if layout.indexed.contains name then
        match value.sortText with
        | .ok text => (layout.upsertIndex key later).exec (table.putIndexRow ⟨key, name, text⟩)
        | .error e => (.error e, table)
      else (layout.upsertIndex key later).exec table := by
  rw [upsertIndex]
  split_ifs
  · rw [Statements.exec_bind, Statements.exec_settle]
    cases value.sortText <;> rfl
  · rfl

lemma exec_upsertIndex_append (h : layout.writeIndex key table earlier = .ok working) :
    (layout.upsertIndex key (earlier ++ later)).exec table =
      (layout.upsertIndex key later).exec working := by
  induction earlier generalizing table with
  | nil => rw [List.nil_append, Except.ok.inj h]
  | cons update earlier ih =>
      obtain ⟨name, value⟩ := update
      rw [writeIndex] at h
      rw [List.cons_append, exec_upsertIndex_cons]
      split_ifs at h ⊢ with hname
      · obtain ⟨text, htext, h⟩ := bind_eq_ok.mp h
        rw [htext]
        exact ih h
      · exact ih h

/-- The rows are written up to the first value that has no text. -/
lemma writeIndex_ok_or_unsorted (layout : Layout) (key : ItemKey) (updates : Attributes)
    (table : Table) :
    (∃ working, layout.writeIndex key table updates = .ok working) ∨
      ∃ earlier name value later e working, updates = earlier ++ (name, value) :: later ∧
        name ∈ layout.indexed ∧ value.Unsorted e ∧
        layout.writeIndex key table earlier = .ok working := by
  induction updates generalizing table with
  | nil => exact .inl ⟨table, rfl⟩
  | cons update updates ih =>
      obtain ⟨name, value⟩ := update
      cases hfirst : layout.writeIndex key table [(name, value)] with
      | ok working =>
          have hsplit : ∀ rest, layout.writeIndex key table ((name, value) :: rest) = _ :=
            fun rest => writeIndex_append hfirst
          rcases ih working with ⟨final, h⟩ | ⟨earlier, n, v, later, e, final, rfl, hn, hv, h⟩
          · exact .inl ⟨final, (hsplit _).trans h⟩
          · exact .inr ⟨(name, value) :: earlier, n, v, later, e, final, rfl, hn, hv,
              (hsplit _).trans h⟩
      | error e =>
          rw [writeIndex] at hfirst
          split_ifs at hfirst with hname
          · rcases bind_eq_error.mp hfirst with hvalue | ⟨_, -, hnil⟩
            · exact .inr ⟨[], name, value, updates, e, table, rfl, List.contains_iff_mem.mp hname,
                Value.sortText_error_iff.mp hvalue, rfl⟩
            · cases hnil
          · cases hfirst

lemma exec_upsertIndex_ok {final : Table} (h : layout.writeIndex key table updates = .ok final) :
    (layout.upsertIndex key updates).exec table = (.ok (), final) := by
  have happend : (layout.upsertIndex key (updates ++ [])).exec table = _ :=
    exec_upsertIndex_append h
  rwa [List.append_nil] at happend

lemma exec_upsertIndex_unsorted {name : String} {value : Value} {e : Error}
    (h : layout.writeIndex key table earlier = .ok working) (hname : name ∈ layout.indexed)
    (hvalue : value.Unsorted e) :
    (layout.upsertIndex key (earlier ++ (name, value) :: later)).exec table =
      (.error e, working) := by
  rw [exec_upsertIndex_append h, exec_upsertIndex_cons, if_pos (List.contains_iff_mem.mpr hname),
    Value.sortText_error_iff.mpr hvalue]

lemma writeIndex_unsorted {name : String} {value : Value} {e : Error}
    (h : layout.writeIndex key table earlier = .ok working) (hname : name ∈ layout.indexed)
    (hvalue : value.Unsorted e) :
    layout.writeIndex key table (earlier ++ (name, value) :: later) = .error e := by
  rw [writeIndex_append h, writeIndex, if_pos (List.contains_iff_mem.mpr hname),
    Value.sortText_error_iff.mpr hvalue]
  rfl

/-! ## Writes -/

lemma exec_refused {w : Write} {e : Error} (h : layout.Refuses table w.key w.conditions e) :
    (layout.statements w).exec table = (.error e, table) := by
  cases w with
  | update key updates conditions =>
      have hexamine : layout.examine key conditions table = .error e := h.examine_error
      simp only [statements, Statements.exec_bind, Statements.exec_get, Statements.exec_settle,
        hexamine]
  | delete key conditions =>
      have hexamine : layout.examine key conditions table = .error e := h.examine_error
      simp only [statements, Statements.exec_bind, Statements.exec_get, Statements.exec_settle,
        hexamine]

lemma exec_update (h : layout.Admits table key conditions) :
    (layout.statements (.update key updates conditions)).exec table =
      if (updated table key updates).canBeWritten then
        (layout.upsertIndex key updates).exec (table.putItem ⟨key, updated table key updates⟩)
      else (.error .nestedTooDeep, table) := by
  simp only [statements, Statements.exec_bind, Statements.exec_get, Statements.exec_settle,
    h.examine_ok]
  rw [← updated]
  by_cases hwritten : (updated table key updates).canBeWritten = true
  · rw [if_pos hwritten, if_pos hwritten]
    rfl
  · rw [if_neg hwritten, if_neg hwritten]
    rfl

lemma exec_delete (h : layout.Admits table key conditions) :
    (layout.statements (.delete key conditions)).exec table = (.ok (), table.remove key) := by
  simp only [statements, Statements.exec_bind, Statements.exec_get, Statements.exec_settle,
    h.examine_ok]
  rfl

lemma update_eq (layout : Layout) (table : Table) (key : ItemKey) (updates : Attributes)
    (conditions : List Condition) :
    layout.update table key updates conditions =
      (layout.examine key conditions table).bind fun current =>
        if Attributes.canBeWritten (current.insertAll updates) then
          layout.writeIndex key (table.putItem ⟨key, current.insertAll updates⟩) updates
        else .error .nestedTooDeep := by
  rw [update, examine]
  cases table.isOpen with
  | false => rfl
  | true =>
      cases table.load key with
      | error e => rfl
      | ok current =>
          simp only [bind, Except.bind, if_true]
          cases layout.check key current conditions <;> rfl

lemma delete_eq (layout : Layout) (table : Table) (key : ItemKey) (conditions : List Condition) :
    layout.delete table key conditions =
      (layout.examine key conditions table).bind fun _ => .ok (table.remove key) := by
  rw [delete, examine]
  cases table.isOpen with
  | false => rfl
  | true =>
      cases table.load key with
      | error e => rfl
      | ok current =>
          simp only [bind, Except.bind, if_true]
          cases layout.check key current conditions <;> rfl

/-- **A write is the transaction of its statements.** -/
theorem write_eq_transaction (layout : Layout) (table : Table) (w : Write) :
    layout.write table w = transaction (layout.statements w) table := by
  rcases layout.admits_or_refuses table w.key w.conditions with hadmits | ⟨e, hrefuses⟩
  · cases w with
    | delete key conditions =>
        change layout.Admits table key conditions at hadmits
        change commit table (layout.delete table key conditions) = _
        rw [transaction, exec_delete hadmits, delete_eq, hadmits.examine_ok]
        rfl
    | update key updates conditions =>
        change layout.Admits table key conditions at hadmits
        change commit table (layout.update table key updates conditions) = _
        rw [transaction, exec_update hadmits, update_eq, hadmits.examine_ok, Except.bind, ← updated]
        by_cases hwritten : (updated table key updates).canBeWritten = true
        swap
        · rw [if_neg hwritten, if_neg hwritten]
          rfl
        rw [if_pos hwritten, if_pos hwritten]
        rcases layout.writeIndex_ok_or_unsorted key updates
          (table.putItem ⟨key, updated table key updates⟩) with
          ⟨final, h⟩ | ⟨earlier, name, value, later, e, working, hsplit, hname, hvalue, h⟩
        · rw [exec_upsertIndex_ok h, h]
          rfl
        · generalize table.putItem ⟨key, updated table key updates⟩ = start at h ⊢
          rw [hsplit, exec_upsertIndex_unsorted h hname hvalue, writeIndex_unsorted h hname hvalue]
          rfl
  · rw [transaction, exec_refused hrefuses]
    have hexamine := hrefuses.examine_error
    cases w with
    | update key updates conditions =>
        change layout.examine key conditions table = .error e at hexamine
        change commit table (layout.update table key updates conditions) = _
        rw [update_eq, hexamine]
        rfl
    | delete key conditions =>
        change layout.examine key conditions table = .error e at hexamine
        change commit table (layout.delete table key conditions) = _
        rw [delete_eq, hexamine]
        rfl

/-- A write whose conditions hold does what it does without them. -/
lemma write_unconditional {w : Write}
    (h : layout.Admits table w.key w.conditions) :
    layout.write table w.unconditional = layout.write table w := by
  have hbare : layout.Admits table w.key [] := ⟨h.isOpen, h.depth, by simp⟩
  have hexamine := hbare.examine_ok.trans h.examine_ok.symm
  cases w with
  | update key updates conditions =>
      change commit table (layout.update table key updates []) =
        commit table (layout.update table key updates conditions)
      rw [update_eq, update_eq]
      exact congrArg (fun examined => commit table (Except.bind examined _)) hexamine
  | delete key conditions =>
      change commit table (layout.delete table key []) =
        commit table (layout.delete table key conditions)
      rw [delete_eq, delete_eq]
      exact congrArg (fun examined => commit table (Except.bind examined _)) hexamine

lemma write_refused {w : Write} {e : Error} (h : layout.Refuses table w.key w.conditions e) :
    layout.write table w = (.error e, table) := by
  rw [write_eq_transaction, transaction, exec_refused h]

lemma write_delete (h : layout.Admits table key conditions) :
    layout.write table (.delete key conditions) = (.ok (), table.remove key) := by
  rw [write_eq_transaction, transaction, exec_delete h]

lemma Stops.exec {w : Write} {e : Error} (h : layout.Stops table w e working) :
    (layout.statements w).exec table = (.error e, working) := by
  cases h with
  | refused h => exact exec_refused h
  | nestedTooDeep hadmits hdeep => rw [exec_update hadmits, if_neg hdeep]
  | unsorted hadmits hwritten hsplit hname hvalue hrows =>
      rw [exec_update hadmits, if_pos hwritten]
      generalize table.putItem _ = start at hrows ⊢
      rw [hsplit, exec_upsertIndex_unsorted hrows hname hvalue]

/-- **A write stops in these ways, and in no other.** -/
theorem exec_statements_iff (layout : Layout) (table : Table) (w : Write) (e : Error)
    (working : Table) :
    (layout.statements w).exec table = (.error e, working) ↔ layout.Stops table w e working := by
  refine ⟨fun hexec => ?_, Stops.exec⟩
  suffices h : (∃ final, (layout.statements w).exec table = (.ok (), final)) ∨
      ∃ e' working', layout.Stops table w e' working' by
    rcases h with ⟨final, h⟩ | ⟨e', working', h⟩
    · cases h.symm.trans hexec
    · obtain ⟨rfl, rfl⟩ : e' = e ∧ working' = working := by
        have := h.exec.symm.trans hexec
        simpa using this
      exact h
  clear hexec
  rcases layout.admits_or_refuses table w.key w.conditions with hadmits | ⟨e, hrefuses⟩
  swap
  · exact .inr ⟨e, table, .refused hrefuses⟩
  cases w with
  | delete key conditions => exact .inl ⟨_, exec_delete hadmits⟩
  | update key updates conditions =>
      change layout.Admits table key conditions at hadmits
      by_cases hwritten : (updated table key updates).canBeWritten = true
      swap
      · exact .inr ⟨_, _, .nestedTooDeep hadmits hwritten⟩
      rcases layout.writeIndex_ok_or_unsorted key updates
        (table.putItem ⟨key, updated table key updates⟩) with
        ⟨final, h⟩ | ⟨earlier, name, value, later, e, working, hsplit, hname, hvalue, h⟩
      · exact .inl ⟨final, by rw [exec_update hadmits, if_pos hwritten, exec_upsertIndex_ok h]⟩
      · exact .inr ⟨e, working, .unsorted hadmits hwritten hsplit hname hvalue h⟩

/-! ## Rows of other items -/

lemma filter_putItem (table : Table) (key : ItemKey) (attributes : Attributes) :
    (table.putItem ⟨key, attributes⟩).items.filter (·.key ≠ key) =
      table.items.filter (·.key ≠ key) := by
  rw [Table.putItem, Table.putIn_eq_put]
  exact filter_put (fun item hitem => by simpa using hitem) _

lemma filter_putIndexRow (table : Table) (key : ItemKey) (name text : String) :
    (table.putIndexRow ⟨key, name, text⟩).index.filter (·.key ≠ key) =
      table.index.filter (·.key ≠ key) := by
  rw [Table.putIndexRow, Table.putRowIn_eq_put]
  exact filter_put (fun row hrow => by simpa using (Prod.mk.inj hrow).1) _

lemma filter_writeIndex (h : layout.writeIndex key table updates = .ok working) :
    working.index.filter (·.key ≠ key) = table.index.filter (·.key ≠ key) := by
  induction updates generalizing table with
  | nil => rw [Except.ok.inj h]
  | cons update rest ih =>
      obtain ⟨name, value⟩ := update
      rw [writeIndex] at h
      split_ifs at h
      · obtain ⟨text, -, h⟩ := bind_eq_ok.mp h
        rw [ih h, filter_putIndexRow]
      · exact ih h

/-- An update that succeeds leaves the items and the index rows of other keys. -/
lemma filter_update {after : Table} (h : layout.update table key updates conditions = .ok after) :
    after.items.filter (·.key ≠ key) = table.items.filter (·.key ≠ key) ∧
      after.index.filter (·.key ≠ key) = table.index.filter (·.key ≠ key) := by
  have hwritten := (update_ok h).2
  constructor
  · rw [(writeIndex_ok hwritten).items, filter_putItem]
  · rw [filter_writeIndex hwritten]
    rfl

/-- A deletion leaves the items and the index rows of other keys. -/
lemma filter_remove (table : Table) (key : ItemKey) :
    (table.remove key).items.filter (·.key ≠ key) = table.items.filter (·.key ≠ key) ∧
      (table.remove key).index.filter (·.key ≠ key) = table.index.filter (·.key ≠ key) := by
  simp [Table.remove]

/-- An update that went through. -/
lemma update_of_write
    (h : layout.write table (.update key updates conditions) = (.ok (), working)) :
    layout.update table key updates conditions = .ok working :=
  commit_eq_ok.mp h

/-- The store's answer tells whether the write went through, and what it left. -/
lemma write_ok {w : Write} (h : (layout.write table w).1 = .ok ()) :
    layout.Admits table w.key w.conditions ∧
      (layout.write table w).2.items.filter (·.key ≠ w.key) =
        table.items.filter (·.key ≠ w.key) ∧
      (layout.write table w).2.index.filter (·.key ≠ w.key) =
        table.index.filter (·.key ≠ w.key) := by
  have hadmits : layout.Admits table w.key w.conditions := by
    refine (layout.admits_or_refuses table w.key w.conditions).resolve_right ?_
    rintro ⟨e, hrefuses⟩
    rw [write_eq_transaction, transaction, exec_refused hrefuses] at h
    cases h
  refine ⟨hadmits, ?_⟩
  cases w with
  | update key updates conditions =>
      change (commit table (layout.update table key updates conditions)).1 = .ok () at h
      change (commit table (layout.update table key updates conditions)).2.items.filter _ = _ ∧
        (commit table (layout.update table key updates conditions)).2.index.filter _ = _
      cases hresult : layout.update table key updates conditions with
      | error e => rw [hresult] at h; cases h
      | ok after => exact filter_update hresult
  | delete key conditions =>
      change layout.Admits table key conditions at hadmits
      rw [write_eq_transaction, transaction, exec_delete hadmits]
      exact filter_remove table key

/-- **A write is done as a whole or not at all.**  It stops in the ways of `Stops` and in no other;
then all items and index rows are as they were, whatever had been changed by then.  If it does not
stop, all of its conditions held of the item as it was, and the items and the index rows of all
other keys are as they were. -/
theorem write_atomic (layout : Layout) (table : Table) (w : Write) :
    layout.write table w = transaction (layout.statements w) table ∧
      (∀ e working, (layout.statements w).exec table = (.error e, working) ↔
        layout.Stops table w e working) ∧
      (∀ e, (layout.write table w).1 = .error e ↔ ∃ working, layout.Stops table w e working) ∧
      (∀ e, (layout.write table w).1 = .error e → (layout.write table w).2 = table) ∧
      ((layout.write table w).1 = .ok () →
        (∀ condition ∈ w.conditions,
          condition.holds (layout.read w.key ((table.find? w.key).map Item.attributes)
            condition.subject) = .ok true) ∧
        (layout.write table w).2.items.filter (·.key ≠ w.key) =
          table.items.filter (·.key ≠ w.key) ∧
        (layout.write table w).2.index.filter (·.key ≠ w.key) =
          table.index.filter (·.key ≠ w.key)) := by
  refine ⟨layout.write_eq_transaction table w, layout.exec_statements_iff table w, ?_, ?_, ?_⟩
  · intro e
    rw [write_eq_transaction]
    simp only [← exec_statements_iff, transaction]
    rcases (layout.statements w).exec table with ⟨⟨e'⟩ | ⟨⟩, working⟩ <;> simp
  · intro e h
    rw [write_eq_transaction, transaction] at h ⊢
    cases hexec : (layout.statements w).exec table with
    | mk result working =>
        rw [hexec] at h
        cases result with
        | error e' => rfl
        | ok => cases h
  · intro h
    exact ⟨(write_ok h).1.holds, (write_ok h).2⟩

/-- The item and one index row have been written when the second indexed value turns out to have no
text. -/
theorem write_atomic_midway :
    let layout : Layout := { indexed := ["a", "b"] }
    let w : Write := .update ⟨"p", "m"⟩ [("a", .text "x"), ("b", .null)] []
    ∃ e working, (layout.statements w).exec {} = (.error e, working) ∧
      working.items.map Item.key = [⟨"p", "m"⟩] ∧ working.index = [⟨⟨"p", "m"⟩, "a", "x"⟩] ∧
      (layout.write {} w).1 = .error e ∧ (layout.write {} w).2 = {} := by
  intro layout w
  refine ⟨.store (.unsortable .null), _, rfl, rfl, rfl, rfl, ?_⟩
  exact (write_atomic layout {} w).2.2.2.1 _ rfl

end Layout

end RankedTable

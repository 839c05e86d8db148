import RankedTable.Proofs.Command.Replies
import RankedTable.Proofs.Geo.SharedLocations
import RankedTable.Proofs.Store.Pass
import RankedTable.Proofs.Value.Whole

/-!
# The places of a collection

The index on positions, read in order, has the members of a collection by the numbers of their
cells, and those in one cell by name.  The numbers are kept as texts, so that an interval of them is
a range of texts; what else is kept under the name of positions is no place.

* `WholeOrText` — clients keep texts and whole numbers; **`Reached.wholeOrText`**.
* `IsPlacing` — the places that a journal tells; `IsPlacing.unique`.
* `cellOf`, `Table.placing` — the places in a table.
* `row_cell` — an index row has the text of the number of its cell.
* **`isPlacing`** — the places in a client's table are those that its journal tells.
* `IsCovering`, `Holds` — intervals of cells.
* **`cellScan_bounds`** — the scan of an interval has the places in it.
-/

namespace RankedTable

variable {settings : Settings} {geometry : Geometry} {journal : List Call} {table table' : Table}
  {key : String}

/-! ## What clients keep -/

/-- Whether every attribute is a text or a whole number. -/
def WholeOrText (table : Table) : Prop :=
  ∀ address name value, table.attribute? address name = some value →
    (∃ t, value = .text t) ∨ ∃ n : ℤ, value = .ofInt n

lemma WholeOrText.write (h : WholeOrText table) {address : ItemKey} {name : String} {value : Value}
    {conditions : List Condition}
    (hok : settings.layout.update table address [(name, value)] conditions = .ok table')
    (hvalue : (∃ t, value = .text t) ∨ ∃ n : ℤ, value = .ofInt n) : WholeOrText table' := by
  intro other subject v hv
  rw [Layout.attribute?_write hok] at hv
  split_ifs at hv
  · exact Option.some_inj.mp hv ▸ hvalue
  · exact h other subject v hv

/-- The calls of clients write nothing else. -/
lemma WholeOrText.store (h : WholeOrText table) {c : Call} (hc : ClientCall settings c) :
    WholeOrText (settings.layout.store c table).2 := by
  refine Layout.store_invariant h ?_ ?_
  · rintro address updates conditions table' rfl hok
    cases hc with
    | @score _ _ x encoded hx => exact h.write hok (.inl ⟨encoded, rfl⟩)
    | location key conditions cell => exact h.write hok (.inr ⟨cell, rfl⟩)
  · rintro address conditions table' - hok other name value hvalue
    obtain ⟨-, rfl⟩ := Layout.delete_ok hok
    exact h other name value (Table.attribute?_of_remove hvalue)

/-- **Clients keep texts and whole numbers only.** -/
theorem Reached.wholeOrText (h : Reached settings geometry journal table) : WholeOrText table :=
  h.invariant (I := fun s => WholeOrText s.2) (fun _ _ _ hvalue => nomatch hvalue)
    fun _ _ hc hs => hs.store hc

/-! ## Places -/

/-- Two members in the order of their places: by the numbers of the cells, then by name. -/
def PlacedBefore (a b : ℤ × String) : Prop :=
  a.1 < b.1 ∨ a.1 = b.1 ∧ a.2 < b.2

lemma PlacedBefore.asymm {a b : ℤ × String} (hab : PlacedBefore a b) : ¬PlacedBefore b a := by
  intro hba
  rcases hab with hlt | ⟨heq, hlt⟩ <;> rcases hba with hlt' | ⟨heq', hlt'⟩
  · omega
  · omega
  · omega
  · exact String.lt_asymm hlt hlt'

/-- The places that a journal tells of a collection, in order: each member whose position was
written last as the number of a cell, and no other. -/
structure IsPlacing (locationName : String) (journal : List Call) (key : String)
    (placing : List (ℤ × String)) : Prop where
  sorted : placing.Pairwise PlacedBefore
  mem_iff : ∀ cell member, (cell, member) ∈ placing ↔
    lastWritten ⟨key, member⟩ locationName journal = some (.ofInt cell)

namespace IsPlacing

variable {locationName : String} {placing other : List (ℤ × String)}
  (h : IsPlacing locationName journal key placing)

include h

lemma nodup : placing.Nodup :=
  h.sorted.imp fun {a b} hab (heq : a = b) => hab.asymm (heq ▸ hab)

/-- **A journal tells of the places of one collection only.** -/
theorem unique (hother : IsPlacing locationName journal key other) : placing = other := by
  have hperm : placing.Perm other := (List.perm_ext_iff_of_nodup h.nodup hother.nodup).mpr
    fun e => (h.mem_iff e.1 e.2).trans (hother.mem_iff e.1 e.2).symm
  exact hperm.eq_of_pairwise (fun _ _ _ _ hab hba => absurd hba hab.asymm) h.sorted hother.sorted

/-- A member has one place. -/
lemma cell_unique {a b : ℤ × String} (ha : a ∈ placing) (hb : b ∈ placing) (hname : a.2 = b.2) :
    a = b := by
  have hwritten := (h.mem_iff a.1 a.2).mp ha
  rw [hname, (h.mem_iff b.1 b.2).mp hb, Option.some_inj] at hwritten
  exact Prod.ext (Value.ofInt_inj.mp hwritten).symm hname

end IsPlacing

/-- The number of the cell that an item is in, if it has one. -/
def cellOf (settings : Settings) (item : Item) : Option ℤ :=
  match item.get? settings.locationName with
  | some (.number digits) =>
    match (Decimal.parse? digits).map Decimal.truncate with
    | some (.ok n) => some n
    | _ => none
  | _ => none

/-- The place of an item, if it has one. -/
def placed (settings : Settings) (item : Item) : Option (ℤ × String) :=
  (cellOf settings item).map (·, item.key.member)

/-- The members of a collection that have a place, in order. -/
def Table.placing (settings : Settings) (table : Table) (key : String) : List (ℤ × String) :=
  (sortRows true (table.rows key (some settings.locationName))).filterMap fun row =>
    placed settings row.item

lemma locationName_indexed (settings : Settings) :
    settings.locationName ∈ settings.layout.indexed :=
  List.mem_cons_of_mem _ (List.mem_cons_self ..)

/-- A whole number with a sort text is the number of a cell, whose centre is the position. -/
lemma cell_ofInt (geometry : Geometry) {item : Item} {cell : ℤ} {text : String}
    (hitem : item.get? settings.locationName = some (.ofInt cell))
    (htext : (Value.ofInt cell).sortText = .ok text) :
    cellOf settings item = some cell ∧ (Magnitude.number cell).Spelled text ∧
      GeoIndex.locationFrom geometry (some (.ofInt cell)) = .ok (some (geometry.centre cell)) := by
  obtain ⟨m, hm, hspelled⟩ := hasMagnitude_of_sortText htext
  obtain ⟨rfl, hparse⟩ := Value.hasMagnitude_ofInt hm
  refine ⟨?_, hspelled, ?_⟩
  · rw [cellOf, hitem, Value.ofInt]
    dsimp only
    rw [hparse, Option.map_some, Decimal.truncate_ofInt]
  · rw [Value.ofInt, GeoIndex.locationFrom, hparse, Option.map_some, Decimal.truncate_ofInt]

section Client

variable (h : ClientTable settings table) (hwhole : WholeOrText table)

include h

/-- What is kept of a row's item, and the text of the row. -/
lemma row_value {row : Row} (hrow : row ∈ table.rows key (some settings.locationName)) :
    ∃ value, row.item.get? settings.locationName = some value ∧
      value.sortText = .ok row.sortText ∧
      table.attribute? row.item.key settings.locationName = some value := by
  obtain ⟨-, hitem, htext⟩ := (Table.mem_rows_index h.mirrors.rows row).mp hrow
  have hattribute : table.attribute? row.item.key settings.locationName =
      row.item.get? settings.locationName := by
    rw [Table.attribute?, hitem]
    rfl
  rw [h.mirrors.row, if_pos (locationName_indexed settings)] at htext
  obtain ⟨value, hvalue, hsort⟩ := Option.bind_eq_some_iff.mp htext
  refine ⟨value, hattribute ▸ hvalue, ?_, hvalue⟩
  cases hresult : value.sortText with
  | error e =>
      rw [hresult] at hsort
      cases hsort
  | ok t =>
      rw [hresult] at hsort
      exact congrArg Except.ok (Option.some_inj.mp hsort)

include hwhole

/-- **A row of the index on positions** is read as the centre of its cell, and has the text of its
number; or it is that of a text, and no place. -/
theorem row_cell (geometry : Geometry) {row : Row}
    (hrow : row ∈ table.rows key (some settings.locationName)) :
    GeoIndex.locationFrom geometry (row.item.get? settings.locationName) =
        .ok ((cellOf settings row.item).map geometry.centre) ∧
      ∀ cell, cellOf settings row.item = some cell →
        row.item.get? settings.locationName = some (.ofInt cell) ∧
          (Magnitude.number cell).Spelled row.sortText := by
  obtain ⟨value, hget, hsort, hattribute⟩ := row_value h hrow
  rcases hwhole _ _ _ hattribute with ⟨t, rfl⟩ | ⟨cell, rfl⟩
  · have hcell : cellOf settings row.item = none := by
      rw [cellOf, hget]
    rw [hget, hcell]
    exact ⟨rfl, fun _ hsome => nomatch hsome⟩
  · obtain ⟨hcell, hspelled, hlocation⟩ := cell_ofInt geometry hget hsort
    rw [hget, hcell]
    refine ⟨hlocation, fun other hother => ?_⟩
    obtain rfl := Option.some_inj.mp hother
    exact ⟨rfl, hspelled⟩

/-- The members with a place are those whose position is the number of a cell. -/
lemma mem_placing {cell : ℤ} {member : String} :
    (cell, member) ∈ table.placing settings key ↔
      table.attribute? ⟨key, member⟩ settings.locationName = some (.ofInt cell) := by
  rw [Table.placing, List.mem_filterMap]
  constructor
  · rintro ⟨row, hrow, hplaced⟩
    have hrow := mem_sortRows.mp hrow
    obtain ⟨hcollection, hitem, -⟩ := (Table.mem_rows_index h.mirrors.rows row).mp hrow
    obtain ⟨n, hn, heq⟩ := Option.map_eq_some_iff.mp hplaced
    obtain ⟨rfl, hmember⟩ := Prod.mk.inj heq
    have hkey : row.item.key = ⟨key, member⟩ := ItemKey.ext hcollection hmember
    rw [Table.attribute?, ← hkey, hitem]
    exact ((row_cell h hwhole .sphere hrow).2 n hn).1
  · intro hattribute
    obtain ⟨item, hitem, hget⟩ := Option.bind_eq_some_iff.mp hattribute
    have hkey := Table.key_of_find? hitem
    obtain ⟨text, htext⟩ := h.mirrors.sortable _ _ _ (locationName_indexed settings) hattribute
    obtain ⟨hcell, -⟩ := cell_ofInt .sphere hget htext
    refine ⟨⟨text, item⟩, mem_sortRows.mpr ?_, ?_⟩
    · refine (Table.mem_rows_index h.mirrors.rows _).mpr ⟨congrArg ItemKey.partition hkey, ?_, ?_⟩
      · rw [hkey]
        exact hitem
      · rw [hkey, h.mirrors.row, if_pos (locationName_indexed settings), hattribute]
        exact congrArg Except.toOption htext
    · rw [placed, hcell, hkey]
      rfl

/-- Rows of the index on positions compare as the places they stand for. -/
lemma sorted_placing : (table.placing settings key).Pairwise PlacedBefore := by
  have hapart := Table.apart_rows h.mirrors.items h.mirrors.rows key (some settings.locationName)
  rw [Table.placing, List.pairwise_filterMap]
  refine List.Pairwise.imp_of_mem (fun {a b} ha hb hab x hx y hy => ?_)
    (pairwise_sortRows hapart true)
  obtain ⟨m, hm, rfl⟩ := Option.map_eq_some_iff.mp hx
  obtain ⟨n, hn, rfl⟩ := Option.map_eq_some_iff.mp hy
  obtain ⟨-, hma⟩ := (row_cell h hwhole .sphere (mem_sortRows.mp ha)).2 m hm
  obtain ⟨-, hnb⟩ := (row_cell h hwhole .sphere (mem_sortRows.mp hb)).2 n hn
  rcases hab with hlt | ⟨heq, hmember⟩
  · exact .inl ((hma.whole_lt_iff hnb).mp hlt)
  · exact .inr ⟨(hma.whole_eq_iff hnb).mp heq, hmember⟩

end Client

/-- **The places in a client's table are those that its journal tells.** -/
theorem isPlacing (h : Reached settings geometry journal table) (key : String) :
    IsPlacing settings.locationName journal key (table.placing settings key) where
  sorted := sorted_placing h.clientTable h.wholeOrText
  mem_iff cell member := by
    rw [mem_placing h.clientTable h.wholeOrText, h.attribute?_eq]

/-! ## Intervals of cells -/

/-- Whether an interval holds the number of a cell. -/
def Holds (interval : ℕ × ℕ) (cell : ℤ) : Prop :=
  interval.1 ≤ cell ∧ cell ≤ interval.2

instance holdsDecidable (interval : ℕ × ℕ) (cell : ℤ) : Decidable (Holds interval cell) :=
  inferInstanceAs (Decidable (_ ∧ _))

/-- Intervals of words, no two of which hold the same number. -/
structure IsCovering (intervals : List (ℕ × ℕ)) : Prop where
  words : ∀ interval ∈ intervals, interval.1 < 2 ^ 64 ∧ interval.2 < 2 ^ 64
  apart : intervals.Pairwise fun a b => ∀ cell, Holds a cell → ¬Holds b cell

namespace GeoIndex

variable {client : Client} {interval : ℕ × ℕ}

/-- **The scan of an interval ranges over the texts of the numbers in it.** -/
theorem cellScan_bounds (client : Client)
    (hwords : interval.1 < 2 ^ 64 ∧ interval.2 < 2 ^ 64) :
    ∃ test : String → Bool,
      (∀ key pageSize, (cellScan client key interval pageSize).request.bounds = .ok test) ∧
      ∀ (cell : ℤ) text, (Magnitude.number cell).Spelled text →
        test text = decide (Holds interval cell) := by
  obtain ⟨low, hlow, hlowText⟩ := Value.sortText_ofInt (n := interval.1) (by omega)
  obtain ⟨high, hhigh, hhighText⟩ := Value.sortText_ofInt (n := interval.2) (by omega)
  refine ⟨fun text => decide (low ≤ text) && decide (text ≤ high), fun key pageSize => ?_,
    fun cell text htext => ?_⟩
  · have hoperands : [Value.ofInt interval.1, Value.ofInt interval.2].mapM Value.sortText =
        .ok [low, high] := by
      rw [List.mapM_cons, List.mapM_cons, hlow, hhigh]
      rfl
    have hclause : Condition.rangeClause ⟨client.settings.locationName, .between,
        [.ofInt interval.1, .ofInt interval.2]⟩ = .ok ⟨.between, [low, high]⟩ := by
      rw [Condition.rangeClause, hoperands]
      rfl
    rw [QueryRequest.bounds, cellScan, Option.mapM_some, hclause]
    rfl
  · dsimp only
    rw [← Bool.decide_and]
    exact decide_eq_decide.mpr
      (and_congr (hlowText.whole_le_iff htext) (htext.whole_le_iff hhighText))

/-- **The rows that an interval's scan ranges over are the places in it**, in order. -/
theorem placing_matching {table : Table} (h : ClientTable client.settings table)
    (hwhole : WholeOrText table) {test : String → Bool}
    (htest : ∀ (cell : ℤ) text, (Magnitude.number cell).Spelled text →
      test text = decide (Holds interval cell)) (pageSize : Option ℤ) :
    (table.matching (cellScan client key interval pageSize).request test).filterMap
        (fun row => placed client.settings row.item) =
      (table.placing client.settings key).filter fun e => Holds interval e.1 := by
  have hapart := Table.apart_rows h.mirrors.items h.mirrors.rows key
    (some client.settings.locationName)
  have hmatching : table.matching (cellScan client key interval pageSize).request test =
      (sortRows true (table.rows key (some client.settings.locationName))).filter
        (test ·.sortText) := sortRows_filter hapart true _
  rw [hmatching, Table.placing, List.filterMap_filter, List.filter_filterMap]
  refine List.filterMap_congr fun row hrow => ?_
  rw [placed]
  cases hcell : cellOf client.settings row.item with
  | none => split_ifs <;> rfl
  | some cell =>
      obtain ⟨-, hspelled⟩ := (row_cell h hwhole .sphere (mem_sortRows.mp hrow)).2 cell hcell
      rw [htest cell _ hspelled, Option.map_some, Option.filter_some]

end GeoIndex

end RankedTable

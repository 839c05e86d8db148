import RankedTable.Proofs.Store.Scan

/-!
# What a scan finds, whatever its pages are

The pages of a scan depend on its budget and on the page size.  If the first of them is asked for
with a number that no word can hold, it is refused; if it may have no rows, there are none; with any
other limit the scan passes over the whole range, and the limit cannot be told from what it finds.

* `QueryRequest.bounds` — the texts that a request asks for.
* `visitPage_congr` — a pass over items that look the same to its visitor.
* `visitPage_failed` — a pass over an item that its visitor refuses.
* `Scan.paged` — what becomes of a scan under a limit.
* `Scan.pass`, `pass_congr`, **`run_fold_pass`** — what a fold finds.
* `Scan.tally`, **`run_count_tally`** — what a count finds.
* **`run_collect_paged`**, **`run_collect_failed`** — what a scan collects, or where it fails.
-/

namespace RankedTable

/-- The texts that a request asks for. -/
def QueryRequest.bounds (request : QueryRequest) : Except Error (String → Bool) := do
  let clause ← request.keyRange.mapM Condition.rangeClause
  let test ← clause.mapM RangeClause.test
  return fun text => test.all (· text)

section Bounds

variable {layout : Layout} {table : Table} {request : QueryRequest} {test : String → Bool}

lemma QueryRequest.accepted_of_bounds
    (hindex : ∀ subject, request.index = some subject → subject ∈ layout.indexed)
    (h : request.bounds = .ok test) : request.Accepted layout test := by
  obtain ⟨clause, hclause, h⟩ := bind_eq_ok.mp h
  obtain ⟨inBounds, hbounds, h⟩ := bind_eq_ok.mp h
  exact ⟨hindex, clause, inBounds, hclause, hbounds, fun text => congrFun (Except.ok.inj h) text⟩

lemma QueryRequest.Accepted.bounds_eq (h : request.Accepted layout test) :
    request.bounds = .ok test := by
  obtain ⟨clause, inBounds, hclause, hbounds, htest⟩ := h.bounds
  rw [QueryRequest.bounds, hclause, ok_bind, hbounds, ok_bind]
  exact congrArg Except.ok (funext htest)

/-- Bounds that cannot be compared are refused before the limit is looked at. -/
lemma query_unbounded {e : Error} (hopen : table.isOpen = true)
    (hindex : ∀ subject, request.index = some subject → subject ∈ layout.indexed)
    (htoken : request.startKey = none) (h : request.bounds = .error e) :
    layout.query table request = .error e := by
  rw [Layout.query]
  rcases bind_eq_error.mp h with hclause | ⟨clause, hclause, h⟩
  · cases hsubject : request.index with
    | none => rw [hclause]; rfl
    | some subject =>
        have hcontains := List.contains_iff_mem.mpr (hindex subject hsubject)
        simp only [hcontains, hclause]
        rfl
  · rcases bind_eq_error.mp h with htest | ⟨inBounds, -, h⟩
    · cases hsubject : request.index with
      | none =>
          simp only [hclause, htoken, ok_bind, hopen, htest]
          rfl
      | some subject =>
          have hcontains := List.contains_iff_mem.mpr (hindex subject hsubject)
          simp only [hcontains, hclause, htoken, ok_bind, hopen, htest]
          rfl
    · cases h

end Bounds

namespace Scan

variable {β : Type} {scan : Scan} {visit : β → Item → Except Error (Visit β)}

/-! ## What a visitor sees -/

/-- A pass is the same over items that look the same to its visitor. -/
lemma visitPage_congr {γ : Type} {look : Item → γ}
    (hvisit : ∀ acc a b, look a = look b → visit acc a = visit acc b) {items others : List Item}
    (h : items.map look = others.map look) (seen : ℕ) (acc : β) :
    scan.visitPage visit seen acc items = scan.visitPage visit seen acc others := by
  induction items generalizing others seen acc with
  | nil => rw [List.map_eq_nil_iff.mp h.symm]
  | cons item rest ih =>
      obtain ⟨other, others, rfl, hlook, hrest⟩ := List.map_eq_cons_iff.mp h.symm
      rw [visitPage, visitPage, hvisit acc item other hlook.symm, ih hrest.symm]
      rcases visit acc other with e | (acc' | acc')
      · rfl
      · simp only [ih hrest.symm]
      · rfl

/-- A pass without a budget ends at the first item that its visitor refuses. -/
lemma visitPage_failed {step : β → Item → β} {front back : List Item} {item : Item} {e : Error}
    (hskip : scan.skip = 0) (htake : ¬0 < scan.take)
    (hfront : ∀ i ∈ front, ∀ acc, visit acc i = .ok (.more (step acc i)))
    (hitem : ∀ acc, visit acc item = .error e) (seen : ℕ) (acc : β) :
    scan.visitPage visit seen acc (front ++ item :: back) = .failed (front.foldl step acc) e := by
  rw [visitPage_append, visitPage_all hskip htake hfront]
  dsimp only
  rw [visitPage_cons hskip htake, hitem]

/-! ## What becomes of a scan -/

/-- What becomes of a scan under the limit of its first page: it is refused, it finds nothing, or
it finds all there is. -/
def paged {γ : Type} (limit : Option ℤ) (refused nothing whole : γ) : γ :=
  match limit with
  | none => whole
  | some n => if fitsWord n then if n = 0 then nothing else whole else refused

lemma eq_of_paged {γ : Type} {limit : Option ℤ} {refused nothing whole result : γ}
    (h : paged limit refused nothing whole = result) :
    refused = result ∨ nothing = result ∨ whole = result := by
  cases limit with
  | none => exact .inr (.inr h)
  | some n =>
      rw [paged] at h
      split_ifs at h
      · exact .inr (.inl h)
      · exact .inr (.inr h)
      · exact .inl h

/-- Under any limit, a scan is shown the front of what there is. -/
lemma prefix_of_paged {γ : Type} (limit : Option ℤ) (whole : List γ) :
    paged limit [] [] whole <+: whole := by
  rcases eq_of_paged (rfl : paged limit [] [] whole = _) with hnone | hnone | hwhole
  · exact hnone ▸ List.nil_prefix
  · exact hnone ▸ List.nil_prefix
  · exact hwhole ▸ List.prefix_rfl

lemma paged_of_isPageLimit {γ : Type} {limit : Option ℤ} (h : IsPageLimit limit)
    (refused nothing whole : γ) : paged limit refused nothing whole = whole := by
  cases limit with
  | none => rfl
  | some n => rw [paged, if_pos h.2, if_neg h.1]

lemma paged_of_fitsWord {γ : Type} {limit : Option ℤ}
    (h : ∀ n, limit = some n → fitsWord n = true) (refused nothing whole : γ) :
    paged limit refused nothing whole = if limit = some 0 then nothing else whole := by
  cases limit with
  | none => rfl
  | some n =>
      rw [paged, if_pos (h n rfl)]
      simp only [Option.some_inj]

lemma apply_paged {γ δ : Type} (f : γ → δ) (limit : Option ℤ) (refused nothing whole : γ) :
    f (paged limit refused nothing whole) =
      paged limit (f refused) (f nothing) (f whole) := by
  cases limit with
  | none => rfl
  | some n =>
      rw [paged, paged]
      split_ifs <;> rfl

/-- What a fold finds: how far one pass over the range comes. -/
def pass (scan : Scan) (limit : Option ℤ) (table : Table)
    (visit : β → Item → Except Error (Visit β)) (acc : β) : β × Option Error :=
  match scan.request.bounds with
  | .error e => (acc, some e)
  | .ok test => paged limit (acc, some .integerTooLarge) (acc, none)
      (settle (scan.visitPage visit 0 acc ((table.matching scan.request test).map Row.item)))

/-- What a count finds: the number of rows in the range. -/
def tally (scan : Scan) (limit : Option ℤ) (table : Table) : Except Error ℤ :=
  match scan.request.bounds with
  | .error e => .error (e.withSoFar (.count 0))
  | .ok test => paged limit (.error .integerTooLarge) (.ok 0)
      (.ok (table.matching scan.request test).length)

/-- How many pages a scan may read is not looked at by a pass. -/
lemma visitPage_maxPages (maxPages seen : ℕ) (acc : β) (items : List Item) :
    visitPage { scan with maxPages := maxPages } visit seen acc items =
      scan.visitPage visit seen acc items := by
  induction items generalizing seen acc with
  | nil => rfl
  | cons item rest ih =>
      rw [visitPage, visitPage]
      simp only [ih]
      rfl

/-- Folds find the same in ranges that look the same to the visitor. -/
lemma pass_congr {γ : Type} {look : Item → γ}
    (hvisit : ∀ acc a b, look a = look b → visit acc a = visit acc b) {table other : Table}
    (hlook : ∀ test, ((table.matching scan.request test).map Row.item).map look =
      ((other.matching scan.request test).map Row.item).map look)
    (maxPages : ℕ) (limit : Option ℤ) (acc : β) :
    scan.pass limit table visit acc =
      pass { scan with maxPages := maxPages } limit other visit acc := by
  rw [pass, pass]
  cases scan.request.bounds with
  | error e => rfl
  | ok test =>
      dsimp only
      rw [visitPage_congr hvisit (hlook test), visitPage_maxPages maxPages]

/-- How the limit of a first page is taken. -/
lemma isPageLimit_or (limit : Option ℤ) :
    IsPageLimit limit ∨ limit = some 0 ∨ ∃ n, limit = some n ∧ fitsWord n = false := by
  cases limit with
  | none => exact .inl trivial
  | some n =>
      cases hword : fitsWord n with
      | false => exact .inr (.inr ⟨n, rfl, hword⟩)
      | true =>
          by_cases hzero : n = 0
          · exact .inr (.inl (congrArg some hzero))
          · exact .inl ⟨hzero, hword⟩

section Runs

variable {layout : Layout} {table : Table} (hmirrors : Mirrors layout table)
  (hindex : ∀ subject, scan.request.index = some subject → subject ∈ layout.indexed)
  (hread : ∀ test, ∀ row ∈ table.matching scan.request test, row.readItem = .ok row.item)
  (hpages : table.pageBound ≤ scan.maxPages)

include hmirrors hindex hread hpages

omit hindex hread hpages in
/-- A first page that may have no rows is the last one. -/
lemma query_nothing {request : QueryRequest} {test : String → Bool}
    (haccepted : request.Accepted layout test) (htoken : request.startKey = none)
    (hrows : ∀ row ∈ table.matching request test, row.readItem = .ok row.item)
    (hlimit : tighter request.limit layout.pageSize = some 0) :
    layout.query table request = .ok { items := [], count := 0, lastKey := none } := by
  have hword : ∀ n, tighter request.limit layout.pageSize = some n → fitsWord n = true := by
    intro n hn
    rw [← Option.some_inj.mp (hlimit.symm.trans hn)]
    rfl
  have hpage := query_page hmirrors haccepted hrows (Nat.zero_le _) htoken hword
  rw [hpage, hlimit]
  cases request.selectCount <;> rfl

omit hmirrors hindex hread in
lemma exists_pages : ∃ pages, scan.maxPages = pages + 1 := by
  rw [Table.pageBound] at hpages
  exact ⟨scan.maxPages - 1, by omega⟩

/-- **A fold does what one pass over its range does**, unless its first page is refused or has no
room. -/
theorem run_fold_pass (hitems : scan.request.selectCount = false) (acc : β) :
    (scan.fold visit acc).run layout.store table =
      (.ok (scan.pass (scan.firstLimit layout) table visit acc), table) := by
  obtain ⟨pages, hmax⟩ := exists_pages hpages
  cases hbounds : scan.request.bounds with
  | error e =>
      have hquery : layout.query table (scan.pageRequest 0 none) = .error e :=
        query_unbounded hmirrors.isOpen hindex rfl hbounds
      rw [fold, hmax, foldPages, Program.run, Layout.store, hquery, pass, hbounds]
      rfl
  | ok test =>
      have haccepted := QueryRequest.accepted_of_bounds hindex hbounds
      have hpage : (scan.pageRequest 0 none).Accepted layout test :=
        ⟨haccepted.index, haccepted.bounds⟩
      rw [pass, hbounds]
      dsimp only
      rcases isPageLimit_or (scan.firstLimit layout) with hserved | hzero | ⟨n, hn, hword⟩
      · rw [paged_of_isPageLimit hserved]
        exact run_fold hmirrors haccepted rfl (hread test) hitems (served_of_firstLimit hserved)
          (Nat.lt_of_lt_of_le (table.length_matching_lt _ _) hpages) acc
      · have hquery := query_nothing hmirrors hpage rfl (hread test) hzero
        rw [fold, hmax, foldPages, Program.run, Layout.store, hquery, hzero]
        rfl
      · have hquery := query_refused hmirrors.isOpen hpage rfl hn hword
        rw [fold, hmax, foldPages, Program.run, Layout.store, hquery, hn, paged, hword]
        rfl

/-- **A count is the number of rows in its range**, unless its first page is refused or has no
room. -/
theorem run_count_tally :
    scan.count.run layout.store table =
      (scan.tally (tighter scan.pageSize layout.pageSize) table, table) := by
  obtain ⟨pages, hmax⟩ := exists_pages hpages
  cases hbounds : scan.request.bounds with
  | error e =>
      have hquery : layout.query table { scan.request with
          selectCount := true, limit := scan.pageSize, startKey := none } = .error e :=
        query_unbounded hmirrors.isOpen hindex rfl hbounds
      rw [count, hmax, countPages, Program.run, Layout.store, hquery, tally, hbounds]
      rfl
  | ok test =>
      have haccepted := QueryRequest.accepted_of_bounds hindex hbounds
      have hpage : { scan.request with
          selectCount := true, limit := scan.pageSize, startKey := none }.Accepted layout test :=
        ⟨haccepted.index, haccepted.bounds⟩
      rw [tally, hbounds]
      dsimp only
      rcases isPageLimit_or (tighter scan.pageSize layout.pageSize) with
        hserved | hzero | ⟨n, hn, hword⟩
      · rw [paged_of_isPageLimit hserved]
        exact run_count hmirrors haccepted rfl (hread test) hserved
          (Nat.lt_of_lt_of_le (table.length_matching_lt _ _) hpages)
      · have hquery := query_nothing hmirrors hpage rfl (hread test) hzero
        rw [count, hmax, countPages, Program.run, Layout.store, hquery, hzero]
        rfl
      · have hquery := query_refused hmirrors.isOpen hpage rfl hn hword
        rw [count, hmax, countPages, Program.run, Layout.store, hquery, hn, paged, hword]
        rfl

/-- **A scan that decodes every item collects the window of its budget**, unless its first page is
refused or has no room. -/
theorem run_collect_paged {α : Type} {test : String → Bool}
    {decode : Item → Except Error (String × α)} {f : Item → String × α}
    (gathered : Assoc α → Gathered) (haccepted : scan.request.Accepted layout test)
    (hdecode : ∀ row ∈ table.matching scan.request test, decode row.item = .ok (f row.item))
    (hnames : (Assoc.names (((table.matching scan.request test).map Row.item).map f)).Nodup)
    (hitems : scan.request.selectCount = false) :
    (scan.collect decode gathered).run layout.store table =
      (paged (scan.firstLimit layout) (.error .integerTooLarge) (.ok [])
        (.ok (window scan.skip scan.take
          (((table.matching scan.request test).map Row.item).map f))), table) := by
  rcases isPageLimit_or (scan.firstLimit layout) with hserved | hlimit
  · rw [paged_of_isPageLimit hserved]
    exact run_collect hmirrors haccepted rfl (hread test) gathered hdecode hnames hitems
      (served_of_firstLimit hserved)
      (Nat.lt_of_lt_of_le (table.length_matching_lt _ _) hpages)
  · rw [collect, Program.run_bind, run_fold_pass hmirrors hindex hread hpages hitems, pass,
      haccepted.bounds_eq]
    dsimp only
    rcases hlimit with hzero | ⟨n, hn, hword⟩
    · rw [hzero]
      rfl
    · rw [hn, paged, paged, hword]
      rfl

/-- **A scan without a budget fails at the first item that it cannot decode**, and takes along those
before it. -/
theorem run_collect_failed {α : Type} {test : String → Bool}
    {decode : Item → Except Error (String × α)} {f : Item → String × α}
    (gathered : Assoc α → Gathered) (haccepted : scan.request.Accepted layout test)
    {front back : List Item} {item : Item} {e : Error}
    (hrange : (table.matching scan.request test).map Row.item = front ++ item :: back)
    (hdecode : ∀ i ∈ front, decode i = .ok (f i)) (hfail : decode item = .error e)
    (hnames : (Assoc.names (front.map f)).Nodup) (hskip : scan.skip = 0) (htake : ¬0 < scan.take)
    (hitems : scan.request.selectCount = false) :
    (scan.collect decode gathered).run layout.store table =
      (paged (scan.firstLimit layout) (.error .integerTooLarge) (.ok [])
        (.error (e.withSoFar (gathered (front.map f)))), table) := by
  have hvisit : ∀ i ∈ front, ∀ m : Assoc α,
      (decode i).map (fun e => Visit.more (Assoc.insert m e.1 e.2)) =
        .ok (.more (m.insert (f i).1 (f i).2)) := by
    intro i hi m
    rw [hdecode i hi]
    rfl
  have hstop : ∀ m : Assoc α,
      (decode item).map (fun e => Visit.more (Assoc.insert m e.1 e.2)) = .error e := by
    intro m
    rw [hfail]
    rfl
  have hfront : front.foldl (fun m i => Assoc.insert m (f i).1 (f i).2) [] = front.map f := by
    rw [← Assoc.insertAll_nil hnames, Assoc.insertAll, List.foldl_map]
  rw [collect, Program.run_bind, run_fold_pass hmirrors hindex hread hpages hitems, pass,
    haccepted.bounds_eq]
  dsimp only
  rw [hrange, visitPage_failed hskip htake hvisit hstop, hfront]
  calc (outcome gathered (paged (scan.firstLimit layout) ([], some .integerTooLarge) ([], none)
          (front.map f, some e))).run layout.store table
      = paged (scan.firstLimit layout) (.error .integerTooLarge, table) (.ok [], table)
          (.error (e.withSoFar (gathered (front.map f))), table) :=
        apply_paged (fun found => (outcome gathered found).run layout.store table) _ _ _ _
    _ = _ := (apply_paged (·, table) _ _ _ _).symm

end Runs

end Scan

end RankedTable

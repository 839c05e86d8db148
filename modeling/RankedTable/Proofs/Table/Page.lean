import RankedTable.Proofs.Table.Rows

/-!
# Pages

A page is asked for with a token, which names the last row of the page before.  The rows behind
that row are the rest of the sorted list, so pages cut the list into consecutive pieces.

* `Table.matching` — all rows that a request ranges over, in order.
* `QueryRequest.Accepted` — the requests whose index and bounds are accepted.
* `tokenAt` — the token that continues at a place of the list.
* `QueryRequest.reply` — the reply with a page of rows.
* **`query_behind`** — a page has the first rows behind the row that its token names.
* `query_piece`, **`query_page`** — a page is the next piece of the list; `query_answered` — so is
  one that is answered, whether all items can be read or not.
* **`page_step`** — a page is the last one, or its token continues behind it.
-/

namespace RankedTable

/-! ## What a request ranges over -/

/-- A request is accepted if it names an index that there is, and bounds that can be tested. -/
structure QueryRequest.Accepted (layout : Layout) (request : QueryRequest)
    (test : String → Bool) : Prop where
  index : ∀ subject, request.index = some subject → subject ∈ layout.indexed
  bounds : ∃ clause inBounds, request.keyRange.mapM Condition.rangeClause = .ok clause ∧
    clause.mapM RangeClause.test = .ok inBounds ∧ ∀ text, inBounds.all (· text) = test text

/-- A request on an index that there is names no other. -/
lemma mem_indexed_of_eq {index : Option String} {name : String} {indexed : List String}
    (hindex : index = some name) (hname : name ∈ indexed) :
    ∀ subject, index = some subject → subject ∈ indexed := by
  rintro subject hsubject
  rwa [← Option.some_inj.mp (hindex.symm.trans hsubject)]

/-- All rows within a request's bounds, in its direction. -/
def Table.matching (table : Table) (request : QueryRequest) (test : String → Bool) : List Row :=
  sortRows request.forward
    ((table.rows request.partition request.index).filter (test ·.sortText))

lemma Table.mem_rows_of_mem_matching {table : Table} {request : QueryRequest}
    {test : String → Bool} {row : Row} (h : row ∈ table.matching request test) :
    row ∈ table.rows request.partition request.index :=
  List.mem_of_mem_filter (mem_sortRows.mp h)

/-- No range has more rows than a scan may read pages. -/
lemma Table.length_matching_lt (table : Table) (request : QueryRequest) (test : String → Bool) :
    (table.matching request test).length < table.pageBound := by
  have hlt := Table.length_rows_lt table request.partition request.index
  have hle := List.length_filter_le (fun row : Row => test row.sortText)
    (table.rows request.partition request.index)
  rw [Table.matching, (perm_sortRows _ _).length_eq]
  omega

/-- The token with which a list of rows is continued at a place: that of the row before it. -/
def tokenAt (rows : List Row) : ℕ → Option Token
  | 0 => none
  | k + 1 => rows[k]?.map Row.token

/-- The position at which a list of rows is continued. -/
def startAt (rows : List Row) : ℕ → Option Position
  | 0 => none
  | k + 1 => rows[k]?.map Row.position

/-- Limits that let a scan get on: none, or any word but zero; a negative one is none. -/
def IsPageLimit : Option ℤ → Prop
  | none => True
  | some n => n ≠ 0 ∧ fitsWord n = true

lemma IsPageLimit.fitsWord {limit : Option ℤ} (h : IsPageLimit limit) {n : ℤ}
    (hn : limit = some n) : fitsWord n = true := by
  rw [hn] at h
  exact h.2

/-! ## One page -/

/-- The reply to a request with a page of rows: their number, or their items as they are read. -/
def QueryRequest.reply (request : QueryRequest) (limit : Option ℤ) (page : List Row) :
    Except Error QueryPage :=
  if request.selectCount then
    .ok { count := page.length, lastKey := pageToken limit page }
  else do
    let items ← page.mapM Row.readItem
    return { items := items, count := items.length, lastKey := pageToken limit page }

variable {layout : Layout} {table : Table} {request : QueryRequest}

/-- A query that passes every check gives the rows within its bounds and behind its position. -/
lemma query_eq {clause : Option RangeClause} {inBounds : Option (String → Bool)}
    {start : Option Position} (hopen : table.isOpen = true)
    (hindex : ∀ subject, request.index = some subject → subject ∈ layout.indexed)
    (hclause : request.keyRange.mapM Condition.rangeClause = .ok clause)
    (hbounds : clause.mapM RangeClause.test = .ok inBounds)
    {fields : Option (Tree × Tree)}
    (hfields : (request.startKey.filter (!·.isEmpty)).mapM (tokenFields request.index) = .ok fields)
    (hstart : (fields.mapM fun (text, name) => do
      return Position.mk (← Bound.ofTree text) (← Bound.ofTree name)) = .ok start)
    (hlimit : ∀ n, tighter request.limit layout.pageSize = some n → fitsWord n = true) :
    layout.query table request =
      let limit := tighter request.limit layout.pageSize
      request.reply limit (cut limit (sortRows request.forward
        ((table.rows request.partition request.index).filter fun row =>
          inBounds.all (· row.sortText) && start.all (·.passed request.forward row)))) := by
  rw [Layout.query]
  cases hsubject : request.index with
  | none =>
      rw [hsubject] at hfields
      simp only [hclause, hfields, ok_bind, hopen, if_true, hbounds, hstart]
      cases hl : tighter request.limit layout.pageSize with
      | none => rfl
      | some n => simp only [hlimit n hl, if_true]; rfl
  | some subject =>
      rw [hsubject] at hfields
      have hcontains := List.contains_iff_mem.mpr (hindex subject hsubject)
      simp only [hcontains, hclause, hfields, ok_bind, hopen, if_true, hbounds, hstart]
      cases hl : tighter request.limit layout.pageSize with
      | none => rfl
      | some n => simp only [hlimit n hl, if_true]; rfl

/-- A page of more rows than a word can count is refused. -/
lemma query_refused {test : String → Bool} (hopen : table.isOpen = true)
    (haccepted : request.Accepted layout test) (htoken : request.startKey = none) {n : ℤ}
    (hlimit : tighter request.limit layout.pageSize = some n) (hn : fitsWord n = false) :
    layout.query table request = .error .integerTooLarge := by
  obtain ⟨clause, inBounds, hclause, hbounds, -⟩ := haccepted.bounds
  rw [Layout.query]
  cases hsubject : request.index with
  | none =>
      simp only [hclause, htoken, ok_bind, hopen, if_true, hbounds, hlimit, hn]
      rfl
  | some subject =>
      have hcontains := List.contains_iff_mem.mpr (haccepted.index subject hsubject)
      simp only [hcontains, hclause, htoken, ok_bind, hopen, if_true, hbounds, hlimit, hn]
      rfl

/-- A token stands for the position of the row it was made of. -/
lemma position_token {last : Option Row} {index : Option String}
    (hname : ∀ row ∈ last, index = none → row.sortText = row.member) :
    ∃ fields, ((last.map Row.token).filter (!·.isEmpty)).mapM (tokenFields index) = .ok fields ∧
      (fields.mapM fun (text, name) => do
        return Position.mk (← Bound.ofTree text) (← Bound.ofTree name)) =
          (.ok (last.map Row.position) : Except Error (Option Position)) := by
  cases last with
  | none => exact ⟨none, rfl, rfl⟩
  | some row =>
      cases index with
      | none =>
          refine ⟨some (.text row.member, .text row.member), rfl, ?_⟩
          rw [Option.map_some, Row.position, hname row rfl rfl]
          rfl
      | some subject => exact ⟨some (.text row.sortText, .text row.member), rfl, rfl⟩

/-- **A page behind a row** has the first rows of the range behind that row. -/
theorem query_behind {test : String → Bool} {last : Option Row} (hopen : table.isOpen = true)
    (haccepted : request.Accepted layout test)
    (hname : ∀ row ∈ last, request.index = none → row.sortText = row.member)
    (htoken : request.startKey = last.map Row.token)
    (hlimit : ∀ n, tighter request.limit layout.pageSize = some n → fitsWord n = true) :
    layout.query table request =
      let limit := tighter request.limit layout.pageSize
      request.reply limit (cut limit (sortRows request.forward
        ((table.rows request.partition request.index).filter fun row =>
          test row.sortText &&
            (last.map Row.position).all (·.passed request.forward row)))) := by
  obtain ⟨clause, inBounds, hclause, hbounds, htest⟩ := haccepted.bounds
  obtain ⟨fields, hfields, hstart⟩ := position_token hname
  rw [query_eq hopen haccepted.index hclause hbounds (htoken ▸ hfields) hstart hlimit]
  simp only [htest]

/-- A place of a list is behind a row of the list, or at its front. -/
lemma exists_last (rows : List Row) (k : ℕ) :
    ∃ last : Option Row, tokenAt rows k = last.map Row.token ∧
      startAt rows k = last.map Row.position ∧ ∀ row ∈ last, row ∈ rows := by
  cases k with
  | zero => exact ⟨none, rfl, rfl, fun _ hrow => nomatch hrow⟩
  | succ k => exact ⟨rows[k]?, rfl, rfl, fun _ hrow => List.mem_of_getElem? hrow⟩

/-- The rows behind a position are the rest of the list. -/
lemma sortRows_behind {rows : List Row} (hapart : Apart rows) (forward : Bool) {k : ℕ}
    (hk : k ≤ rows.length) :
    sortRows forward (rows.filter fun row =>
        (startAt (sortRows forward rows) k).all (·.passed forward row)) =
      (sortRows forward rows).drop k := by
  rw [sortRows_filter hapart]
  cases k with
  | zero => exact List.filter_eq_self.mpr fun row _ => rfl
  | succ k =>
      have hlt : k < (sortRows forward rows).length := by
        rw [(perm_sortRows forward rows).length_eq]
        exact hk
      rw [startAt, List.getElem?_eq_getElem hlt, Option.map_some]
      exact filter_passed (pairwise_sortRows hapart forward) hlt

lemma mem_of_mem_cut {limit : Option ℤ} {rows : List Row} {row : Row} (h : row ∈ cut limit rows) :
    row ∈ rows := by
  cases limit with
  | none => exact h
  | some n =>
      rw [cut] at h
      split_ifs at h
      · exact List.mem_of_mem_take h
      · exact h

/-- What a request ranges over, behind a place of the list, is the rest of the list. -/
lemma matching_behind (h : Mirrors layout table) (request : QueryRequest) (test : String → Bool)
    {k : ℕ} (hk : k ≤ (table.matching request test).length) :
    sortRows request.forward ((table.rows request.partition request.index).filter fun row =>
        test row.sortText &&
          (startAt (table.matching request test) k).all (·.passed request.forward row)) =
      (table.matching request test).drop k := by
  have hapart := (Table.apart_rows h.items h.rows request.partition request.index).filter
    (test ·.sortText)
  rw [Table.matching, (perm_sortRows request.forward _).length_eq] at hk
  rw [Table.matching, ← sortRows_behind hapart request.forward hk, List.filter_filter]
  simp only [Bool.and_comm]

/-- A page reads the next piece of what the request ranges over. -/
lemma query_piece {test : String → Bool} (h : Mirrors layout table)
    (haccepted : request.Accepted layout test) {k : ℕ}
    (hk : k ≤ (table.matching request test).length)
    (htoken : request.startKey = tokenAt (table.matching request test) k)
    (hlimit : ∀ n, tighter request.limit layout.pageSize = some n → fitsWord n = true) :
    layout.query table request =
      let limit := tighter request.limit layout.pageSize
      request.reply limit (cut limit ((table.matching request test).drop k)) := by
  obtain ⟨last, htokenAt, hstartAt, hlast⟩ := exists_last (table.matching request test) k
  have hname : ∀ row ∈ last, request.index = none → row.sortText = row.member := by
    intro row hrow hindex
    have hmem := Table.mem_rows_of_mem_matching (hlast row hrow)
    rw [hindex] at hmem
    exact ((Table.mem_rows_items h.items row).mp hmem).2.2
  rw [query_behind h.isOpen haccepted hname (htoken.trans htokenAt) hlimit, ← hstartAt]
  simp only [matching_behind h request test hk]

/-- **A page is the next piece of what the request ranges over**, if its items can be read. -/
theorem query_page {test : String → Bool} (h : Mirrors layout table)
    (haccepted : request.Accepted layout test)
    (hread : ∀ row ∈ table.matching request test, row.readItem = .ok row.item) {k : ℕ}
    (hk : k ≤ (table.matching request test).length)
    (htoken : request.startKey = tokenAt (table.matching request test) k)
    (hlimit : ∀ n, tighter request.limit layout.pageSize = some n → fitsWord n = true) :
    layout.query table request =
      let limit := tighter request.limit layout.pageSize
      let page := cut limit ((table.matching request test).drop k)
      .ok {
        items := if request.selectCount then [] else page.map Row.item
        count := page.length
        lastKey := pageToken limit page } := by
  rw [query_piece h haccepted hk htoken hlimit]
  dsimp only
  generalize hpage : cut (tighter request.limit layout.pageSize)
    ((table.matching request test).drop k) = page
  have hmem : ∀ row ∈ page, row ∈ table.matching request test := by
    intro row hrow
    rw [← hpage] at hrow
    exact List.mem_of_mem_drop (mem_of_mem_cut hrow)
  have hitems : page.mapM Row.readItem = .ok (page.map Row.item) :=
    mapM_ok fun row hrow => hread row (hmem row hrow)
  rw [QueryRequest.reply, hitems, ok_bind]
  cases request.selectCount with
  | true => rfl
  | false => simp only [List.length_map]; rfl

/-- The item of a row is read just if it does not nest too deep, and then as it is. -/
lemma Row.readItem_eq_ok {row : Row} {item : Item} :
    row.readItem = .ok item ↔ item = row.item ∧ row.item.attributes.depth ≤ Json.maxDepth := by
  rw [readItem, Table.readBack]
  split_ifs with hdepth
  · exact ⟨fun h => ⟨(Except.ok.inj h).symm, hdepth⟩, fun h => h.1 ▸ rfl⟩
  · exact ⟨(fun h => by cases h), fun h => absurd h.2 hdepth⟩

/-- A page of items that is answered is the next piece of what the request ranges over, and its
items can be read. -/
lemma query_answered {test : String → Bool} (h : Mirrors layout table)
    (haccepted : request.Accepted layout test) (hitems : request.selectCount = false) {k : ℕ}
    (hk : k ≤ (table.matching request test).length)
    (htoken : request.startKey = tokenAt (table.matching request test) k)
    (hlimit : ∀ n, tighter request.limit layout.pageSize = some n → fitsWord n = true)
    {page : QueryPage} (hpage : layout.query table request = .ok page) :
    page.items = (cut (tighter request.limit layout.pageSize)
        ((table.matching request test).drop k)).map Row.item ∧
      page.lastKey = pageToken (tighter request.limit layout.pageSize)
        (cut (tighter request.limit layout.pageSize) ((table.matching request test).drop k)) ∧
      ∀ item ∈ page.items, item.attributes.depth ≤ Json.maxDepth := by
  rw [query_piece h haccepted hk htoken hlimit] at hpage
  dsimp only at hpage
  rw [QueryRequest.reply, hitems] at hpage
  obtain ⟨items, hread, hpage⟩ := bind_eq_ok.mp hpage
  rw [← Except.ok.inj hpage]
  refine ⟨eq_map_of_mapM_ok hread fun row item h => (Row.readItem_eq_ok.mp h).1, rfl,
    fun item hitem => ?_⟩
  obtain ⟨row, -, hrow⟩ := mem_of_mapM_ok hread hitem
  obtain ⟨rfl, hdepth⟩ := Row.readItem_eq_ok.mp hrow
  exact hdepth

/-! ## From page to page -/

lemma pageToken_of_short {n : ℤ} {page : List Row} (h : (page.length : ℤ) ≠ n) :
    pageToken (some n) page = none := by
  cases hlast : page.getLast? with
  | none => simp only [pageToken, hlast]
  | some last => simp only [pageToken, hlast, if_neg h]

/-- **A page ends the list, or a token continues behind it.** -/
theorem page_step {limit : Option ℤ} (h : IsPageLimit limit) (rows : List Row) (k : ℕ) :
    (cut limit (rows.drop k) = rows.drop k ∧ pageToken limit (cut limit (rows.drop k)) = none) ∨
      ∃ n token, 0 < n ∧ k + n ≤ rows.length ∧ cut limit (rows.drop k) = (rows.drop k).take n ∧
        pageToken limit (cut limit (rows.drop k)) = some token ∧
          tokenAt rows (k + n) = some token := by
  cases limit with
  | none => exact Or.inl ⟨rfl, rfl⟩
  | some n =>
      rcases lt_or_gt_of_ne h.1 with hneg | hpos
      · have hcut : cut (some n) (rows.drop k) = rows.drop k := if_neg (not_le.mpr hneg)
        rw [hcut]
        exact Or.inl ⟨rfl, pageToken_of_short (by omega)⟩
      · have hcut : cut (some n) (rows.drop k) = (rows.drop k).take n.toNat := if_pos hpos.le
        rw [hcut]
        by_cases hfull : k + n.toNat ≤ rows.length
        · obtain ⟨j, hj⟩ : ∃ j, k + n.toNat = j + 1 := ⟨k + n.toNat - 1, by omega⟩
          have hlength : ((rows.drop k).take n.toNat).length = n.toNat := by
            rw [List.length_take, List.length_drop]
            omega
          have hgetLast : ((rows.drop k).take n.toNat).getLast? = some rows[j] := by
            rw [List.getLast?_eq_getElem?, hlength, List.getElem?_take_of_lt (by omega),
              List.getElem?_drop, List.getElem?_eq_getElem (by omega)]
            congr 2
            omega
          refine Or.inr ⟨n.toNat, rows[j].token, by omega, hfull, rfl, ?_, ?_⟩
          · simp only [pageToken, hgetLast, hlength, Int.toNat_of_nonneg hpos.le, if_true]
          · rw [hj, tokenAt, List.getElem?_eq_getElem (by omega)]
            rfl
        · have htake : (rows.drop k).take n.toNat = rows.drop k :=
            List.take_of_length_le (by rw [List.length_drop]; omega)
          rw [htake]
          refine Or.inl ⟨rfl, pageToken_of_short ?_⟩
          rw [List.length_drop]
          omega

end RankedTable

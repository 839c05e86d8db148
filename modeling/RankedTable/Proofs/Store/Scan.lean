import RankedTable.Proofs.Store.Paging
import RankedTable.Proofs.Table.Page

/-!
# Scans go through the whole range

A scan sees the rows of its range page by page.  As the pages are consecutive pieces of the sorted
list, it does what one pass over the whole list would do.

* **`cuts_store`** — a table cuts the range of a scan into pages.
* **`run_fold`** — a fold over pages is one pass over the range.
* `budgetLimit` — what the first page of a budget is asked for; `served_of_firstLimit` — if it
  can be served, so can later ones.
* `PageFits` — the budgets that a table can be asked for.
* **`run_count`** — a count is the length of the range.
* **`run_collect`** — a scan that decodes every item collects its window of the range.
* `run_collect_refused` — a scan whose pages cannot be served fails at its first one.
-/

namespace RankedTable

/-- Pages leave a table as it is. -/
lemma Store.Pages.table_eq {layout : Layout} {table table' : Table} {token last : Option Token}
    {exchanges : List Exchange} (h : layout.store.Pages table token exchanges last table') :
    table' = table := by
  induction h with
  | last hstart hquery => exact (congrArg Prod.snd hquery).symm
  | next hstart hquery htoken hrest ih => exact ih.trans (congrArg Prod.snd hquery).symm

namespace Scan

variable {β : Type} {scan : Scan} {visit : β → Item → Except Error (Visit β)}

/-! ## From page to page -/

variable {layout : Layout} {table : Table} {test : String → Bool}

/-- Whether the pages that a scan asks for can be served while its budget is not spent. -/
def Served (scan : Scan) (layout : Layout) : Prop :=
  ∀ seen, scan.spent seen = false →
    IsPageLimit (tighter (scan.pageRequest seen none).limit layout.pageSize)

/-- Whether the rows that a budget asks of the table, capped by the page size, can be counted in a
word. -/
def PageFits (pageSize : Option ℤ) (offset count : ℤ) : Prop :=
  ∀ n, tighter (if 0 < count then some (max offset 0 + count) else none) pageSize = some n →
    n < 2 ^ 63

/-- Page sizes that let scans get on. -/
def IsPageSize (pageSize : Option ℤ) : Prop :=
  ∀ n, pageSize = some n → 1 ≤ n

lemma IsPageSize.tighter {a b : Option ℤ} (ha : IsPageSize a) (hb : IsPageSize b) :
    IsPageSize (tighter a b) := by
  intro n hn
  cases a with
  | none => exact hb n hn
  | some x =>
      cases b with
      | none => exact ha n hn
      | some y => exact Option.some_inj.mp hn ▸ le_min (ha x rfl) (hb y rfl)

lemma fitsWord_iff {n : ℤ} : fitsWord n = true ↔ -2 ^ 63 ≤ n ∧ n < 2 ^ 63 := by
  rw [fitsWord, Bool.and_eq_true, decide_eq_true_eq, decide_eq_true_eq]
  omega

lemma isPageLimit_of_lt {n : ℤ} (hpos : 1 ≤ n) (hlt : n < 2 ^ 63) : IsPageLimit (some n) := by
  exact ⟨by omega, fitsWord_iff.mpr (by omega)⟩

/-- A budget of fewer rows than a word can count fits, whatever the page size is. -/
lemma pageFits_of_lt {pageSize : Option ℤ} {offset count : ℤ} (hcount : 0 < count)
    (hlt : max offset 0 + count < 2 ^ 63) : PageFits pageSize offset count := by
  intro n hn
  rw [if_pos hcount] at hn
  cases pageSize with
  | none =>
      rw [← Option.some_inj.mp hn]
      exact hlt
  | some size =>
      rw [← Option.some_inj.mp hn]
      exact lt_of_le_of_lt (min_le_left _ _) hlt

/-- Pages without a budget are those of the page size. -/
lemma isPageLimit_of_pageFits {pageSize : Option ℤ} (hsize : IsPageSize pageSize)
    (hfits : PageFits pageSize 0 0) : IsPageLimit (tighter none pageSize) := by
  cases hcap : pageSize with
  | none => trivial
  | some size =>
      rw [hcap] at hsize hfits
      exact isPageLimit_of_lt (hsize size rfl) (hfits size rfl)

/-- The limit of a scan's first page. -/
def firstLimit (scan : Scan) (layout : Layout) : Option ℤ :=
  tighter (scan.pageRequest 0 none).limit layout.pageSize

/-- The pages of a scan can be served if its first one can: later ones ask for less. -/
lemma served_of_firstLimit (hfirst : IsPageLimit (scan.firstLimit layout)) :
    scan.Served layout := by
  intro seen hspent
  rw [firstLimit, pageRequest] at hfirst
  rw [pageRequest]
  dsimp only at hfirst ⊢
  by_cases htake : 0 < scan.take
  swap
  · rwa [if_neg htake] at hfirst ⊢
  have hseen : (seen : ℤ) < scan.skip + scan.take := by
    rw [spent, Bool.and_eq_false_iff, decide_eq_false_iff_not, decide_eq_false_iff_not] at hspent
    exact not_le.mp (hspent.resolve_left (not_not.mpr htake))
  rw [if_pos htake] at hfirst ⊢
  cases hcap : layout.pageSize with
  | none =>
      rw [hcap] at hfirst
      have hlt := fitsWord_iff.mp hfirst.2
      exact isPageLimit_of_lt (by omega) (by omega)
  | some size =>
      rw [hcap] at hfirst
      have hlt := fitsWord_iff.mp hfirst.2
      refine ⟨?_, fitsWord_iff.mpr ?_⟩
      · have := hfirst.1
        omega
      · omega

/-- The limit that a budget and a page size give. -/
def budgetLimit (offset count : ℤ) (pageSize : Option ℤ) : Option ℤ :=
  tighter (if 0 < count then some (max offset 0 + count) else none) pageSize

/-- A budget that fits a word gives limits that do, if the page size does. -/
lemma fitsWord_budgetLimit {pageSize : Option ℤ}
    (hsize : ∀ n, pageSize = some n → fitsWord n = true) {offset count : ℤ}
    (hbudget : 0 < count → max offset 0 + count < 2 ^ 63) {n : ℤ}
    (hn : budgetLimit offset count pageSize = some n) : fitsWord n = true := by
  rw [budgetLimit] at hn
  by_cases hcount : 0 < count
  · have hlt := hbudget hcount
    rw [if_pos hcount] at hn
    cases pageSize with
    | none =>
        rw [← Option.some_inj.mp hn, fitsWord_iff]
        omega
    | some size =>
        have hword := fitsWord_iff.mp (hsize size rfl)
        rw [← Option.some_inj.mp hn, fitsWord_iff]
        omega
  · rw [if_neg hcount] at hn
    cases pageSize with
    | none => cases hn
    | some size => exact hsize n hn

lemma firstLimit_eq (hscan : scan.pageSize = none) (layout : Layout) :
    scan.firstLimit layout = budgetLimit scan.offset scan.take layout.pageSize := by
  have hroom : scan.take + scan.skip - (0 : ℕ) = max scan.offset 0 + scan.take := by
    rw [skip]
    omega
  rw [firstLimit, pageRequest, hscan, hroom, budgetLimit]

lemma isPageLimit_budgetLimit {pageSize : Option ℤ} (hsize : IsPageSize pageSize)
    {offset count : ℤ} (hfits : PageFits pageSize offset count) :
    IsPageLimit (budgetLimit offset count pageSize) := by
  rw [PageFits] at hfits
  rw [budgetLimit]
  by_cases hcount : 0 < count
  · rw [if_pos hcount] at hfits ⊢
    cases hcap : pageSize with
    | none =>
        rw [hcap] at hfits
        exact isPageLimit_of_lt (by omega) (hfits _ rfl)
    | some size =>
        rw [hcap] at hfits
        have hpos := hsize size hcap
        have hlt : min (max offset 0 + count) size < 2 ^ 63 := hfits _ rfl
        exact isPageLimit_of_lt (by omega) hlt
  · rw [if_neg hcount] at hfits ⊢
    exact isPageLimit_of_pageFits hsize hfits

section Pages

variable {rows : List Row} (hmirrors : Mirrors layout table)
  (haccepted : scan.request.Accepted layout test)
  (hrows : table.matching scan.request test = rows)
  (hread : ∀ row ∈ rows, row.readItem = .ok row.item)

include hmirrors haccepted hrows hread

/-- The page that a scan asks for is the next piece of its range. -/
lemma query_pageRequest (hitems : scan.request.selectCount = false) {seen k : ℕ}
    (hk : k ≤ rows.length)
    (hlimit : IsPageLimit (tighter (scan.pageRequest seen none).limit layout.pageSize)) :
    layout.query table (scan.pageRequest seen (tokenAt rows k)) =
      let limit := tighter (scan.pageRequest seen none).limit layout.pageSize
      let page := cut limit (rows.drop k)
      .ok {
        items := page.map Row.item
        count := page.length
        lastKey := pageToken limit page } := by
  subst hrows
  have hpageRequest : QueryRequest.Accepted layout
      (scan.pageRequest seen (tokenAt (table.matching scan.request test) k)) test :=
    ⟨haccepted.index, haccepted.bounds⟩
  have hpage := query_page hmirrors hpageRequest hread hk rfl fun n => hlimit.fitsWord
  have hselect : QueryRequest.selectCount
      (scan.pageRequest seen (tokenAt (table.matching scan.request test) k)) = false := hitems
  rw [hpage, hselect]
  rfl

/-- **A table cuts the range of a scan into pages**, from any place on. -/
theorem cuts_store (hitems : scan.request.selectCount = false) (hserved : scan.Served layout)
    {pages k : ℕ} (hk : k ≤ rows.length) (hpages : rows.length < k + pages) :
    scan.Cuts layout.store pages table (tokenAt rows k) ((rows.drop k).map Row.item) := by
  induction pages generalizing k with
  | zero => omega
  | succ pages ih =>
      intro seen request hasked htoken
      obtain ⟨hrequest, hspent⟩ := hasked.eq_pageRequest
      have hlimit := hserved seen hspent
      have hpage := query_pageRequest hmirrors haccepted hrows hread hitems hk hlimit
      rw [← htoken, ← hrequest] at hpage
      refine ⟨_, table, congrArg (·, table) hpage, ?_⟩
      generalize tighter (scan.pageRequest seen none).limit layout.pageSize = limit at hlimit
      dsimp only
      rcases page_step hlimit rows k with ⟨hcut, htoken⟩ | ⟨n, token, hn, hnk, hcut, htoken, hat⟩
      · rw [htoken, hcut]
      · rw [htoken, hcut]
        refine ⟨(rows.drop (k + n)).map Row.item, ?_, hat ▸ ih hnk (by omega)⟩
        rw [← List.map_append, ← List.drop_drop, List.take_append_drop]

/-- **A fold over pages is one pass over the range.** -/
theorem run_fold (hitems : scan.request.selectCount = false) (hserved : scan.Served layout)
    (hpages : rows.length < scan.maxPages) (acc : β) :
    (scan.fold visit acc).run layout.store table =
      (.ok (settle (scan.visitPage visit 0 acc (rows.map Row.item))), table) := by
  have hbound : rows.length < 0 + scan.maxPages := by omega
  have hcuts := cuts_store hmirrors haccepted hrows hread hitems hserved (Nat.zero_le _) hbound
  obtain ⟨exchanges, table', hrun, ⟨last, hpages⟩, -⟩ :=
    run_foldPages_cuts visit hcuts (spent_zero scan) acc []
  have hproject := Program.run_interrupted_none layout.store
    (scan.foldPages visit scan.maxPages (tokenAt rows 0) 0 acc) [] table
  rw [hrun, hpages.table_eq] at hproject
  exact Prod.ext hproject.1.symm hproject.2.symm

/-- **From any place on, a count adds the rest of the range.** -/
theorem run_countPages (hserved : IsPageLimit (tighter scan.pageSize layout.pageSize))
    {pages k : ℕ} (total : ℤ) (hk : k ≤ rows.length) (hpages : rows.length < k + pages) :
    (scan.countPages pages (tokenAt rows k) total).run layout.store table =
      (.ok (total + (rows.length - k : ℕ)), table) := by
  induction pages generalizing k total with
  | zero => omega
  | succ pages ih =>
      subst hrows
      have hpageRequest : { scan.request with
          selectCount := true
          limit := scan.pageSize
          startKey := tokenAt (table.matching scan.request test) k }.Accepted layout test :=
        ⟨haccepted.index, haccepted.bounds⟩
      have hpage := query_page hmirrors hpageRequest hread hk rfl fun n => hserved.fitsWord
      rw [countPages, Program.run, Layout.store, hpage]
      generalize tighter scan.pageSize layout.pageSize = limit at *
      generalize hrows : table.matching scan.request test = rows at *
      have hmatching : table.matching { scan.request with
          selectCount := true
          limit := scan.pageSize
          startKey := tokenAt rows k } test = rows := hrows
      dsimp only
      rw [hmatching]
      rcases page_step hserved rows k with ⟨hcut, htoken⟩ | ⟨n, token, hn, hnk, hcut, htoken, hat⟩
      · rw [htoken, hcut, List.length_drop]
        rfl
      · rw [htoken, hcut, List.length_take, List.length_drop, Nat.min_eq_left (by omega)]
        dsimp only
        rw [← hat, ih (total + n) hnk (by omega)]
        congr 2
        omega

/-- **A count is the length of the range.** -/
theorem run_count (hserved : IsPageLimit (tighter scan.pageSize layout.pageSize))
    (hpages : rows.length < scan.maxPages) :
    scan.count.run layout.store table = (.ok (rows.length : ℤ), table) := by
  have hbound : rows.length < 0 + scan.maxPages := by omega
  have hrun := run_countPages hmirrors haccepted hrows hread hserved 0 (Nat.zero_le _) hbound
  rw [count]
  exact hrun.trans (by simp)

/-- **A scan that decodes every item collects the window of its budget**, in order. -/
theorem run_collect {α : Type} {decode : Item → Except Error (String × α)}
    {f : Item → String × α} (gathered : Assoc α → Gathered)
    (hdecode : ∀ row ∈ rows, decode row.item = .ok (f row.item))
    (hnames : (Assoc.names ((rows.map Row.item).map f)).Nodup)
    (hitems : scan.request.selectCount = false) (hserved : scan.Served layout)
    (hpages : rows.length < scan.maxPages) :
    (scan.collect decode gathered).run layout.store table =
      (.ok (window scan.skip scan.take ((rows.map Row.item).map f)), table) := by
  have hvisit : ∀ item ∈ rows.map Row.item, ∀ m : Assoc α,
      (decode item).map (fun e => Visit.more (Assoc.insert m e.1 e.2)) =
        .ok (.more (m.insert (f item).1 (f item).2)) := by
    intro item hitem m
    obtain ⟨row, hrow, rfl⟩ := List.mem_map.mp hitem
    rw [hdecode row hrow]
    rfl
  rw [collect, Program.run_bind,
    run_fold hmirrors haccepted hrows hread hitems hserved hpages,
    visitPage_window hvisit [] (spent_zero scan), windowFrom_zero]
  have hwindow : (window scan.skip scan.take (rows.map Row.item)).foldl
      (fun m item => Assoc.insert m (f item).1 (f item).2) [] =
        window scan.skip scan.take ((rows.map Row.item).map f) := by
    have hnodup := hnames.sublist ((window_sublist scan.skip scan.take _).map Prod.fst)
    generalize rows.map Row.item = items at hnodup ⊢
    rw [← Assoc.insertAll_nil hnodup, window_map, Assoc.insertAll, List.foldl_map]
  rw [hwindow]
  rfl

end Pages

/-- **A scan whose first page is refused is refused.** -/
theorem run_collect_refused {α : Type} {decode : Item → Except Error (String × α)}
    (gathered : Assoc α → Gathered) (hopen : table.isOpen = true)
    (haccepted : scan.request.Accepted layout test) (hscan : scan.pageSize = none)
    (hpages : 0 < scan.maxPages) (hfits : ¬PageFits layout.pageSize scan.offset scan.take) :
    (scan.collect decode gathered).run layout.store table = (.error .integerTooLarge, table) := by
  obtain ⟨n, hlimit, hn⟩ : ∃ n, tighter (if 0 < scan.take then
      some (max scan.offset 0 + scan.take) else none) layout.pageSize = some n ∧ 2 ^ 63 ≤ n := by
    simpa [PageFits] using hfits
  have hword : fitsWord n = false := by
    rw [fitsWord, Bool.and_eq_false_iff, decide_eq_false_iff_not, decide_eq_false_iff_not]
    omega
  have hpageRequest : (scan.pageRequest 0 none).Accepted layout test :=
    ⟨haccepted.index, haccepted.bounds⟩
  have hpageLimit : tighter (scan.pageRequest 0 none).limit layout.pageSize = some n :=
    (firstLimit_eq hscan layout).trans hlimit
  have hquery := query_refused hopen hpageRequest rfl hpageLimit hword
  obtain ⟨pages, hmax⟩ : ∃ pages, scan.maxPages = pages + 1 := ⟨scan.maxPages - 1, by omega⟩
  rw [collect, Program.run_bind, fold, hmax, foldPages, Program.run, Layout.store, hquery]
  rfl

end Scan

end RankedTable

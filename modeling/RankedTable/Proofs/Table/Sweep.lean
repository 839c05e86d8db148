import RankedTable.Proofs.Store.Interleaving
import RankedTable.Proofs.Store.Scan
import RankedTable.Proofs.Table.Answers
import RankedTable.Proofs.Table.History

/-!
# Scans while others write

Between the pages of a scan others may write, also the very item that the token names.  A token says
behind which text and name to go on, not behind how many rows.  So whatever happened meanwhile, the
next page has only rows behind those seen, and passes over none that was there.

* `Item.SortsAs`, `Condition.Spans`, `QueryRequest.Shows` — which rows belong to a range, by the
  texts that items sort by.
* `PageShows`, **`exists_pageShows`** — a page has the first rows behind its token, and its token
  goes on behind them.
* `Sweep` — pages of a range, each from the table as it then was.
* **`Sweep.reads`** — what a sweep reads is in order, and nothing that stays is missing.
* `sweep_of_made` — the queries of a scan are a sweep.
* `SoundlyRead` — what a scan reads is in order, and shows what was there all along.
* **`sweep_amid_writes`** — scans stay sound while others write.
-/

namespace RankedTable

variable {layout : Layout} {table : Table} {request : QueryRequest}

/-! ## Which rows belong to a range -/

/-- What an item sorts by in an index: its name in the primary order, else the text of its
attribute. -/
def Item.SortsAs (index : Option String) (item : Item) (text : String) : Prop :=
  match index with
  | none => text = item.key.member
  | some subject => ∃ value, item.get? subject = some value ∧ value.sortText = .ok text

/-- Which texts a condition spans, as a range of texts. -/
def Condition.Spans (condition : Condition) (text : String) : Prop :=
  match condition.op, condition.values with
  | .eq, [v] => v.sortText = .ok text
  | .ge, [low] => ∃ l, low.sortText = .ok l ∧ l ≤ text
  | .le, [high] => ∃ h, high.sortText = .ok h ∧ text ≤ h
  | .between, [low, high] =>
    (∃ l, low.sortText = .ok l ∧ l ≤ text) ∧ ∃ h, high.sortText = .ok h ∧ text ≤ h
  | _, _ => False

/-- Whether a row has an item that the table has in the range of a request, and the text that this
item sorts by. -/
structure QueryRequest.Shows (request : QueryRequest) (table : Table) (row : Row) : Prop where
  item : table.find? row.item.key = some row.item
  partition : row.item.key.partition = request.partition
  sorts : row.item.SortsAs request.index row.sortText
  spans : ∀ condition, request.keyRange = some condition → condition.Spans row.sortText

lemma Item.SortsAs.unique {index : Option String} {item : Item} {text other : String}
    (h : item.SortsAs index text) (hother : item.SortsAs index other) : text = other := by
  cases index with
  | none => exact h.trans hother.symm
  | some subject =>
      obtain ⟨value, hvalue, htext⟩ := h
      obtain ⟨value', hvalue', hother⟩ := hother
      obtain rfl := Option.some_inj.mp (hvalue.symm.trans hvalue')
      exact Except.ok.inj (htext.symm.trans hother)

/-- The rows of a collection are its items with what they sort by. -/
lemma Mirrors.mem_rows_iff (h : Mirrors layout table) {collection : String} {index : Option String}
    (hindex : ∀ subject, index = some subject → subject ∈ layout.indexed) (row : Row) :
    row ∈ table.rows collection index ↔ table.find? row.item.key = some row.item ∧
      row.item.key.partition = collection ∧ row.item.SortsAs index row.sortText := by
  cases index with
  | none =>
      rw [Table.mem_rows_items h.items]
      exact and_left_comm
  | some subject =>
      rw [Table.mem_rows_index h.rows, and_left_comm]
      refine and_congr_right fun hfind => and_congr_right fun _ => ?_
      rw [h.row, if_pos (hindex subject rfl), Table.attribute?, hfind, Option.bind_some]
      constructor
      · intro htext
        obtain ⟨value, hvalue, hsort⟩ := Option.bind_eq_some_iff.mp htext
        refine ⟨value, hvalue, ?_⟩
        cases hok : value.sortText with
        | error e =>
            rw [hok] at hsort
            cases hsort
        | ok text =>
            rw [hok] at hsort
            exact congrArg Except.ok (Option.some_inj.mp hsort)
      · rintro ⟨value, hvalue, hsort⟩
        rw [hvalue, Option.bind_some, hsort]
        rfl

/-- Bounds that can be tested are those of the operands' texts. -/
lemma Condition.test_iff_spans {condition : Condition} {clause : RangeClause}
    {inBounds : String → Bool} (hclause : condition.rangeClause = .ok clause)
    (hbounds : clause.test = .ok inBounds) (text : String) :
    inBounds text = true ↔ condition.Spans text := by
  obtain ⟨operands, hoperands, hclause⟩ := bind_eq_ok.mp hclause
  have hvalues := forall₂_of_mapM_ok hoperands
  obtain ⟨subject, op, values⟩ := condition
  cases op with
  | eq =>
      cases hclause
      rcases hvalues with _ | ⟨hs, _ | _⟩ <;> cases hbounds
      simp [Spans, hs, eq_comm]
  | ge =>
      cases hclause
      rcases hvalues with _ | ⟨hs, _ | _⟩ <;> cases hbounds
      simp [Spans, hs]
  | le =>
      cases hclause
      rcases hvalues with _ | ⟨hs, _ | _⟩ <;> cases hbounds
      simp [Spans, hs]
  | between =>
      cases hclause
      rcases hvalues with _ | ⟨hs, _ | ⟨ht, _ | _⟩⟩ <;> cases hbounds
      simp [Spans, hs, ht]
  | present | absent | unknown => cases hclause

lemma QueryRequest.Accepted.test_iff_spans {test : String → Bool}
    (h : request.Accepted layout test) (text : String) :
    test text = true ↔ ∀ condition, request.keyRange = some condition → condition.Spans text := by
  obtain ⟨clause, inBounds, hclause, hbounds, htest⟩ := h.bounds
  rw [← htest]
  cases hcondition : request.keyRange with
  | none =>
      rw [hcondition] at hclause
      obtain rfl : none = clause := Except.ok.inj hclause
      obtain rfl : none = inBounds := Except.ok.inj hbounds
      simp
  | some condition =>
      rw [hcondition, Option.mapM_some] at hclause
      obtain ⟨clause, hsome, hclause⟩ := bind_eq_ok.mp hclause
      obtain rfl := Except.ok.inj hclause
      rw [Option.mapM_some] at hbounds
      obtain ⟨inBounds, hok, hbounds⟩ := bind_eq_ok.mp hbounds
      obtain rfl := Except.ok.inj hbounds
      rw [Option.all_some, Condition.test_iff_spans hsome hok]
      simp

/-! ## One page -/

/-- A query that is answered was accepted, and its limit is a word. -/
lemma accepted_of_query {page : QueryPage} (h : layout.query table request = .ok page) :
    (∃ test, request.Accepted layout test) ∧
      ∀ n, tighter request.limit layout.pageSize = some n → fitsWord n = true := by
  have hindex : ∀ subject, request.index = some subject → subject ∈ layout.indexed := by
    intro subject hsubject
    by_contra hnot
    rw [Layout.query, hsubject] at h
    simp only [mt List.contains_iff_mem.mp hnot] at h
    cases h
  rw [Layout.query] at h
  split at h
  case' h_1 =>
    split at h
    case' isFalse => cases h
  all_goals
    obtain ⟨clause, hclause, h⟩ := bind_eq_ok.mp h
    obtain ⟨fields, -, h⟩ := bind_eq_ok.mp h
    dsimp only at h
    split at h
    case' isFalse => cases h
    obtain ⟨inBounds, hbounds, h⟩ := bind_eq_ok.mp h
    obtain ⟨start, -, h⟩ := bind_eq_ok.mp h
    refine ⟨⟨_, hindex, clause, inBounds, hclause, hbounds, fun _ => rfl⟩, fun n hn => ?_⟩
    rw [hn] at h
    by_contra hword
    simp only [hword] at h
    cases h

/-- A token is that of the last row of its page. -/
lemma last_of_pageToken {limit : Option ℤ} {page : List Row} {token : Token}
    (h : pageToken limit page = some token) :
    ∃ last, page.getLast? = some last ∧ token = last.token := by
  cases limit with
  | none => cases h
  | some n =>
      cases hlast : page.getLast? with
      | none => simp [pageToken, hlast] at h
      | some last =>
          simp only [pageToken, hlast] at h
          split_ifs at h
          exact ⟨last, rfl, (Option.some_inj.mp h).symm⟩

/-- A page under a limit is the front of its rows, and its token is that of its last row. -/
lemma cut_split {limit : Option ℤ} (h : IsPageLimit limit) (rows : List Row) :
    ∃ rest, rows = cut limit rows ++ rest ∧
      (rest = [] ∧ pageToken limit (cut limit rows) = none ∨
        ∃ last, (cut limit rows).getLast? = some last ∧
          pageToken limit (cut limit rows) = some last.token) := by
  rcases page_step h rows 0 with ⟨hcut, htoken⟩ | ⟨n, token, -, -, hcut, htoken, -⟩
  · rw [List.drop_zero] at hcut htoken
    exact ⟨[], by rw [hcut, List.append_nil], .inl ⟨rfl, htoken⟩⟩
  · rw [List.drop_zero] at hcut htoken
    obtain ⟨last, hlast, rfl⟩ := last_of_pageToken htoken
    exact ⟨rows.drop n, by rw [hcut, List.take_append_drop], .inr ⟨last, hlast, htoken⟩⟩

/-- What a page behind a row shows of a table: of all rows of the range behind that row, in order,
those up to its own token, or all. -/
structure PageShows (request : QueryRequest) (table : Table) (last : Option Row) (page : QueryPage)
    (rows rest : List Row) : Prop where
  items : page.items = rows.map Row.item
  mem : ∀ row, row ∈ rows ++ rest ↔
    request.Shows table row ∧ ∀ l ∈ last, Row.Precedes request.forward l row
  ordered : (rows ++ rest).Pairwise (Row.Precedes request.forward)
  token : rest = [] ∧ page.lastKey = none ∨
    ∃ l, rows.getLast? = some l ∧ page.lastKey = some l.token

/-- **A page has the first rows behind its token**, and its own token goes on behind them. -/
theorem exists_pageShows {last : Option Row} {page : QueryPage} (h : Mirrors layout table)
    (hitems : request.selectCount = false)
    (hname : ∀ row ∈ last, request.index = none → row.sortText = row.member)
    (hsize : Scan.IsPageSize (tighter request.limit layout.pageSize))
    (hpage : layout.query table { request with startKey := last.map Row.token } = .ok page) :
    ∃ rows rest, PageShows request table last page rows rest := by
  obtain ⟨⟨test, hindex, hbounds⟩, hfits⟩ := accepted_of_query hpage
  have haccepted : request.Accepted layout test := ⟨hindex, hbounds⟩
  have hlimit : IsPageLimit (tighter request.limit layout.pageSize) := by
    cases hn : tighter request.limit layout.pageSize with
    | none => trivial
    | some n => exact ⟨by have := hsize n hn; omega, hfits n hn⟩
  rw [query_behind h.isOpen ⟨hindex, hbounds⟩ hname rfl hfits] at hpage
  simp only [QueryRequest.reply, hitems] at hpage
  generalize hahead : sortRows request.forward ((table.rows request.partition
    request.index).filter fun row => test row.sortText && (last.map Row.position).all
      (·.passed request.forward row)) = ahead at hpage
  obtain ⟨items, hread, hpage⟩ := bind_eq_ok.mp hpage
  obtain rfl := Except.ok.inj hpage
  obtain ⟨rest, hsplit, hend⟩ := cut_split hlimit ahead
  refine ⟨cut _ ahead, rest, ?_, fun row => ?_, ?_, hend⟩
  · exact eq_map_of_mapM_ok hread fun row item => (answers_readItem row).ok item
  · rw [← hsplit, ← hahead, mem_sortRows, List.mem_filter, Bool.and_eq_true,
      h.mem_rows_iff hindex, haccepted.test_iff_spans, Option.all_map, Option.all_eq_true]
    simp only [Row.passed_position]
    constructor
    · rintro ⟨⟨hfind, hpartition, hsorts⟩, hspans, hbehind⟩
      exact ⟨⟨hfind, hpartition, hsorts, hspans⟩, hbehind⟩
    · rintro ⟨hshows, hbehind⟩
      exact ⟨⟨hshows.item, hshows.partition, hshows.sorts⟩, hshows.spans, hbehind⟩
  · rw [← hsplit, ← hahead]
    exact pairwise_sortRows ((Table.apart_rows h.items h.rows _ _).filter _) _

/-! ## From page to page -/

lemma Row.precedes_trans {forward : Bool} {a b c : Row} (hab : Precedes forward a b)
    (hbc : Precedes forward b c) : Precedes forward a c := by
  cases forward with
  | true => exact before_trans hab hbc
  | false => exact before_trans hbc hab

/-- Rows compare by their texts and members only. -/
lemma Row.precedes_of_eq {forward : Bool} {a b c : Row} (hab : Precedes forward a b)
    (htext : b.sortText = c.sortText) (hmember : b.member = c.member) : Precedes forward a c := by
  rw [Precedes, Before, Before] at hab ⊢
  rwa [← htext, ← hmember]

lemma Row.not_precedes_of_eq {forward : Bool} {a b : Row} (htext : a.sortText = b.sortText)
    (hmember : a.member = b.member) : ¬Precedes forward a b := fun hab =>
  have hself := precedes_of_eq hab htext.symm hmember.symm
  precedes_asymm hself hself

/-- Rows in strict order have an item once, if it has one text only. -/
lemma countP_le_one {forward : Bool} {rows : List Row} {key : ItemKey} {text : String}
    (h : rows.Pairwise (Row.Precedes forward))
    (htext : ∀ row ∈ rows, row.item.key = key → row.sortText = text) :
    rows.countP (·.item.key = key) ≤ 1 := by
  induction rows with
  | nil => exact Nat.zero_le 1
  | cons row rest ih =>
      obtain ⟨hrow, hrest⟩ := List.pairwise_cons.mp h
      have hle := ih hrest fun other hother => htext other (List.mem_cons_of_mem _ hother)
      by_cases hkey : row.item.key = key
      · have hnone : rest.countP (·.item.key = key) = 0 := by
          refine List.countP_eq_zero.mpr fun other hother hsame => ?_
          have hsame := of_decide_eq_true hsame
          have hboth := (htext row (List.mem_cons_self ..) hkey).trans
            (htext other (List.mem_cons_of_mem _ hother) hsame).symm
          exact Row.not_precedes_of_eq hboth (congrArg ItemKey.member (hkey.trans hsame.symm))
            (hrow other hother)
        rw [List.countP_cons_of_pos (by simpa using hkey), hnone]
      · rwa [List.countP_cons_of_neg (by simpa using hkey)]

variable {ι : Type}

/-- Queries of a range with their pages, one after the other: each answered from the table as it
then was, and asked for with the token of the page before it, until there is none. -/
inductive Sweep (layout : Layout) (request : QueryRequest) :
    Option Token → List (Event ι Table × QueryPage) → Prop
  | last {token : Option Token} {e : Event ι Table} {page : QueryPage}
      (hcall : e.call = .query { request with startKey := token })
      (hpage : layout.query e.before { request with startKey := token } = .ok page)
      (hlast : page.lastKey = none) : Sweep layout request token [(e, page)]
  | more {token : Option Token} {e : Event ι Table} {page : QueryPage} {next : Token}
      {rest : List (Event ι Table × QueryPage)}
      (hcall : e.call = .query { request with startKey := token })
      (hpage : layout.query e.before { request with startKey := token } = .ok page)
      (hnext : page.lastKey = some next) (hrest : Sweep layout request (some next) rest) :
      Sweep layout request token ((e, page) :: rest)

/-- What the pages of a sweep behind a row show: rows of the range, in order, and every row that
stays in all tables. -/
structure SweptRows (request : QueryRequest) (last : Option Row)
    (swept : List (Event ι Table × QueryPage)) (reads : List (List Row)) : Prop where
  pages : List.Forall₂ (fun s rows => s.2.items = rows.map Row.item ∧
    ∀ row ∈ rows, request.Shows s.1.before row) swept reads
  behind : ∀ row ∈ reads.flatten, ∀ l ∈ last, Row.Precedes request.forward l row
  ordered : reads.flatten.Pairwise (Row.Precedes request.forward)
  complete : ∀ row : Row, (∀ s ∈ swept, ∃ item : Item, item.key = row.item.key ∧
      request.Shows s.1.before ⟨row.sortText, item⟩) →
    (∀ l ∈ last, Row.Precedes request.forward l row) →
      ∃ found ∈ reads.flatten, found.item.key = row.item.key

namespace SweptRows

variable {last : Option Row} {e : Event ι Table} {page : QueryPage} {rows rest : List Row}

/-- A page that shows all rows there are ends a sweep. -/
lemma single (h : PageShows request e.before last page rows []) :
    SweptRows request last [(e, page)] [rows] := by
  obtain ⟨hread, hmem, hordered, -⟩ := h
  rw [List.append_nil] at hmem hordered
  have hflatten : [rows].flatten = rows := by simp
  refine ⟨.cons ⟨hread, fun row hrow => ((hmem row).mp hrow).1⟩ .nil, ?_, ?_, ?_⟩
  all_goals rw [hflatten]
  · exact fun row hrow => ((hmem row).mp hrow).2
  · exact hordered
  · intro row hstays hbehind
    obtain ⟨item, hkey, hshows⟩ := hstays _ (List.mem_singleton_self _)
    refine ⟨⟨row.sortText, item⟩, (hmem _).mpr ⟨hshows, fun l hl => ?_⟩, hkey⟩
    exact Row.precedes_of_eq (hbehind l hl) rfl (congrArg ItemKey.member hkey.symm)

/-- A page comes before a sweep behind its last row. -/
lemma cons (h : PageShows request e.before last page rows rest) {l : Row}
    (hl : rows.getLast? = some l) {swept : List (Event ι Table × QueryPage)}
    {reads : List (List Row)} (hrest : SweptRows request (some l) swept reads) :
    SweptRows request last ((e, page) :: swept) (rows :: reads) := by
  have hmem := List.mem_of_getLast? hl
  obtain ⟨hrows, -, hahead⟩ := List.pairwise_append.mp h.ordered
  refine ⟨.cons ⟨h.items, fun row hrow => ?_⟩ hrest.pages, fun row hrow p hp => ?_, ?_,
    fun row hstays hbehind => ?_⟩
  · exact ((h.mem row).mp (List.mem_append_left _ hrow)).1
  · rcases List.mem_append.mp hrow with hrow | hrow
    · exact ((h.mem row).mp (List.mem_append_left _ hrow)).2 p hp
    · have hlast := ((h.mem l).mp (List.mem_append_left _ hmem)).2 p hp
      exact Row.precedes_trans hlast (hrest.behind row hrow l rfl)
  · refine List.pairwise_append.mpr ⟨hrows, hrest.ordered, fun a ha b hb => ?_⟩
    have hb := hrest.behind b hb l rfl
    obtain ⟨front, rfl⟩ := List.getLast?_eq_some_iff.mp hl
    rcases List.mem_append.mp ha with ha | ha
    · exact Row.precedes_trans ((List.pairwise_append.mp hrows).2.2 a ha l (by simp)) hb
    · rwa [List.mem_singleton.mp ha]
  · -- the row is on this page, or behind its last row and so found later
    obtain ⟨item, hkey, hshows⟩ := hstays _ (List.mem_cons_self ..)
    have hmember : row.member = item.key.member := congrArg ItemKey.member hkey.symm
    have hrow := (h.mem ⟨row.sortText, item⟩).mpr ⟨hshows, fun p hp =>
      Row.precedes_of_eq (hbehind p hp) rfl hmember⟩
    rcases List.mem_append.mp hrow with hrow | hrow
    · exact ⟨_, List.mem_append_left _ hrow, hkey⟩
    · obtain ⟨found, hfound, hkey⟩ := hrest.complete row
        (fun s hs => hstays s (List.mem_cons_of_mem _ hs)) (fun p hp => by
          obtain rfl := Option.some_inj.mp hp
          exact Row.precedes_of_eq (hahead l hmem _ hrow) rfl hmember.symm)
      exact ⟨found, List.mem_append_right _ hfound, hkey⟩

end SweptRows

/-- **What a sweep reads is in order, and nothing that stays is missing.** -/
theorem Sweep.reads {last : Option Row} {swept : List (Event ι Table × QueryPage)}
    (h : Sweep layout request (last.map Row.token) swept)
    (hmirrors : ∀ s ∈ swept, Mirrors layout s.1.before) (hitems : request.selectCount = false)
    (hname : ∀ row ∈ last, request.index = none → row.sortText = row.member)
    (hsize : Scan.IsPageSize (tighter request.limit layout.pageSize)) :
    ∃ reads, SweptRows request last swept reads := by
  generalize htoken : last.map Row.token = token at h
  induction h generalizing last with
  | @last token e page _ hpage hlast =>
      subst htoken
      obtain ⟨rows, rest, hshows⟩ := exists_pageShows (hmirrors _ (List.mem_singleton_self _))
        hitems hname hsize hpage
      obtain ⟨rfl, -⟩ | ⟨l, -, hl⟩ := hshows.token
      · exact ⟨_, .single hshows⟩
      · cases hlast.symm.trans hl
  | @more token e page next swept _ hpage hnext hrest ih =>
      subst htoken
      obtain ⟨rows, rest, hshows⟩ := exists_pageShows (hmirrors _ (List.mem_cons_self ..))
        hitems hname hsize hpage
      obtain ⟨-, hl⟩ | ⟨l, hl, htoken⟩ := hshows.token
      · cases hnext.symm.trans hl
      have hlname : ∀ row ∈ some l, request.index = none → row.sortText = row.member := by
        intro row hrow hindex
        obtain rfl := Option.some_inj.mp hrow
        have hmem := List.mem_append_left rest (List.mem_of_getLast? hl)
        have hsorts := ((hshows.mem l).mp hmem).1.sorts
        rwa [hindex] at hsorts
      obtain ⟨reads, hreads⟩ := ih (fun s hs => hmirrors s (List.mem_cons_of_mem _ hs)) hlname
        (htoken.symm.trans hnext)
      exact ⟨_, hreads.cons hshows hl⟩

namespace SweptRows

variable {swept : List (Event ι Table × QueryPage)} {reads : List (List Row)}

/-- Each row read was shown by the table of its page. -/
lemma shows (h : SweptRows request none swept reads) {row : Row} (hrow : row ∈ reads.flatten) :
    ∃ s ∈ swept, request.Shows s.1.before row := by
  have hpages := h.pages
  clear h
  induction hpages with
  | nil => exact absurd hrow List.not_mem_nil
  | @cons s rows swept reads hpage _ ih =>
      rcases List.mem_append.mp hrow with hrow | hrow
      · exact ⟨s, List.mem_cons_self .., hpage.2 row hrow⟩
      · obtain ⟨s', hs', hshows⟩ := ih hrow
        exact ⟨s', List.mem_cons_of_mem _ hs', hshows⟩

/-- The items of the pages are those of the rows read. -/
lemma items (h : SweptRows request none swept reads) :
    swept.flatMap (·.2.items) = reads.flatten.map Row.item := by
  have hpages := h.pages
  clear h
  induction hpages with
  | nil => rfl
  | cons hpage _ ih => rw [List.flatMap_cons, List.flatten_cons, List.map_append, hpage.1, ih]

/-- In the order of names no item is read twice. -/
lemma nodup_names (h : SweptRows request none swept reads) (hindex : request.index = none) :
    ((reads.flatten.map Row.item).map Item.key).Nodup := by
  have hname : ∀ row ∈ reads.flatten, row.sortText = row.member := by
    intro row hrow
    obtain ⟨s, -, hshows⟩ := h.shows hrow
    have hsorts := hshows.sorts
    rwa [hindex] at hsorts
  rw [List.map_map, List.Nodup, List.pairwise_map]
  refine h.ordered.imp_of_mem fun {a b} ha hb hab hkey => ?_
  have hmember : a.member = b.member := congrArg ItemKey.member hkey
  exact Row.not_precedes_of_eq (by rw [hname a ha, hname b hb, hmember]) hmember hab

/-- An item that all tables show with one text is read once. -/
lemma countP_eq_one (h : SweptRows request none swept reads) (hne : swept ≠ []) (key : ItemKey)
    (text : String) (hstays : ∀ s ∈ swept, ∃ item : Item, item.key = key ∧
      request.Shows s.1.before ⟨text, item⟩) :
    (reads.flatten.map Row.item).countP (·.key = key) = 1 := by
  rw [List.countP_map]
  have htext : ∀ row ∈ reads.flatten, row.item.key = key → row.sortText = text := by
    rintro row hrow rfl
    obtain ⟨s, hs, hshows⟩ := h.shows hrow
    obtain ⟨item, hkey, hstays⟩ := hstays s hs
    have hitem := hstays.item
    rw [hkey, hshows.item] at hitem
    obtain rfl := Option.some_inj.mp hitem
    exact hshows.sorts.unique hstays.sorts
  refine Nat.le_antisymm (countP_le_one h.ordered htext) (List.countP_pos_iff.mpr ?_)
  obtain ⟨s, hs⟩ := List.exists_mem_of_ne_nil _ hne
  obtain ⟨item, hkey, -⟩ := hstays s hs
  obtain ⟨row, hrow, hrowKey⟩ := h.complete ⟨text, item⟩
    (fun s hs => by rw [hkey]; exact hstays s hs) fun _ hl => nomatch hl
  exact ⟨row, hrow, decide_eq_true (hrowKey.trans hkey)⟩

end SweptRows

lemma Sweep.ne_nil {token : Option Token} {swept : List (Event ι Table × QueryPage)}
    (h : Sweep layout request token swept) : swept ≠ [] := by
  cases h with
  | last => exact List.cons_ne_nil _ _
  | more => exact List.cons_ne_nil _ _

/-- Each event of a sweep is a query, with the page that answered it. -/
lemma Sweep.answered {token : Option Token} {swept : List (Event ι Table × QueryPage)}
    (h : Sweep layout request token swept) : ∀ s ∈ swept, ∃ asked,
      s.1.call = .query asked ∧ layout.query s.1.before asked = .ok s.2 := by
  induction h with
  | last hcall hpage hlast => exact List.forall_mem_singleton.mpr ⟨_, hcall, hpage⟩
  | more hcall hpage hnext hrest ih => exact List.forall_mem_cons.mpr ⟨⟨_, hcall, hpage⟩, ih⟩

/-! ## Shared runs -/

lemma made_call {α σ : Type} {store : Store σ} {c : Call} {next : Except Error c.Reply → Program α}
    {events : List (Event ι σ)} {q : Program α} (h : Made store (.call c next) events q)
    (hq : q.isDone = true) :
    ∃ i s rest, events = ⟨i, c, s⟩ :: rest ∧ Made store (next (store c s).1) rest q := by
  cases h with
  | nil => cases hq
  | @cons i _ s _ events _ hrest => exact ⟨i, s, events, rfl, hrest⟩

/-- **The queries of a scan are a sweep**, if the scan has no offset and no budget and comes to an
end. -/
theorem sweep_of_made {scan : Scan} (hskip : scan.skip = 0) (htake : ¬0 < scan.take)
    {finish : List Item × Option Error → Program (List Item)}
    (hfinish : ∀ taken, finish (taken, none) = .done (.ok taken.reverse))
    (hfail : ∀ taken e, finish (taken, some e) = .done (.error e))
    {pages seen : ℕ} {token : Option Token} {taken found : List Item}
    {events : List (Event ι Table)}
    (h : Made layout.store (scan.foldPages (fun taken item => .ok (.more (item :: taken))) pages
      token seen taken >>= finish) events (.done (.ok found))) :
    ∃ swept, Sweep layout { scan.request with limit := scan.pageSize } token swept ∧
      events = swept.map Prod.fst ∧ found = taken.reverse ++ swept.flatMap (·.2.items) := by
  induction pages generalizing token seen taken events with
  | zero =>
      change Made layout.store (finish (taken, some .unfinishedScan)) events _ at h
      rw [hfail] at h
      cases h
  | succ pages ih =>
      rw [Scan.foldPages] at h
      obtain ⟨i, table, rest, rfl, hmade⟩ := made_call h rfl
      have hrequest : scan.pageRequest seen token =
          { scan.request with limit := scan.pageSize, startKey := token } := by
        rw [Scan.pageRequest, if_neg htake]
      cases hpage : layout.query table (scan.pageRequest seen token) with
      | error e =>
          have hreply : (layout.store (.query (scan.pageRequest seen token)) table).1 = .error e :=
            hpage
          rw [hreply] at hmade
          change Made layout.store (finish (taken, some e)) rest _ at hmade
          rw [hfail] at hmade
          cases hmade
      | ok page =>
          have hreply : (layout.store (.query (scan.pageRequest seen token)) table).1 = .ok page :=
            hpage
          rw [hreply] at hmade
          dsimp only at hmade
          rw [Scan.visitPage_all hskip htake fun _ _ _ => rfl, List.foldl_flip_cons_eq_append,
            List.map_id'] at hmade
          rw [hrequest] at hpage ⊢
          cases hnext : page.lastKey with
          | none =>
              rw [hnext] at hmade
              change Made layout.store (finish (page.items.reverse ++ taken, none)) rest _ at hmade
              rw [hfinish] at hmade
              cases hmade
              exact ⟨[(_, page)], .last rfl hpage hnext, rfl, by simp⟩
          | some next =>
              rw [hnext] at hmade
              obtain ⟨swept, hsweep, rfl, rfl⟩ := ih hmade
              exact ⟨(_, page) :: swept, .more rfl hpage hnext hsweep, rfl, by simp⟩

/-- What the queries of a scan read from the range of a request, each from the table as it then was,
and what the scan found by them. -/
structure SoundlyRead (layout : Layout) (request : QueryRequest) (queries : List (Event ι Table))
    (reads : List (List Row)) (found : List Item) : Prop where
  /-- Each page has rows of its table, in range. -/
  pages : List.Forall₂ (fun e rows => (∃ asked page, e.call = .query asked ∧
      layout.query e.before asked = .ok page ∧ page.items = rows.map Row.item) ∧
    ∀ row ∈ rows, request.Shows e.before row) queries reads
  items : found = reads.flatten.map Row.item
  /-- The rows are in order of their texts when they were read, and of their names. -/
  ordered : reads.flatten.Pairwise (Row.Precedes request.forward)
  /-- In the order of names no item is found twice. -/
  once : request.index = none → (found.map Item.key).Nodup
  /-- An item that every query could have shown with one and the same text is found once. -/
  complete : ∀ key text, (∀ e ∈ queries, ∃ item, item.key = key ∧
    request.Shows e.before ⟨text, item⟩) → found.countP (·.key = key) = 1

/-- **Scans stay sound while others write.**  Whatever other programs do between the pages of a scan
without offset and budget, if the scan ends then it has read soundly. -/
theorem sweep_amid_writes [DecidableEq ι] (layout : Layout) (calls : List Call)
    {programs left : ι → Program (List Item)} {events : List (Event ι Table)} {table : Table}
    (h : Interleaved layout.store programs (layout.perform calls).2 events left table) {i : ι}
    {scan : Scan} (hscan : programs i = scan.items) (hoffset : scan.offset ≤ 0)
    (htake : scan.take ≤ 0) (hitems : scan.request.selectCount = false)
    (hsize : Scan.IsPageSize scan.pageSize) (hcap : Scan.IsPageSize layout.pageSize)
    {found : List Item} (hend : left i = .done (.ok found)) :
    ∃ reads, SoundlyRead layout scan.request (callsOf i events) reads found := by
  have hinvariant := h.invariant (P := fun _ _ => True) (fun j => Program.calls_any _)
    (fun _ c _ _ hs => hs.store c) (mirrors_perform layout calls)
  have hmade := h.made i
  rw [hscan, hend] at hmade
  obtain ⟨swept, hsweep, hevents, rfl⟩ := sweep_of_made (Int.toNat_of_nonpos hoffset)
    (not_lt.mpr htake) (fun taken => rfl) (fun taken e => rfl) hmade
  have hmem : ∀ s ∈ swept, s.1 ∈ callsOf i events := fun s hs =>
    hevents ▸ List.mem_map_of_mem hs
  have hmirrors : ∀ s ∈ swept, Mirrors layout s.1.before := fun s hs =>
    (hinvariant s.1 (List.mem_of_mem_filter (hmem s hs))).2
  have hstart : Sweep layout { scan.request with limit := scan.pageSize }
      ((none : Option Row).map Row.token) swept := hsweep
  obtain ⟨reads, hreads⟩ := hstart.reads hmirrors hitems (fun _ hrow => nomatch hrow)
    (hsize.tighter hcap)
  have hfound : swept.flatMap (·.2.items) = reads.flatten.map Row.item := hreads.items
  rw [List.reverse_nil, List.nil_append, hfound, hevents]
  refine ⟨reads, List.forall₂_map_left_iff.mpr ?_, rfl, hreads.ordered, hreads.nodup_names,
    fun key text hstays => hreads.countP_eq_one hsweep.ne_nil key text fun s hs => ?_⟩
  · refine ((List.forall₂_and_left _ _).mpr ⟨hsweep.answered, hreads.pages⟩).imp ?_
    rintro s rows ⟨⟨asked, hcall, hpage⟩, hread, hshows⟩
    refine ⟨⟨asked, s.2, hcall, hpage, hread⟩, fun row hrow => ?_⟩
    obtain ⟨hitem, hpartition, hsorts, hspans⟩ := hshows row hrow
    exact ⟨hitem, hpartition, hsorts, hspans⟩
  · obtain ⟨item, hkey, hshows⟩ := hstays s.1 (List.mem_map_of_mem hs)
    exact ⟨item, hkey, hshows.item, hshows.partition, hshows.sorts, hshows.spans⟩

/-- The row of a member of one collection, by its number. -/
def numbered (member number : String) : Row :=
  ⟨number, ⟨⟨"k", member⟩, [("n", .text number)]⟩⟩

/-- The table of the members of some rows, with their numbers. -/
def numberedTable (rows : List Row) : Table where
  items := rows.map Row.item
  index := rows.map fun row => ⟨row.item.key, "n", row.sortText⟩

/-- A page of one has the first member behind another by its number, if there is one. -/
lemma query_numbered (rows : List Row) (last : Option Row) :
    (Layout.mk ["n"] "pk" "sk" (some 1)).store
        (.query { partition := "k", index := some "n", startKey := last.map Row.token })
        (numberedTable rows) =
      let page := cut (some 1) ((((numberedTable rows).rows "k" (some "n")).filter fun row =>
        (last.map Row.position).all (·.passed true row)).insertionSort fun a b => Row.le a b = true)
      (do
        let items ← page.mapM Row.readItem
        return { items := items, count := items.length, lastKey := pageToken (some 1) page },
        numberedTable rows) := by
  have haccepted : QueryRequest.Accepted ⟨["n"], "pk", "sk", some 1⟩
      { partition := "k", index := some "n", startKey := last.map Row.token } fun _ => true :=
    ⟨mem_indexed_of_eq rfl (List.mem_singleton_self _), none, none, rfl, rfl, fun _ => rfl⟩
  rw [Layout.store, query_behind rfl haccepted (fun _ _ h => by cases h) rfl
    fun n hn => by cases hn; rfl, sortRows_eq_insertionSort]
  rfl

/-- With pages of one item, the item that the token names is deleted, and one that was read moves
to the end: it is read again there, and the item that stays is read once. -/
theorem sweep_amid_writes_moved :
    ∃ (layout : Layout) (calls : List Call) (scan : Scan) (writer : Program (List Item))
      (turns : List Bool) (found : List Item) (reads : List (List Row)),
      let programs : Bool → Program (List Item) := fun scans => if scans then scan.items else writer
      let shared := Program.interleave layout.store programs (layout.perform calls).2 turns
      layout.pageSize = some 1 ∧ scan.request.index = some "n" ∧
        shared.2.1 true = .done (.ok found) ∧
        found.map (·.key.member) = ["a", "b", "c", "b"] ∧
        SoundlyRead layout scan.request (callsOf true shared.1) reads found := by
  let layout : Layout := ⟨["n"], "pk", "sk", some 1⟩
  let calls : List Call := [.update ⟨"k", "a"⟩ [("n", .text "1")] [],
    .update ⟨"k", "b"⟩ [("n", .text "2")] [], .update ⟨"k", "c"⟩ [("n", .text "3")] []]
  let scan : Scan := { request := { partition := "k", index := some "n" }, maxPages := 5 }
  let writer : Program (List Item) := do
    Program.perform (.delete ⟨"k", "a"⟩ [])
    Program.perform (.update ⟨"k", "b"⟩ [("n", .text "4")] [])
    return []
  let programs : Bool → Program (List Item) := fun scans => if scans then scan.items else writer
  let turns := [true, false, true, false, true, true, true]
  let found : List Item := [⟨⟨"k", "a"⟩, [("n", .text "1")]⟩, ⟨⟨"k", "b"⟩, [("n", .text "2")]⟩,
    ⟨⟨"k", "c"⟩, [("n", .text "3")]⟩, ⟨⟨"k", "b"⟩, [("n", .text "4")]⟩]
  have hend : (Program.interleave layout.store programs (layout.perform calls).2 turns).2.1 true =
      .done (.ok found) := by
    refine Program.left_of_call rfl (query_numbered
      [numbered "a" "1", numbered "b" "2", numbered "c" "3"] none) ?_
    refine Program.left_of_call rfl
      (rfl : _ = (Except.ok (), numberedTable [numbered "b" "2", numbered "c" "3"])) ?_
    refine Program.left_of_call rfl (query_numbered _ (numbered "a" "1")) ?_
    refine Program.left_of_call rfl
      (rfl : _ = (Except.ok (), numberedTable [numbered "b" "4", numbered "c" "3"])) ?_
    refine Program.left_of_call rfl (query_numbered _ (numbered "b" "2")) ?_
    refine Program.left_of_call rfl (query_numbered _ (numbered "c" "3")) ?_
    refine Program.left_of_call rfl (query_numbered _ (numbered "b" "4")) ?_
    rfl
  have hcap : Scan.IsPageSize layout.pageSize := fun n hn => (Option.some_inj.mp hn).le
  obtain ⟨reads, hreads⟩ := sweep_amid_writes layout calls
    (Program.interleaved_interleave layout.store programs (layout.perform calls).2 turns)
    (rfl : programs true = scan.items) (Int.le_refl 0) (Int.le_refl 0) rfl (fun _ hn => nomatch hn)
    hcap hend
  exact ⟨layout, calls, scan, writer, turns, found, reads, rfl, rfl, hend, rfl, hreads⟩

end RankedTable

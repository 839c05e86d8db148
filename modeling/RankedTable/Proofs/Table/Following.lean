import RankedTable.Proofs.Store.Scan
import RankedTable.Proofs.Table.Contents
import RankedTable.Proofs.Table.Selection

/-!
# Following the tokens

A client that asks again with the token of each page, until there is none, goes through a range.
Every page may have a limit of its own.  As a page is the next piece of one strictly ordered list,
and a page with a token is not empty, it comes to an end, having seen each item of the range once.

* `Followed` — the pages that a client is answered on its way; `Followed.unique` — there is only
  one way.
* `Visits` — a way that goes through given rows; `Visits.last`, `Visits.more` — one page of it.
* `exists_visits` — from every place of a range there is a way to its end.
* **`follow_visits_once`** — on the way each item of the range is seen once, in order.
* `follow_refused` — pages that are too large and items that nest too deep are not served.
-/

namespace RankedTable

/-! ## The way through a range -/

/-- The request for the next page. -/
def QueryRequest.next (request : QueryRequest) (limit : Option ℤ) (token : Option Token) :
    QueryRequest :=
  { request with limit := limit, startKey := token }

/-- The pages that a request is answered, one after the other, from the `i`-th on: each is asked for
with the token of the one before and a limit of its own, until a page has no token. -/
inductive Followed (layout : Layout) (table : Table) (request : QueryRequest)
    (limits : ℕ → Option ℤ) : ℕ → Option Token → List QueryPage → Prop
  | last {i : ℕ} {token : Option Token} {page : QueryPage}
      (hpage : layout.query table (request.next (limits i) token) = .ok page)
      (hlast : page.lastKey = none) : Followed layout table request limits i token [page]
  | more {i : ℕ} {token : Option Token} {page : QueryPage} {next : Token} {pages : List QueryPage}
      (hpage : layout.query table (request.next (limits i) token) = .ok page)
      (hnext : page.lastKey = some next)
      (hrest : Followed layout table request limits (i + 1) (some next) pages) :
      Followed layout table request limits i token (page :: pages)

variable {layout : Layout} {table : Table} {request : QueryRequest} {limits : ℕ → Option ℤ}

/-- **There is only one way through a range.** -/
theorem Followed.unique {i : ℕ} {token : Option Token} {pages other : List QueryPage}
    (h : Followed layout table request limits i token pages)
    (hother : Followed layout table request limits i token other) : pages = other := by
  induction h generalizing other with
  | last hpage hlast =>
      cases hother with
      | last hpage' => rw [Except.ok.inj (hpage.symm.trans hpage')]
      | more hpage' hnext' =>
          rw [← Except.ok.inj (hpage.symm.trans hpage'), hlast] at hnext'
          cases hnext'
  | more hpage hnext hrest ih =>
      cases hother with
      | last hpage' hlast' =>
          rw [← Except.ok.inj (hpage.symm.trans hpage'), hnext] at hlast'
          cases hlast'
      | more hpage' hnext' hrest' =>
          obtain rfl := Except.ok.inj (hpage.symm.trans hpage')
          obtain rfl := Option.some_inj.mp (hnext.symm.trans hnext')
          rw [ih hrest']

/-! ## From page to page -/

/-- The page that a limit cuts off rows. -/
def pageOf (limit : Option ℤ) (rows : List Row) : QueryPage where
  items := (cut limit rows).map Row.item
  count := (cut limit rows).length
  lastKey := pageToken limit (cut limit rows)

/-- A page that only counts its items. -/
def QueryPage.counted (page : QueryPage) : QueryPage :=
  { page with items := [] }

/-- Limits under which a page has rows and is served. -/
def IsServed (limit : Option ℤ) : Prop :=
  ∀ n, limit = some n → 1 ≤ n ∧ n < 2 ^ 63

lemma IsServed.isPageLimit {limit : Option ℤ} (h : IsServed limit) : IsPageLimit limit := by
  cases limit with
  | none => trivial
  | some n => exact Scan.isPageLimit_of_lt (h n rfl).1 (h n rfl).2

/-- A page keeps to its limit. -/
lemma IsServed.length_pageOf_le {limit : Option ℤ} (h : IsServed limit) (rows : List Row) {n : ℤ}
    (hn : limit = some n) : ((pageOf limit rows).items.length : ℤ) ≤ n := by
  have hpos := (h n hn).1
  subst hn
  rw [pageOf, List.length_map, cut, if_pos (by omega), List.length_take]
  omega

/-- A way that goes through rows, the `i`-th page being the first; it is the same whether items are
fetched or only counted, and every page keeps to its limit. -/
structure Visits (layout : Layout) (table : Table) (request : QueryRequest)
    (limits : ℕ → Option ℤ) (i : ℕ) (token : Option Token) (rows : List Row)
    (pages : List QueryPage) : Prop where
  followed : Followed layout table { request with selectCount := false } limits i token pages
  counted : Followed layout table { request with selectCount := true } limits i token
    (pages.map QueryPage.counted)
  items : pages.flatMap (·.items) = rows.map Row.item
  count : ∀ page ∈ pages, page.count = page.items.length
  limited : ∀ j page n, pages[j]? = some page →
    tighter (limits (i + j)) layout.pageSize = some n → page.items.length ≤ n

namespace Visits

variable {i : ℕ} {token : Option Token} {rows : List Row}
  (hpage : ∀ selectCount, layout.query table (QueryRequest.next
    { request with selectCount := selectCount } (limits i) token) =
      .ok (if selectCount then (pageOf (tighter (limits i) layout.pageSize) rows).counted
        else pageOf (tighter (limits i) layout.pageSize) rows))
  (hserved : IsServed (tighter (limits i) layout.pageSize))

include hpage hserved

/-- A page without a token that cuts nothing off ends the way. -/
lemma last (hall : cut (tighter (limits i) layout.pageSize) rows = rows)
    (hlast : pageToken (tighter (limits i) layout.pageSize)
      (cut (tighter (limits i) layout.pageSize) rows) = none) :
    Visits layout table request limits i token rows
      [pageOf (tighter (limits i) layout.pageSize) rows] where
  followed := .last (hpage false) hlast
  counted := .last (hpage true) hlast
  items := by rw [List.flatMap_singleton, pageOf, hall]
  count page hmem := by
    rw [List.mem_singleton.mp hmem, pageOf, List.length_map]
  limited j page n hj hn := by
    cases j with
    | zero =>
        rw [← Option.some_inj.mp hj]
        exact hserved.length_pageOf_le rows hn
    | succ j => cases hj

/-- A page with a token is followed by the way through the rows behind it. -/
lemma more {n : ℕ} {next : Token} {pages : List QueryPage}
    (hpiece : cut (tighter (limits i) layout.pageSize) rows = rows.take n)
    (hnext : pageToken (tighter (limits i) layout.pageSize)
      (cut (tighter (limits i) layout.pageSize) rows) = some next)
    (hrest : Visits layout table request limits (i + 1) (some next) (rows.drop n) pages) :
    Visits layout table request limits i token rows
      (pageOf (tighter (limits i) layout.pageSize) rows :: pages) where
  followed := .more (hpage false) hnext hrest.followed
  counted := .more (hpage true) hnext hrest.counted
  items := by
    rw [List.flatMap_cons, hrest.items, pageOf, hpiece, ← List.map_append, List.take_append_drop]
  count page hmem := by
    rcases List.mem_cons.mp hmem with rfl | hmem
    · rw [pageOf, List.length_map]
    · exact hrest.count page hmem
  limited j page m hj hm := by
    cases j with
    | zero =>
        rw [← Option.some_inj.mp hj]
        exact hserved.length_pageOf_le rows hm
    | succ j =>
        refine hrest.limited j page m hj ?_
        rw [Nat.add_assoc, Nat.add_comm 1 j]
        exact hm

end Visits

section Range

variable {test : String → Bool} (hmirrors : Mirrors layout table)
  (haccepted : request.Accepted layout test)
  (hread : ∀ row ∈ table.matching request test, row.readItem = .ok row.item)
  (hlimits : ∀ i, IsServed (tighter (limits i) layout.pageSize))

include hmirrors haccepted hread hlimits

/-- The page at a place of a range, with its items or only counted. -/
lemma query_next {k : ℕ} (hk : k ≤ (table.matching request test).length) (i : ℕ)
    (selectCount : Bool) :
    layout.query table (QueryRequest.next { request with selectCount := selectCount } (limits i)
        (tokenAt (table.matching request test) k)) =
      let page := pageOf (tighter (limits i) layout.pageSize) ((table.matching request test).drop k)
      .ok (if selectCount then page.counted else page) := by
  have haccepted' : (QueryRequest.next { request with selectCount := selectCount } (limits i)
      (tokenAt (table.matching request test) k)).Accepted layout test :=
    ⟨haccepted.index, haccepted.bounds⟩
  rw [query_page hmirrors haccepted' hread hk rfl fun n => (hlimits i).isPageLimit.fitsWord]
  cases selectCount <;> rfl

/-- **From every place of a range there is a way to its end.** -/
theorem exists_visits {k : ℕ} (hk : k ≤ (table.matching request test).length) (i : ℕ) :
    ∃ pages, Visits layout table request limits i (tokenAt (table.matching request test) k)
      ((table.matching request test).drop k) pages := by
  -- on the number of rows that are left: a page with a token has one at least
  induction hleft : (table.matching request test).length - k using Nat.strong_induction_on
    generalizing k i with
  | _ left ih =>
      have hpage := query_next hmirrors haccepted hread hlimits hk i
      rcases page_step (hlimits i).isPageLimit (table.matching request test) k with
        ⟨hall, hlast⟩ | ⟨n, token, hn, hkn, hpiece, hnext, hat⟩
      · exact ⟨_, Visits.last hpage (hlimits i) hall hlast⟩
      · obtain ⟨pages, hrest⟩ := ih _ (by omega) hkn (i + 1) rfl
        rw [hat, ← List.drop_drop] at hrest
        exact ⟨_, Visits.more hpage (hlimits i) hpiece hnext hrest⟩

end Range

/-! ## The whole range -/

/-- What a way through the whole range of a request is: it is the only one, fetching items and only
counting them; the items it sees are those of the range, each once and in order; and the pages keep
to their limits. -/
structure VisitsOnce (layout : Layout) (table : Table) (request : QueryRequest)
    (limits : ℕ → Option ℤ) (pages : List QueryPage) : Prop where
  followed : ∀ other, Followed layout table { request with selectCount := false } limits 0 none
    other ↔ other = pages
  counted : ∀ other, Followed layout table { request with selectCount := true } limits 0 none
    other ↔ other = pages.map QueryPage.counted
  items : ∀ item, item ∈ pages.flatMap (·.items) ↔ item ∈ table.items ∧ request.Selects item
  ordered : (pages.flatMap (·.items)).Pairwise (Item.Precedes request.index request.forward)
  once : ((pages.flatMap (·.items)).map Item.key).Nodup
  count : ∀ page ∈ pages, page.count = page.items.length
  limited : ∀ i page n, pages[i]? = some page → tighter (limits i) layout.pageSize = some n →
    page.items.length ≤ n

/-- **Following the tokens visits each item of a range once, in order**, whether items are fetched
or only counted, and whatever limits the pages have. -/
theorem follow_visits_once (layout : Layout) (calls : List Call) (request : QueryRequest)
    (limits : ℕ → Option ℤ) (kind : Value.Kind)
    (hkind : (layout.perform calls).2.IsOfKind layout request kind)
    (hrange : ∀ condition, request.keyRange = some condition → condition.IsRange kind)
    (hlimits : ∀ i, IsServed (tighter (limits i) layout.pageSize))
    (hdepth : ∀ item ∈ (layout.perform calls).2.items, request.Selects item →
      item.attributes.depth ≤ Json.maxDepth) :
    ∃ pages, VisitsOnce layout (layout.perform calls).2 request limits pages := by
  have hmirrors := mirrors_perform layout calls
  obtain ⟨test, haccepted, htest⟩ := exists_accepted hkind hrange
  have hmem := mem_matching hmirrors hkind htest
  have hread : ∀ row ∈ (layout.perform calls).2.matching request test,
      row.readItem = .ok row.item := by
    intro row hrow
    obtain ⟨hitem, hselects⟩ := (hmem row.item).mp (List.mem_map_of_mem hrow)
    rw [Row.readItem, Table.readBack, if_pos (hdepth _ hitem hselects)]
    rfl
  obtain ⟨pages, hvisits⟩ := exists_visits hmirrors haccepted hread hlimits (Nat.zero_le _) 0
  have hitems : pages.flatMap (·.items) =
      ((layout.perform calls).2.matching request test).map Row.item := hvisits.items
  refine ⟨pages, fun other => ⟨fun h => h.unique hvisits.followed, ?_⟩,
    fun other => ⟨fun h => h.unique hvisits.counted, ?_⟩, ?_, ?_, ?_, hvisits.count, ?_⟩
  · rintro rfl
    exact hvisits.followed
  · rintro rfl
    exact hvisits.counted
  · rw [hitems]
    exact hmem
  · rw [hitems]
    exact pairwise_matching hmirrors hkind
  · have hapart := (Table.apart_rows hmirrors.items hmirrors.rows request.partition
      request.index).filter (test ·.sortText)
    have hmembers := ((perm_sortRows request.forward _).map Row.member).nodup_iff.mpr hapart
    rw [hitems]
    refine List.Nodup.of_map ItemKey.member ?_
    rw [List.map_map, List.map_map]
    exact hmembers
  · intro i page n hpage hn
    exact hvisits.limited i page n hpage (by rwa [Nat.zero_add])

/-- One number spelled in two ways, with a page ending between them and an empty one at last. -/
theorem follow_visits_once_tied :
    ∃ (layout : Layout) (calls : List Call) (request : QueryRequest) (pages : List QueryPage),
      layout.pageSize = some 1 ∧ request.index = some "n" ∧ request.keyRange.isSome ∧
        (layout.perform calls).2.items.length = 3 ∧
        VisitsOnce layout (layout.perform calls).2 request (fun _ => none) pages := by
  let layout : Layout := ⟨["n"], "pk", "sk", some 1⟩
  let calls : List Call := [.update ⟨"k", "a"⟩ [("n", .number "1")] [],
    .update ⟨"k", "b"⟩ [("n", .number "1.0")] [], .update ⟨"k", "c"⟩ [("n", .number "-1")] []]
  let request : QueryRequest :=
    { partition := "k", index := some "n", keyRange := some ⟨"n", .ge, [.number "1"]⟩ }
  have hitems : (layout.perform calls).2.items = [⟨⟨"k", "a"⟩, [("n", .number "1")]⟩,
      ⟨⟨"k", "b"⟩, [("n", .number "1.0")]⟩, ⟨⟨"k", "c"⟩, [("n", .number "-1")]⟩] := rfl
  have hkind : (layout.perform calls).2.IsOfKind layout request .number := by
    refine ⟨List.mem_cons_self .., fun item hitem _ value hvalue => ?_⟩
    rw [hitems] at hitem
    rcases hitem with _ | ⟨_, _ | ⟨_, _ | ⟨_, ⟨⟩⟩⟩⟩ <;>
      · rw [← Option.some_inj.mp hvalue]
        rfl
  have hrange : ∀ condition, request.keyRange = some condition → condition.IsRange .number := by
    intro condition hcondition
    rw [← Option.some_inj.mp hcondition]
    exact ⟨rfl, _, .number (d := .finite false 1 0) rfl fun _ => by decide⟩
  have hlimits : ∀ _ : ℕ, IsServed (tighter none layout.pageSize) := by
    intro _ n hn
    rw [← Option.some_inj.mp hn]
    decide
  have hdepth : ∀ item ∈ (layout.perform calls).2.items, request.Selects item →
      item.attributes.depth ≤ Json.maxDepth := by
    intro item hitem _
    rw [hitems] at hitem
    rcases hitem with _ | ⟨_, _ | ⟨_, _ | ⟨_, ⟨⟩⟩⟩⟩ <;> decide
  obtain ⟨pages, hpages⟩ :=
    follow_visits_once layout calls request (fun _ => none) .number hkind hrange hlimits hdepth
  exact ⟨layout, calls, request, pages, rfl, rfl, rfl, rfl, hpages⟩

/-! ## What cannot be followed -/

/-- A value that nests less is written than is read back. -/
lemma query_unreadable (layout : Layout) (hindexed : layout.indexed = [])
    (hpageSize : layout.pageSize = none) {v : Value} (hnesting : v.nesting ≤ maxNesting)
    (hdepth : Json.maxDepth < v.depth + 1) :
    (layout.perform [.update ⟨"k", "a"⟩ [("m", v)] []]).2.items =
        [⟨⟨"k", "a"⟩, [("m", v)]⟩] ∧
      layout.query (layout.perform [.update ⟨"k", "a"⟩ [("m", v)] []]).2 { partition := "k" } =
        .error .invalidField := by
  have htable : (layout.perform [.update ⟨"k", "a"⟩ [("m", v)] []]).2 =
      { items := [⟨⟨"k", "a"⟩, [("m", v)]⟩] } := by
    change (Layout.commit {} (layout.update {} ⟨"k", "a"⟩ [("m", v)] [])).2 = _
    rw [Layout.update_empty hindexed ⟨"k", "a"⟩ "m" hnesting]
    rfl
  have hread := Table.readBack_deep "m" hdepth
  rw [htable]
  refine ⟨rfl, ?_⟩
  have hclause : (none : Option Condition).mapM Condition.rangeClause =
      (.ok none : Except Error (Option RangeClause)) := rfl
  have hbounds : (none : Option RangeClause).mapM RangeClause.test =
      (.ok none : Except Error (Option (String → Bool))) := rfl
  have hfields : ((none : Option Token).filter (!·.isEmpty)).mapM (tokenFields none) =
      (.ok none : Except Error (Option (Tree × Tree))) := rfl
  have hlimit : IsPageLimit (tighter none layout.pageSize) := by
    rw [hpageSize]
    trivial
  rw [query_eq rfl (fun _ h => by cases h) hclause hbounds hfields rfl fun n => hlimit.fitsWord,
    hpageSize]
  change ([(⟨"a", ⟨⟨"k", "a"⟩, [("m", v)]⟩⟩ : Row)].mergeSort _).mapM Row.readItem >>= _ = _
  rw [List.mergeSort_singleton, List.mapM_cons, Row.readItem, hread]
  rfl

/-- Pages of more rows than a word can count are refused, and so are items that nest too deep to be
read back. -/
theorem follow_refused :
    (∃ layout : Layout, layout.pageSize = some (2 ^ 63) ∧ ∀ pages,
      ¬Followed layout (layout.perform []).2 { partition := "k" } (fun _ => none) 0 none pages) ∧
    ∃ (layout : Layout) (calls : List Call) (item : Item), layout.pageSize = none ∧
      item ∈ (layout.perform calls).2.items ∧ QueryRequest.Selects { partition := "k" } item ∧
        ∀ pages, ¬Followed layout (layout.perform calls).2 { partition := "k" } (fun _ => none) 0
          none pages := by
  constructor
  · refine ⟨⟨[], "pk", "sk", some (2 ^ 63)⟩, rfl, fun pages h => ?_⟩
    cases h with
    | last hpage => cases hpage
    | more hpage => cases hpage
  · have hnesting : (textWithin 100).nesting ≤ maxNesting := by
      rw [nesting_textWithin]
      decide
    have hdepth : Json.maxDepth < (textWithin 100).depth + 1 := by
      rw [depth_textWithin]
      decide
    obtain ⟨hitems, hquery⟩ := query_unreadable ⟨[], "pk", "sk", none⟩ rfl rfl hnesting hdepth
    refine ⟨_, _, ⟨⟨"k", "a"⟩, [("m", textWithin 100)]⟩, rfl, hitems ▸ List.mem_singleton_self _,
      ⟨rfl, .text "a", rfl, fun _ h => by cases h⟩, fun pages h => ?_⟩
    cases h with
    | last hpage => cases hquery.symm.trans hpage
    | more hpage => cases hquery.symm.trans hpage

end RankedTable

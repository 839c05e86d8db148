import Mathlib.Algebra.GroupWithZero.Nat
import Mathlib.Algebra.Ring.Int.Defs
import RankedTable.Proofs.Store.Budget
import RankedTable.Proofs.Store.Calls

/-!
# Scans over any pages

A store may cut a range into pages as it likes: of any length, of none although a token goes on, and
differently for every limit that it is asked for.  A scan does not notice, and it asks for no page
that it does not need.

* `Exchange`, `Store.Pages` — pages that a store answers queries with, linked by tokens.
* `Scan.Asked` — what a scan asks a page for after so many items.
* `Scan.Cuts` — a store cuts a range into pages.
* **`run_foldPages_cuts`** — from any place on, a fold over pages is one pass over what is left.
* **`run_countPages_linked`** — from any place on, a count adds up the counts of the pages.
* **`run_over_pages`** — scans yield the window of their budget, and counts add up all pages.
-/

namespace RankedTable

/-! ## Pages linked by tokens -/

/-- A query and the page that answers it. -/
structure Exchange where
  request : QueryRequest
  page : QueryPage

namespace Exchange

/-- The call that asks for the page. -/
def call (e : Exchange) : Call := .query e.request

/-- How many items are on pages. -/
def seen (exchanges : List Exchange) : ℕ :=
  (exchanges.map (·.page.items.length)).sum

@[simp] lemma seen_nil : seen [] = 0 := rfl

@[simp] lemma seen_cons (e : Exchange) (rest : List Exchange) :
    seen (e :: rest) = e.page.items.length + seen rest :=
  List.sum_cons

end Exchange

/-- A store answers queries with pages: the first one for a token, and each other one for the token
of the page before it.  The token of the last page is not followed. -/
inductive Store.Pages {σ : Type} (store : Store σ) :
    σ → Option Token → List Exchange → Option Token → σ → Prop
  | last {s s' : σ} {token : Option Token} {e : Exchange} (hstart : e.request.startKey = token)
      (hquery : store e.call s = (.ok e.page, s')) : Pages store s token [e] e.page.lastKey s'
  | next {s s' s'' : σ} {token last : Option Token} {following : Token} {e : Exchange}
      {rest : List Exchange} (hstart : e.request.startKey = token)
      (hquery : store e.call s = (.ok e.page, s')) (htoken : e.page.lastKey = some following)
      (hrest : Pages store s' (some following) rest last s'') :
      Pages store s token (e :: rest) last s''

namespace Scan

variable {σ β : Type} {store : Store σ} {scan : Scan}

/-- What a scan asks a page for after so many items: for the rest of its budget, which is not spent,
or for pages of its size if there is no budget. -/
structure Asked (scan : Scan) (seen : ℕ) (request : QueryRequest) : Prop where
  range : request =
    { scan.request with limit := request.limit, startKey := request.startKey }
  budget : 0 < scan.take →
    ∃ n, request.limit = some n ∧ n = max scan.offset 0 + scan.take - seen ∧ 1 ≤ n
  size : ¬0 < scan.take → request.limit = scan.pageSize

/-- A store cuts a range into pages, at most so many: whatever a page is asked for, it is a piece
from the front of what is left, and its token goes on with the rest. -/
def Cuts (scan : Scan) (store : Store σ) : ℕ → σ → Option Token → List Item → Prop
  | 0, _, _, _ => False
  | pages + 1, s, token, items =>
    ∀ seen request, scan.Asked seen request → request.startKey = token →
      ∃ page s', store (.query request) s = (.ok page, s') ∧
        match page.lastKey with
        | none => items = page.items
        | some next => ∃ rest, items = page.items ++ rest ∧ Cuts scan store pages s' next rest

/-- The queries of a scan from a place on: linked by tokens, and each for what is still needed. -/
structure Course (scan : Scan) (store : Store σ) (s : σ) (token : Option Token) (seen : ℕ)
    (exchanges : List Exchange) (s' : σ) : Prop where
  pages : ∃ last, store.Pages s token exchanges last s'
  asked : ∀ before e after, exchanges = before ++ e :: after →
    scan.Asked (seen + Exchange.seen before) e.request

lemma asked_pageRequest {seen : ℕ} (hspent : scan.spent seen = false) (token : Option Token) :
    scan.Asked seen (scan.pageRequest seen token) := by
  rw [spent, Bool.and_eq_false_iff, decide_eq_false_iff_not, decide_eq_false_iff_not] at hspent
  refine ⟨rfl, fun htake => ⟨_, if_pos htake, ?_, ?_⟩, fun htake => if_neg htake⟩
  · rw [skip, Int.toNat_eq_max]
    omega
  · omega

lemma Asked.eq_pageRequest {seen : ℕ} {request : QueryRequest} (h : scan.Asked seen request) :
    request = scan.pageRequest seen request.startKey ∧ scan.spent seen = false := by
  by_cases htake : 0 < scan.take
  · obtain ⟨n, hlimit, hn, hpos⟩ := h.budget htake
    have hroom : n = scan.take + scan.skip - seen := by
      rw [skip, Int.toNat_eq_max]
      omega
    refine ⟨?_, ?_⟩
    · rw [pageRequest, if_pos htake, ← hroom, ← hlimit]
      exact h.range
    · rw [spent, Bool.and_eq_false_iff, decide_eq_false_iff_not, decide_eq_false_iff_not]
      omega
  · refine ⟨?_, ?_⟩
    · rw [pageRequest, if_neg htake, ← h.size htake]
      exact h.range
    · rw [spent, decide_eq_false htake, Bool.false_and]

/-- One page is a course. -/
lemma Course.single {s s' : σ} {seen : ℕ} {e : Exchange}
    (hquery : store e.call s = (.ok e.page, s')) (hasked : scan.Asked seen e.request) :
    scan.Course store s e.request.startKey seen [e] s' := by
  refine ⟨⟨_, .last rfl hquery⟩, fun before first after h => ?_⟩
  obtain ⟨rfl, rfl, -⟩ : before = [] ∧ e = first ∧ after = [] := by
    cases before with
    | nil => simpa [eq_comm] using h
    | cons other before => simp at h
  exact hasked

/-- A page whose token is followed comes before a course. -/
lemma Course.cons {s s' s'' : σ} {seen : ℕ} {e : Exchange} {rest : List Exchange} {token : Token}
    (hquery : store e.call s = (.ok e.page, s')) (hasked : scan.Asked seen e.request)
    (htoken : e.page.lastKey = some token)
    (hrest : scan.Course store s' (some token) (seen + e.page.items.length) rest s'') :
    scan.Course store s e.request.startKey seen (e :: rest) s'' := by
  obtain ⟨⟨last, hpages⟩, hrest⟩ := hrest
  refine ⟨⟨last, .next rfl hquery htoken hpages⟩, fun before first after h => ?_⟩
  cases before with
  | nil =>
      obtain ⟨rfl, -⟩ := List.cons.inj h
      exact hasked
  | cons other before =>
      obtain ⟨rfl, hsplit⟩ := List.cons.inj h
      rw [Exchange.seen_cons, ← Nat.add_assoc]
      exact hrest before first after hsplit

/-! ## Runs -/

/-- A store that keeps the calls made keeps a query, too. -/
lemma interrupted_query {s s' : σ} {request : QueryRequest} {page : QueryPage}
    (hquery : store (.query request) s = (.ok page, s')) (calls : List Call) :
    store.interrupted FaultPlan.none (.query request) (calls, s) =
      (.ok page, .query request :: calls, s') := by
  rw [Store.interrupted, FaultPlan.none, hquery]

/-- **From any place on, a fold over pages is one pass over what is left.** -/
theorem run_foldPages_cuts (visit : β → Item → Except Error (Visit β)) {pages : ℕ} {s : σ}
    {token : Option Token} {items : List Item}
    (hcuts : scan.Cuts store pages s token items) {seen : ℕ} (hspent : scan.spent seen = false)
    (acc : β) (calls : List Call) :
    ∃ exchanges s',
      (scan.foldPages visit pages token seen acc).run (store.interrupted FaultPlan.none)
          (calls, s) =
        (.ok (settle (scan.visitPage visit seen acc items)),
          (exchanges.map Exchange.call).reverse ++ calls, s') ∧
        scan.Course store s token seen exchanges s' := by
  induction pages generalizing s token items seen acc calls with
  | zero => exact absurd hcuts id
  | succ pages ih =>
      have hasked := asked_pageRequest hspent token
      obtain ⟨page, s', hquery, hnext⟩ := hcuts seen _ hasked rfl
      have hsingle : scan.Course store s token seen [⟨scan.pageRequest seen token, page⟩] s' :=
        Course.single (e := ⟨_, page⟩) hquery hasked
      rw [foldPages, Program.run, interrupted_query hquery]
      dsimp only
      cases htoken : page.lastKey with
      | none =>
          rw [htoken] at hnext
          refine ⟨_, s', ?_, hsingle⟩
          rw [hnext]
          cases scan.visitPage visit seen acc page.items <;> rfl
      | some next =>
          rw [htoken] at hnext
          obtain ⟨rest, rfl, hrest⟩ := hnext
          rw [visitPage_append]
          cases hvisit : scan.visitPage visit seen acc page.items with
          | failed acc e => exact ⟨_, s', rfl, hsingle⟩
          | finished acc => exact ⟨_, s', rfl, hsingle⟩
          | more seen' acc' =>
              obtain ⟨rfl, hspent'⟩ := visitPage_more hspent hvisit
              obtain ⟨exchanges, s'', hrun, hcourse⟩ := ih hrest hspent' acc'
                (.query (scan.pageRequest seen token) :: calls)
              refine ⟨⟨scan.pageRequest seen token, page⟩ :: exchanges, s'', ?_,
                Course.cons (e := ⟨_, page⟩) hquery hasked htoken hcourse⟩
              rw [List.map_cons, List.reverse_cons, List.append_assoc]
              exact hrun

/-- **From any place on, a count adds up the counts of the pages.** -/
theorem run_countPages_linked {s s' : σ} {token last : Option Token} {exchanges : List Exchange}
    (hpages : store.Pages s token exchanges last s') (hlast : last = none)
    (hasked : ∀ e ∈ exchanges, ∃ token, e.request = { scan.request with
      selectCount := true, limit := scan.pageSize, startKey := token })
    {pages : ℕ} (hbound : exchanges.length ≤ pages) (total : ℤ) (calls : List Call) :
    (scan.countPages pages token total).run (store.interrupted FaultPlan.none) (calls, s) =
      (.ok (total + (exchanges.map (·.page.count)).sum),
        (exchanges.map Exchange.call).reverse ++ calls, s') := by
  induction hpages generalizing pages total calls with
  | @last s s' start e hstart hquery =>
      subst hstart
      obtain ⟨request, page⟩ := e
      obtain ⟨token, rfl : request = _⟩ := hasked _ (List.mem_singleton_self _)
      obtain ⟨pages, rfl⟩ : ∃ n, pages = n + 1 := ⟨pages - 1, by simp at hbound; omega⟩
      rw [countPages, Program.run, interrupted_query hquery]
      dsimp only at hlast ⊢
      rw [hlast]
      simp [Exchange.call]
  | @next s s' s'' start last following e rest hstart hquery htoken hrest ih =>
      subst hstart
      obtain ⟨request, page⟩ := e
      obtain ⟨token, rfl : request = _⟩ := hasked _ (List.mem_cons_self ..)
      obtain ⟨pages, rfl⟩ : ∃ n, pages = n + 1 := ⟨pages - 1, by simp at hbound; omega⟩
      have hrun := ih hlast (fun e he => hasked e (List.mem_cons_of_mem _ he))
        (by simpa using hbound)
      rw [countPages, Program.run, interrupted_query hquery]
      dsimp only at htoken ⊢
      rw [htoken]
      dsimp only
      rw [hrun, List.map_cons, List.sum_cons, List.map_cons, List.reverse_cons, List.append_assoc,
        add_assoc]
      rfl

/-- A scan that takes all items of its budget yields the window of its budget. -/
lemma run_items_cuts {s : σ} {items : List Item}
    (hcuts : scan.Cuts store scan.maxPages s none items) :
    ∃ exchanges s',
      scan.items.run (store.interrupted FaultPlan.none) ([], s) =
        (.ok (window scan.skip scan.take items), (exchanges.map Exchange.call).reverse, s') ∧
        scan.Course store s none 0 exchanges s' := by
  obtain ⟨exchanges, s', hrun, hcourse⟩ :=
    run_foldPages_cuts (fun found item => .ok (.more (item :: found))) hcuts (spent_zero scan) [] []
  refine ⟨exchanges, s', ?_, hcourse⟩
  rw [visitPage_window (fun _ _ _ => rfl) [] (spent_zero scan), windowFrom_zero,
    List.append_nil] at hrun
  rw [Scan.items, Program.run_bind, fold, hrun]
  dsimp only
  rw [← List.foldr_reverse, List.foldr_cons_nil, Program.run_pure, List.reverse_reverse]

end Scan

/-! ## Pages handed out one by one -/

/-- A store that answers each query with the next page of a list, and nothing else. -/
def Store.handOut : Store (List QueryPage)
  | .query _, page :: rest => (.ok page, rest)
  | _, pages => (.error (.store .unavailable), pages)

/-- Any list of pages, of which only the last one has no token, cuts its items. -/
lemma Scan.cuts_handOut (scan : Scan) {pages : List QueryPage} {last : QueryPage}
    (hpages : ∀ page ∈ pages, page.lastKey.isSome) (hlast : last.lastKey = none)
    (token : Option Token) :
    scan.Cuts Store.handOut (pages.length + 1) (pages ++ [last]) token
      ((pages ++ [last]).flatMap (·.items)) := by
  induction pages generalizing token with
  | nil =>
      intro seen request _ _
      refine ⟨last, [], rfl, ?_⟩
      rw [hlast]
      exact List.append_nil _
  | cons page rest ih =>
      intro seen request _ _
      refine ⟨page, rest ++ [last], rfl, ?_⟩
      obtain ⟨next, hnext⟩ := Option.isSome_iff_exists.mp (hpages page (List.mem_cons_self ..))
      rw [hnext]
      exact ⟨_, List.flatMap_cons, ih (fun p hp => hpages p (List.mem_cons_of_mem _ hp)) _⟩

/-! ## Whole scans -/

/-- **Scans and counts do not depend on how a store cuts pages.**  If it cuts a range into pages, a
scan yields the range without the items of its offset, up to its budget.  The scan asks for the
pages in the order of the tokens, for none behind a page without a token or with its budget spent,
and for no more items than it still needs.  A count adds up the counts of all pages. -/
theorem run_over_pages {σ : Type} (scan : Scan) (store : Store σ) (s : σ) :
    (∀ items, scan.Cuts store scan.maxPages s none items →
      ∃ exchanges s',
        scan.items.run (store.interrupted FaultPlan.none) ([], s) =
          (.ok (Scan.window scan.skip scan.take items), (exchanges.map Exchange.call).reverse, s') ∧
          scan.Course store s none 0 exchanges s') ∧
      ∀ exchanges s', store.Pages s none exchanges none s' →
        (∀ e ∈ exchanges, ∃ token, e.request = { scan.request with
          selectCount := true, limit := scan.pageSize, startKey := token }) →
        exchanges.length ≤ scan.maxPages →
        scan.count.run (store.interrupted FaultPlan.none) ([], s) =
          (.ok (exchanges.map (·.page.count)).sum, (exchanges.map Exchange.call).reverse, s') := by
  refine ⟨fun items hcuts => Scan.run_items_cuts hcuts, fun exchanges s' hpages hasked hbound => ?_⟩
  have hrun := Scan.run_countPages_linked hpages rfl hasked hbound 0 []
  rwa [zero_add, List.append_nil] at hrun

/-- Three items on two pages with an empty one between them: the offset goes over the first page,
and the budget ends within the last one. -/
theorem run_over_pages_spread :
    ∃ (scan : Scan) (pages : List QueryPage) (exchanges : List Exchange) (a b c : Item),
      (scan.offset, scan.take, scan.maxPages) = (1, 1, 3) ∧
        pages.map (·.items) = [[a], [], [b, c]] ∧
        scan.Cuts Store.handOut 3 pages none [a, b, c] ∧
        Store.handOut.Pages pages none exchanges none [] ∧
        (scan.items.run (Store.handOut.interrupted FaultPlan.none) ([], pages)).1 = .ok [b] ∧
        (scan.count.run (Store.handOut.interrupted FaultPlan.none) ([], pages)).1 = .ok 3 := by
  let item (name : String) : Item := ⟨⟨"k", name⟩, []⟩
  let token (name : String) : Token := [("sk", .text name)]
  let front : List QueryPage := [⟨[item "a"], 1, some (token "a")⟩, ⟨[], 0, some (token "b")⟩]
  let last : QueryPage := ⟨[item "b", item "c"], 2, none⟩
  let scan : Scan := { request := { partition := "k" }, offset := 1, take := 1, maxPages := 3 }
  let asked (token : Option Token) : QueryRequest :=
    { partition := "k", selectCount := true, startKey := token }
  let exchanges : List Exchange := [⟨asked none, ⟨[item "a"], 1, some (token "a")⟩⟩,
    ⟨asked (some (token "a")), ⟨[], 0, some (token "b")⟩⟩, ⟨asked (some (token "b")), last⟩]
  have hcuts : scan.Cuts Store.handOut 3 (front ++ [last]) none [item "a", item "b", item "c"] :=
    scan.cuts_handOut (by decide) rfl none
  have hpages : Store.handOut.Pages (front ++ [last]) none exchanges none [] :=
    .next rfl rfl rfl (.next rfl rfl rfl (.last rfl rfl))
  have hasked : ∀ e ∈ exchanges, ∃ token, e.request = { scan.request with
      selectCount := true, limit := scan.pageSize, startKey := token } := by
    simp only [exchanges, List.forall_mem_cons]
    exact ⟨⟨_, rfl⟩, ⟨_, rfl⟩, ⟨_, rfl⟩, fun _ h => nomatch h⟩
  obtain ⟨hitems, hcount⟩ := run_over_pages scan Store.handOut (front ++ [last])
  obtain ⟨_, _, hrun, -⟩ := hitems _ hcuts
  exact ⟨scan, front ++ [last], exchanges, item "a", item "b", item "c", rfl, rfl, hcuts, hpages,
    congrArg Prod.fst hrun, congrArg Prod.fst (hcount _ _ hpages hasked (Nat.le_refl 3))⟩

end RankedTable

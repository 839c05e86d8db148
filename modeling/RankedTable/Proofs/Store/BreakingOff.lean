import RankedTable.Proofs.Store.Outage
import RankedTable.Proofs.Store.Pass

/-!
# Programs that break off

A program that cannot do without the answer to a call ends where the call fails.  What it ends with
then is told along its run on the store without failures: by the calls before the one that fails.

* `Error.OfStore` — the errors that take along what was found.
* `Program.trace` — the calls of a run.
* `Outage.Strikes` — an outage that starts with one call of a run; `Outage.single` — one that is
  over with it.
* `Program.BreaksOff` — wherever a call fails, a program ends there, and with what.
* `BreaksOff.bind`, `BreaksOff.imp` — programs built from others.
* **`run_failing_breaksOff`** — the run of a program that breaks off.
* `Layout.delivered` — the items on the pages that queries are answered with.
* **`breaksOff_foldPages`**, **`breaksOff_fold`** — a fold ends with what it made of these items.
* **`breaksOff_collect`** — a scan ends with what it decoded of them.
* **`breaksOff_countPages`**, **`breaksOff_count`** — a count ends with their number.
-/

namespace RankedTable

variable {α β σ : Type}

/-- The errors of a store, which take along what was gathered before them. -/
inductive Error.OfStore : Error → Prop
  | store (fault : StoreFault) (soFar : Option Gathered) : OfStore (.store fault soFar)
  | conditionFailed (miss : Miss) (soFar : Option Gathered) : OfStore (.conditionFailed miss soFar)

lemma Error.OfStore.soFar?_withSoFar {e : Error} (h : e.OfStore) (gathered : Gathered) :
    (e.withSoFar gathered).soFar? = some gathered := by
  cases h <;> rfl

/-- Whether, of a list of calls of one kind, the k-th is the first one to fail, and with what
error. -/
structure Outage.Strikes (outage : Outage) (method : Call.Method) (calls : List Call) (k : ℕ)
    (e : Error) : Prop where
  pos : 1 ≤ k
  made : k ≤ calls.length
  before : ∀ n < k, outage method n = none
  fails : outage method k = some e

/-- The outage of one call. -/
def Outage.single (method : Call.Method) (k : ℕ) (e : Error) : Outage :=
  fun other n => if other = method ∧ n = k then some e else none

lemma Outage.strikes_single (method : Call.Method) {calls : List Call} {k : ℕ} (hpos : 1 ≤ k)
    (hmade : k ≤ calls.length) (e : Error) : (single method k e).Strikes method calls k e :=
  ⟨hpos, hmade, fun _ hn => if_neg fun hboth => hn.ne hboth.2, if_pos ⟨rfl, rfl⟩⟩

namespace Program

/-- The calls of a run on a store, in order. -/
def trace (store : Store σ) : Program α → σ → List Call
  | done _, _ => []
  | call c next, s => c :: trace store (next (store c s).1) (store c s).2

/-- Whichever call of a run on a store were to fail, the program would end there, and with a result
that goes with the calls before and the failure. -/
def BreaksOff (store : Store σ) :
    (List Call → Error → Except Error α → Prop) → Program α → σ → Prop
  | _, done _, _ => True
  | P, call c next, s =>
    (∀ e, ∃ result, next (.error e) = done result ∧ P [] e result) ∧
      BreaksOff store (fun asked => P (c :: asked)) (next (store c s).1) (store c s).2

variable {store : Store σ} {P : List Call → Error → Except Error α → Prop}

lemma BreaksOff.imp {Q : List Call → Error → Except Error α → Prop} {p : Program α} {s : σ}
    (h : BreaksOff store P p s) (hPQ : ∀ asked e result, P asked e result → Q asked e result) :
    BreaksOff store Q p s := by
  induction p generalizing P Q s with
  | done result => trivial
  | call c next ih =>
      refine ⟨fun e => ?_, ih _ h.2 fun asked => hPQ (c :: asked)⟩
      obtain ⟨result, hnext, hP⟩ := h.1 e
      exact ⟨result, hnext, hPQ [] e result hP⟩

/-- A sequence breaks off where its first part does, or behind it where its second part does. -/
lemma BreaksOff.bind {Q : List Call → Error → Except Error β → Prop} {p : Program α}
    {k : α → Program β} {s : σ} (hp : BreaksOff store P p s)
    (hbroken : ∀ asked e result, asked.length < (p.trace store s).length → P asked e result →
      ∃ other, (done result >>= k) = done other ∧ Q asked e other)
    (hk : ∀ a s', p.run store s = (.ok a, s') →
      BreaksOff store (fun asked => Q (p.trace store s ++ asked)) (k a) s') :
    BreaksOff store Q (p >>= k) s := by
  change BreaksOff store Q (Program.bind p k) s
  induction p generalizing P Q s with
  | done result =>
      cases result with
      | ok a => exact hk a s rfl
      | error e => trivial
  | call c next ih =>
      refine ⟨fun e => ?_, ih _ hp.2 (fun asked e result hlength hP => ?_) hk⟩
      · obtain ⟨result, hnext, hP⟩ := hp.1 e
        obtain ⟨other, hother, hQ⟩ := hbroken [] e result (Nat.succ_pos _) hP
        exact ⟨other, (congrArg (Program.bind · k) hnext).trans hother, hQ⟩
      · exact hbroken (c :: asked) e result (Nat.succ_lt_succ hlength) hP

/-- A changed result is that of a program that breaks off at the same calls. -/
lemma BreaksOff.map {Q : List Call → Error → Except Error β → Prop} {p : Program α} {s : σ}
    (f : α → β) (hp : BreaksOff store P p s)
    (hPQ : ∀ asked e result, P asked e result → Q asked e (result.map f)) :
    BreaksOff store Q (f <$> p) s := by
  refine hp.bind (fun asked e result _ hP => ⟨_, ?_, hPQ asked e result hP⟩) fun _ _ _ => trivial
  cases result <;> rfl

lemma trace_call {c : Call} {reply : Except Error c.Reply} {s s' : σ} (h : store c s = (reply, s'))
    {next : Except Error c.Reply → Program α} {calls : List Call}
    (hrest : (next reply).trace store s' = calls) : (call c next).trace store s = c :: calls := by
  rw [trace, h, hrest]

/-- **A program that breaks off makes its calls up to the one that fails**, and ends with what goes
with them. -/
theorem run_failing_breaksOff {method : Call.Method} {p : Program α}
    (hp : p.Calls (·.method = method)) {s : σ} (h : BreaksOff store P p s) {outage : Outage}
    {k : ℕ} {e : Error} (calls : List Call)
    (hbefore : ∀ n ≤ callCount method calls + k, outage method n = none)
    (hfails : outage method (callCount method calls + k + 1) = some e)
    (hk : k < (p.trace store s).length) :
    ∃ result s', p.run (store.failing outage) (calls, s) =
        (result, ((p.trace store s).take (k + 1)).reverse ++ calls, s') ∧
      P ((p.trace store s).take k) e result := by
  induction p generalizing P s k calls with
  | done result => exact absurd hk (Nat.not_lt_zero k)
  | call c next ih =>
      obtain ⟨hc, hnext⟩ := hp
      subst hc
      have hcount := callCount_cons_self c calls
      cases k with
      | zero =>
          obtain ⟨result, hdone, hP⟩ := h.1 e
          refine ⟨result, s, ?_, hP⟩
          rw [run, Store.failing_hit hfails, hdone]
          rfl
      | succ k =>
          obtain ⟨result, s', hrun, hP⟩ := ih _ (hnext _) h.2 (c :: calls)
            (fun n hn => hbefore n (by omega)) (by rw [← hfails]; congr 1; omega)
            (Nat.lt_of_succ_lt_succ hk)
          refine ⟨result, s', ?_, hP⟩
          rw [run, Store.failing_spared (hbefore _ (by omega)), trace, List.take_succ_cons,
            List.reverse_cons, List.append_assoc]
          exact hrun

/-- **If the k-th call of a run fails**, the calls before it tell what the program ends with. -/
theorem run_failing_strikes {method : Call.Method} {p : Program α}
    (hp : p.Calls (·.method = method)) {s : σ} (h : BreaksOff store P p s) {outage : Outage}
    {k : ℕ} {e : Error} (hstrikes : outage.Strikes method (p.trace store s) k e) :
    ∃ result s', p.run (store.failing outage) ([], s) =
        (result, ((p.trace store s).take k).reverse, s') ∧
      P ((p.trace store s).take (k - 1)) e result := by
  obtain ⟨k, rfl⟩ : ∃ n, k = n + 1 := ⟨k - 1, by have := hstrikes.pos; omega⟩
  have hnone : callCount method [] = 0 := rfl
  obtain ⟨result, s', hrun, hP⟩ := run_failing_breaksOff hp h []
    (fun n hn => hstrikes.before n (by omega)) (by rw [hnone, Nat.zero_add]; exact hstrikes.fails)
    hstrikes.made
  rw [List.append_nil] at hrun
  exact ⟨result, s', hrun, hP⟩

end Program

/-! ## Scans of tables -/

/-- The items on the page that a table answers a query with, whether they are fetched or only
counted. -/
def Layout.itemsOf (layout : Layout) (table : Table) : Call → List Item
  | .query request =>
    match layout.query table { request with selectCount := false } with
    | .ok page => page.items
    | .error _ => []
  | _ => []

/-- The items on the pages that a table answers queries with. -/
def Layout.delivered (layout : Layout) (table : Table) (asked : List Call) : List Item :=
  asked.flatMap (layout.itemsOf table)

lemma Layout.itemsOf_query {layout : Layout} {table table' : Table} {request : QueryRequest}
    {page : QueryPage} (h : layout.store (.query request) table = (.ok page, table'))
    (hitems : request.selectCount = false) :
    layout.itemsOf table (.query request) = page.items := by
  have hrequest : { request with selectCount := false } = request := by
    rw [← hitems]
  have hquery : layout.query table request = .ok page := congrArg Prod.fst h
  rw [itemsOf, hrequest, hquery]

namespace Scan

variable {layout : Layout} {table : Table} {scan : Scan}
  {visit : β → Item → Except Error (Visit β)}

/-- **From any place on, a fold that breaks off ends with what it made of the items delivered
before**, which did not make it end. -/
theorem breaksOff_foldPages (visit : β → Item → Except Error (Visit β))
    (hitems : scan.request.selectCount = false) {pages : ℕ} {token : Option Token}
    {items : List Item} (hcuts : scan.Cuts layout.store pages table token items) {seen : ℕ}
    (hspent : scan.spent seen = false) (acc : β) :
    Program.BreaksOff layout.store
      (fun asked e result => layout.delivered table asked <+: items ∧
        ∃ seen' acc', scan.visitPage visit seen acc (layout.delivered table asked) =
          .more seen' acc' ∧ result = .ok (acc', some e))
      (scan.foldPages visit pages token seen acc) table := by
  induction pages generalizing token items seen acc with
  | zero => exact absurd hcuts id
  | succ pages ih =>
      obtain ⟨page, s', hstore, hnext⟩ := hcuts seen _ (asked_pageRequest hspent token) rfl
      obtain rfl : table = s' := congrArg Prod.snd hstore
      refine ⟨fun e => ⟨_, rfl, List.nil_prefix, seen, acc, rfl, rfl⟩, ?_⟩
      have hdelivered := Layout.itemsOf_query hstore hitems
      rw [hstore]
      dsimp only
      cases hvisit : scan.visitPage visit seen acc page.items with
      | failed acc e => trivial
      | finished acc => trivial
      | more seen' acc' =>
          cases htoken : page.lastKey with
          | none => trivial
          | some next =>
              rw [htoken] at hnext
              obtain ⟨rest, rfl, hrest⟩ := hnext
              obtain ⟨-, hspent'⟩ := visitPage_more hspent hvisit
              refine (ih hrest hspent' acc').imp ?_
              rintro asked e result ⟨hfront, seen'', acc'', hmore, rfl⟩
              rw [Layout.delivered, List.flatMap_cons, hdelivered]
              refine ⟨(List.prefix_append_right_inj page.items).mpr hfront, seen'', acc'', ?_, rfl⟩
              rw [visitPage_append, hvisit]
              exact hmore

section Tables

variable {test : String → Bool} (hmirrors : Mirrors layout table)
  (hindex : ∀ subject, scan.request.index = some subject → subject ∈ layout.indexed)
  (hread : ∀ test, ∀ row ∈ table.matching scan.request test, row.readItem = .ok row.item)
  (hpages : table.pageBound ≤ scan.maxPages) (hbounds : scan.request.bounds = .ok test)

include hmirrors hindex hread hpages hbounds

/-- **In a table a fold that breaks off ends with what it made of the items delivered before**,
which are the first of those that it is to go through. -/
theorem breaksOff_fold (hitems : scan.request.selectCount = false) (acc : β) :
    Program.BreaksOff layout.store
      (fun asked e result => layout.delivered table asked <+: paged (scan.firstLimit layout) [] []
          ((table.matching scan.request test).map Row.item) ∧
        ∃ seen acc', scan.visitPage visit 0 acc (layout.delivered table asked) = .more seen acc' ∧
          result = .ok (acc', some e))
      (scan.fold visit acc) table := by
  have haccepted := QueryRequest.accepted_of_bounds hindex hbounds
  have hpage : (scan.pageRequest 0 none).Accepted layout test :=
    ⟨haccepted.index, haccepted.bounds⟩
  rcases isPageLimit_or (scan.firstLimit layout) with hserved | hlimit
  · have hbound : (table.matching scan.request test).length < 0 + scan.maxPages := by
      have := table.length_matching_lt scan.request test
      omega
    rw [paged_of_isPageLimit hserved]
    exact breaksOff_foldPages visit hitems (cuts_store hmirrors haccepted rfl (hread test) hitems
      (served_of_firstLimit hserved) (Nat.zero_le _) hbound) (spent_zero scan) acc
  · -- a first page that has no room, or is refused, is the only one
    obtain ⟨pages, hmax⟩ := exists_pages hpages
    rw [fold, hmax]
    refine ⟨fun e => ⟨_, rfl, List.nil_prefix, 0, acc, rfl, rfl⟩, ?_⟩
    rcases hlimit with hzero | ⟨n, hn, hword⟩
    · rw [Layout.store, query_nothing hmirrors hpage rfl (hread test) hzero]
      trivial
    · rw [Layout.store, query_refused hmirrors.isOpen hpage rfl hn hword]
      trivial

/-- **In a table a scan that breaks off ends with what it decoded of the items delivered before**,
those of its offset left out; its budget is not spent with them. -/
theorem breaksOff_collect {decode : Item → Except Error (String × α)} {f : Item → String × α}
    (gathered : Assoc α → Gathered)
    (hdecode : ∀ row ∈ table.matching scan.request test, decode row.item = .ok (f row.item))
    (hnames : (Assoc.names (((table.matching scan.request test).map Row.item).map f)).Nodup)
    (hitems : scan.request.selectCount = false) :
    Program.BreaksOff layout.store
      (fun asked e result => layout.delivered table asked <+: paged (scan.firstLimit layout) [] []
          ((table.matching scan.request test).map Row.item) ∧
        (0 < scan.take → (layout.delivered table asked).length < scan.skip + scan.take) ∧
        result = .error (e.withSoFar
          (gathered (((layout.delivered table asked).drop scan.skip).map f))))
      (scan.collect decode gathered) table := by
  refine (breaksOff_fold hmirrors hindex hread hpages hbounds hitems []).bind ?_ ?_
  · rintro asked e result - ⟨hfront, seen, found, hmore, rfl⟩
    have hpart := hfront.trans (prefix_of_paged _ _)
    have hvisit : ∀ item ∈ layout.delivered table asked, ∀ m : Assoc α,
        (decode item).map (fun e => Visit.more (Assoc.insert m e.1 e.2)) =
          .ok (.more (m.insert (f item).1 (f item).2)) := by
      intro item hitem m
      obtain ⟨row, hrow, rfl⟩ := List.mem_map.mp (hpart.subset hitem)
      rw [hdecode row hrow]
      rfl
    obtain ⟨rfl, hlength⟩ := visitPage_more_window hvisit hmore
    refine ⟨_, rfl, hfront, hlength, ?_⟩
    have hnodup : (Assoc.names (((layout.delivered table asked).drop scan.skip).map f)).Nodup :=
      hnames.sublist ((((List.drop_sublist _ _).trans hpart.sublist).map f).map Prod.fst)
    rw [← Assoc.insertAll_nil hnodup, Assoc.insertAll, List.foldl_map]
  · rintro ⟨found, failure⟩ s' -
    cases failure <;> trivial

omit hpages hbounds hindex in
/-- A page that is counted has as many items as it would have if they were fetched. -/
lemma query_counted (haccepted : scan.request.Accepted layout test)
    (hserved : IsPageLimit (tighter scan.pageSize layout.pageSize)) {k : ℕ}
    (hk : k ≤ (table.matching scan.request test).length) {request : QueryRequest}
    (hrequest : request = { scan.request with
      selectCount := true
      limit := scan.pageSize
      startKey := tokenAt (table.matching scan.request test) k }) :
    let limit := tighter scan.pageSize layout.pageSize
    let page := cut limit ((table.matching scan.request test).drop k)
    layout.query table request =
        .ok { items := [], count := page.length, lastKey := pageToken limit page } ∧
      layout.itemsOf table (.query request) = page.map Row.item := by
  subst hrequest
  have hpage : ∀ selectCount, { scan.request with
      selectCount := selectCount
      limit := scan.pageSize
      startKey := tokenAt (table.matching scan.request test) k }.Accepted layout test :=
    fun _ => ⟨haccepted.index, haccepted.bounds⟩
  have hquery := fun selectCount =>
    query_page hmirrors (hpage selectCount) (hread test) hk rfl fun n => hserved.fitsWord
  refine ⟨hquery true, ?_⟩
  rw [Layout.itemsOf]
  rw [hquery false]
  rfl

omit hpages hbounds hindex in
/-- **From any place on, a count that breaks off ends with the number of items delivered before**
added. -/
theorem breaksOff_countPages (haccepted : scan.request.Accepted layout test)
    (hserved : IsPageLimit (tighter scan.pageSize layout.pageSize)) {pages k : ℕ}
    (hk : k ≤ (table.matching scan.request test).length) (total : ℤ) :
    Program.BreaksOff layout.store
      (fun asked e result => result =
        .error (e.withSoFar (.count (total + (layout.delivered table asked).length))))
      (scan.countPages pages (tokenAt (table.matching scan.request test) k) total) table := by
  induction pages generalizing k total with
  | zero => trivial
  | succ pages ih =>
      obtain ⟨hquery, hitems⟩ := query_counted hmirrors hread haccepted hserved hk rfl
      have hnone : total + (layout.delivered table []).length = total := add_zero total
      refine ⟨fun e => ⟨_, rfl, ?_⟩, ?_⟩
      · dsimp only
        rw [hnone]
      · rw [Layout.store, hquery]
        dsimp only
        rcases page_step hserved (table.matching scan.request test) k with
          ⟨-, htoken⟩ | ⟨n, token, -, hnk, -, htoken, hat⟩
        · rw [htoken]
          trivial
        · rw [htoken]
          dsimp only
          rw [← hat]
          refine (ih hnk _).imp ?_
          rintro asked e result rfl
          rw [Layout.delivered, Layout.delivered, List.flatMap_cons, hitems, List.length_append,
            List.length_map, Nat.cast_add, add_assoc]

/-- **In a table a count that breaks off ends with the number of items delivered before.** -/
theorem breaksOff_count :
    Program.BreaksOff layout.store
      (fun asked e result => result =
        .error (e.withSoFar (.count (layout.delivered table asked).length)))
      scan.count table := by
  have haccepted := QueryRequest.accepted_of_bounds hindex hbounds
  rcases isPageLimit_or (tighter scan.pageSize layout.pageSize) with hserved | hlimit
  · refine (breaksOff_countPages hmirrors hread haccepted hserved (Nat.zero_le _) 0).imp ?_
    rintro asked e result rfl
    rw [zero_add]
  · have hpage : { scan.request with
        selectCount := true, limit := scan.pageSize, startKey := none }.Accepted layout test :=
      ⟨haccepted.index, haccepted.bounds⟩
    obtain ⟨pages, hmax⟩ := exists_pages hpages
    rw [count, hmax]
    refine ⟨fun e => ⟨_, rfl, rfl⟩, ?_⟩
    rcases hlimit with hzero | ⟨n, hn, hword⟩
    · rw [Layout.store, query_nothing hmirrors hpage rfl (hread test) hzero]
      trivial
    · rw [Layout.store, query_refused hmirrors.isOpen hpage rfl hn hword]
      trivial

end Tables

end Scan

end RankedTable

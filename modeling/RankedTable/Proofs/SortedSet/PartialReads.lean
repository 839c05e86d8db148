import RankedTable.Proofs.Command.PageSize
import RankedTable.Proofs.SortedSet.Admission
import RankedTable.Proofs.Store.BreakingOff
import RankedTable.Proofs.Store.Failure

/-!
# What reads report of a failure

A read of a sorted set goes through one range, page by page.  If a page fails, the failure takes
along what was on the pages before: a listing the members behind its offset, a count their number.
Members that were found are the first of those that are found if nothing fails.

* `EveryScored` — when every item of a collection is read as a member.
* `SortedSet.membersOn` — the members on pages, behind an offset.
* `BrokenListing`, **`breaksOff_fetch`** — how a listing ends if a page fails.
* `Command.Lists`, `Command.Counts` — the commands that read one range.
* `Command.trace`, `ReportsAt` — what becomes of a command whose k-th query fails.
* **`reads_report_pages`** — in every table reached, reads report what was on the pages before.
-/

namespace RankedTable

/-- Whether every item of a collection has a score, and no position in its place. -/
def EveryScored (settings : Settings) (table : Table) (key : String) : Prop :=
  ∀ item ∈ table.items, item.key.partition = key →
    ∃ t, item.get? settings.scoreName = some (.text t)

/-- The members on the pages that a table answers queries with, behind an offset. -/
def SortedSet.membersOn (settings : Settings) (table : Table) (offset : ℤ) (asked : List Call) :
    Assoc Float :=
  ((settings.layout.delivered table asked).drop offset.toNat).map (scored settings)

/-- How a listing ends if a page fails: with the failure, and with the members on the pages before,
which are the first of those that it finds if nothing fails. -/
structure BrokenListing (settings : Settings) (table : Table) (offset count : ℤ)
    (listing : Program (Assoc Float)) (asked : List Call) (e : Error)
    (result : Except Error (Assoc Float)) : Prop where
  result : result = .error (e.withSoFar (.scores (SortedSet.membersOn settings table offset asked)))
  nodup : (SortedSet.membersOn settings table offset asked).names.Nodup
  first : ∀ all table', listing.run settings.layout.store table = (.ok all, table') →
    SortedSet.membersOn settings table offset asked <+: all
  unspent : 0 < count → (SortedSet.membersOn settings table offset asked).length < count

namespace SortedSet

variable {client : Client} {table : Table} {key : String}

/-! ## Listings -/

section Client

variable (h : ClientTable client.settings table) {request : QueryRequest} {test : String → Bool}

include h

variable (hkept : MembersKept client.settings table)
  (hscored : EveryScored client.settings table key) (hpartition : request.partition = key)

include hkept hscored hpartition

/-- Where every item has a score, the items of a range have theirs encoded. -/
lemma score_listed {row : Row} (hrow : row ∈ table.matching request test) :
    ∃ t, row.item.get? client.settings.scoreName = some (.text t) ∧
      Score.encode (scoreOf client.settings row.item) = .ok t := by
  obtain ⟨hitem, hkey⟩ := Table.item_of_mem_rows (Table.mem_rows_of_mem_matching hrow)
  obtain ⟨t, htext⟩ := hscored row.item hitem (hkey.trans hpartition)
  obtain ⟨x, hx⟩ : ∃ x, Score.encode x = .ok t := by
    refine hkept.score row.item.key t ?_
    rw [Table.attribute?, (Table.find?_eq_some_iff h.mirrors.items row.item).mpr hitem]
    exact htext
  exact ⟨t, htext, (scoreOf_encoded hx htext).2⟩

/-- Where every item has a score, the items of a range are decoded with theirs. -/
lemma decodeMember_listed {row : Row} (hrow : row ∈ table.matching request test) :
    decodeMember client row.item = .ok (scored client.settings row.item) := by
  obtain ⟨t, htext, hencode⟩ := score_listed h hkept hscored hpartition hrow
  exact decodeMember_encoded hencode htext

variable (hpages : table.pageBound ≤ client.maxPages)
  (haccepted : request.Accepted client.settings.layout test)
  (hfetched : request.selectCount = false)

include hpages haccepted hfetched

/-- A listing whose pages are asked for in numbers that a word can hold returns members, whose
scores are numbers. -/
lemma fetch_returns {offset count : ℤ}
    (hword : ∀ n, Scan.budgetLimit offset count client.settings.pageSize = some n →
      fitsWord n = true) :
    ∃ all, (fetch client request offset count).run client.settings.layout.store table =
      (.ok all, table) ∧ ∀ e ∈ all, e.2.isNaN = false := by
  rw [run_fetch_paged h hpages haccepted hfetched
      (fun row hrow => decodeMember_listed h hkept hscored hpartition hrow),
    Scan.paged_of_fitsWord hword]
  split_ifs
  · exact ⟨_, rfl, fun _ he => absurd he List.not_mem_nil⟩
  · refine ⟨_, rfl, fun e he => ?_⟩
    obtain ⟨item, hitem, rfl⟩ := List.mem_map.mp ((Scan.window_sublist _ _ _).subset he)
    obtain ⟨row, hrow, rfl⟩ := List.mem_map.mp hitem
    obtain ⟨t, -, hencode⟩ := score_listed h hkept hscored hpartition hrow
    exact (Score.codes_of_encode hencode).1

/-- **Whichever page of a listing fails, it ends with the members on the pages before.** -/
theorem breaksOff_fetch (offset count : ℤ) :
    Program.BreaksOff client.settings.layout.store
      (BrokenListing client.settings table offset count (fetch client request offset count))
      (fetch client request offset count) table := by
  have hdecode : ∀ row ∈ table.matching request test,
      decodeMember client row.item = .ok (scored client.settings row.item) :=
    fun row hrow => decodeMember_listed h hkept hscored hpartition hrow
  have hrun := run_fetch_paged h hpages haccepted hfetched hdecode offset count
  refine (Scan.breaksOff_collect h.mirrors haccepted.index (fun test row hrow => h.readItem_ok hrow)
    hpages haccepted.bounds_eq .scores hdecode
    (names_matching h request test) hfetched).imp ?_
  rintro asked e result ⟨hfront, hlength, rfl⟩
  rw [Scan.firstLimit_eq rfl] at hfront
  replace hfront : client.settings.layout.delivered table asked <+:
      Scan.paged (Scan.budgetLimit offset count client.settings.pageSize) [] []
        ((table.matching request test).map Row.item) := hfront
  have hunspent : 0 < count → (client.settings.layout.delivered table asked).length <
      offset.toNat + count := hlength
  refine ⟨rfl, ?_, fun all table' hall => ?_, fun hcount => ?_⟩
  · exact (names_matching h request test).sublist ((((List.drop_sublist _ _).trans
      (hfront.trans (Scan.prefix_of_paged _ _)).sublist).map (scored client.settings)).map Prod.fst)
  · rw [hrun] at hall
    obtain ⟨hall, -⟩ := Prod.mk.inj hall
    rcases Scan.isPageLimit_or (Scan.budgetLimit offset count client.settings.pageSize) with
      hserved | hzero | ⟨n, hn, hword⟩
    · rw [Scan.paged_of_isPageLimit hserved] at hfront hall
      rw [← Except.ok.inj hall, Scan.window_map]
      exact (Scan.prefix_window hfront hunspent).map _
    · rw [hzero] at hfront
      rw [membersOn, List.prefix_nil.mp hfront, List.drop_nil]
      exact List.nil_prefix
    · rw [hn, Scan.paged, if_neg (by simp [hword])] at hall
      cases hall
  · have := hunspent hcount
    rw [membersOn, List.length_map, List.length_drop]
    omega

end Client

/-- What becomes a request for scores is bounded by numbers. -/
lemma exists_scoreRequest {low high : Option Float} {forward : Bool} {request : QueryRequest}
    (hrequest : scoreRange client key low high forward = .ok request) :
    ∃ test, ScoreRequest client.settings key low high forward request test := by
  have hbounds := hrequest
  obtain ⟨lowValue, hlow, hbounds⟩ := bind_eq_ok.mp hbounds
  obtain ⟨highValue, hhigh, -⟩ := bind_eq_ok.mp hbounds
  obtain ⟨other, test, hother, htest⟩ := scoreRange_ok client (isBound_of_scoreBound hlow)
    (isBound_of_scoreBound hhigh) key forward
  obtain rfl : request = other := Except.ok.inj (hrequest.symm.trans hother)
  exact ⟨test, htest⟩

end SortedSet

/-! ## Commands that read one range -/

/-- The listings of a collection by score and by name. -/
inductive Command.Lists (key : String) (offset count : ℤ) : Command → Prop
  | byScore (low high : Option Float) (forward : Bool) :
      Lists key offset count (.rangeByScore key low high offset count forward)
  | byName (low high : String) (forward : Bool) :
      Lists key offset count (.rangeByName key low high offset count forward)

/-- The counts of a collection. -/
inductive Command.Counts (key : String) : Command → Prop
  | cardinality : Counts key (.cardinality key)
  | byScore (low high : Option Float) : Counts key (.countByScore key low high)
  | byName (low high : String) : Counts key (.countByName key low high)

/-- A listing has bounds that are not numbers, or it is a scan of a range of its collection. -/
lemma Command.Lists.program_eq {key : String} {offset count : ℤ} {command : Command}
    (h : command.Lists key offset count) (client : Client) (geometry : Geometry) :
    (∃ e, command.program client geometry = .done (.error e)) ∨
      ∃ request test, command.program client geometry =
          .scores <$> SortedSet.fetch client request offset count ∧ request.partition = key ∧
        request.Accepted client.settings.layout test ∧ request.selectCount = false := by
  cases h with
  | byScore low high forward =>
      rw [program, SortedSet.rangeByScore]
      cases hrequest : SortedSet.scoreRange client key low high forward with
      | error e => exact .inl ⟨e, rfl⟩
      | ok request =>
          obtain ⟨test, hr⟩ := SortedSet.exists_scoreRequest hrequest
          exact .inr ⟨request, test, rfl, hr.partition, hr.accepted, hr.selectCount⟩
  | byName low high forward =>
      exact .inr ⟨_, _, rfl, rfl, SortedSet.accepted_nameRange client key low high forward, rfl⟩

/-- A count has bounds that are not numbers, or it is a count of a range. -/
lemma Command.Counts.program_eq {key : String} {command : Command} (h : command.Counts key)
    (client : Client) (geometry : Geometry) :
    (∃ e, command.program client geometry = .done (.error e)) ∨
      ∃ request test, command.program client geometry =
          .count <$> Scan.count { request := request, maxPages := client.maxPages } ∧
        request.Accepted client.settings.layout test := by
  cases h with
  | cardinality =>
      have hbounds : ({ partition := key } : QueryRequest).bounds = .ok fun _ => true := rfl
      exact .inr ⟨{ partition := key }, _, rfl,
        QueryRequest.accepted_of_bounds (fun _ hindex => absurd hindex (by simp)) hbounds⟩
  | byScore low high =>
      rw [program, SortedSet.countByScore]
      cases hrequest : SortedSet.scoreRange client key low high true with
      | error e => exact .inl ⟨e, rfl⟩
      | ok request =>
          obtain ⟨test, hr⟩ := SortedSet.exists_scoreRequest hrequest
          exact .inr ⟨request, test, rfl, hr.accepted⟩
  | byName low high =>
      exact .inr ⟨_, _, rfl, SortedSet.accepted_nameRange client key low high true⟩

/-! ## What clients are told -/

variable {settings : Settings} {geometry : Geometry} {journal : List Call} {table : Table}
  {key : String} {command : Command} {outage : Outage} {k : ℕ} {e : Error}

/-- The calls that a command makes in a table, in order. -/
def Command.trace (settings : Settings) (geometry : Geometry) (table : Table)
    (command : Command) : List Call :=
  (command.program ⟨settings, table.pageBound⟩ geometry).trace settings.layout.store table

/-- What becomes of a command whose k-th call is the first to fail: no call is made behind it, the
failure takes along what was found, and the table is left as it was. -/
structure ReportsAt (settings : Settings) (geometry : Geometry) (table : Table)
    (command : Command) (outage : Outage) (k : ℕ) (e : Error) (found : Gathered) : Prop where
  run : (command.program ⟨settings, table.pageBound⟩ geometry).run
      (settings.layout.store.failing outage) ([], table) =
    (.error (e.withSoFar found), ((command.trace settings geometry table).take k).reverse, table)
  soFar : (e.withSoFar found).soFar? = some found

/-- A command that only queries makes no call behind the one that fails, and leaves the table as it
was; the calls before tell what it ends with. -/
lemma run_failing_query {P : List Call → Error → Except Error Answer → Prop}
    (hcalls : (command.program ⟨settings, table.pageBound⟩ geometry).Calls (·.method = .query))
    (hbreaks : Program.BreaksOff settings.layout.store P
      (command.program ⟨settings, table.pageBound⟩ geometry) table)
    (hstrikes : outage.Strikes .query (command.trace settings geometry table) k e) :
    ∃ result, (command.program ⟨settings, table.pageBound⟩ geometry).run
        (settings.layout.store.failing outage) ([], table) =
          (result, ((command.trace settings geometry table).take k).reverse, table) ∧
      P ((command.trace settings geometry table).take (k - 1)) e result := by
  have htable := Program.run_failing_queries settings.layout hcalls outage [] table
  obtain ⟨result, s', hrun, hP⟩ := Program.run_failing_strikes hcalls hbreaks hstrikes
  rw [hrun] at htable
  obtain rfl : s' = table := htable
  exact ⟨result, hrun, hP⟩

/-- A command that makes no call cannot be struck. -/
lemma not_strikes_of_done {result : Except Error Answer}
    (hdone : command.program ⟨settings, table.pageBound⟩ geometry = .done result) :
    ¬outage.Strikes .query (command.trace settings geometry table) k e := by
  intro hstrikes
  have hpos := hstrikes.pos
  have hmade := hstrikes.made
  rw [Command.trace, hdone, Program.trace, List.length_nil] at hmade
  omega

/-- Members that are an answer were listed. -/
lemma eq_ok_of_map_scores {listed : Except Error (Assoc Float)} {all : Assoc Float}
    (h : listed.map Answer.scores = .ok (.scores all)) : listed = .ok all := by
  cases listed with
  | error e => cases h
  | ok members => exact congrArg Except.ok (Answer.scores.inj (Except.ok.inj h))

/-- What a listing reports if its k-th query fails: the members on the pages before, behind its
offset.  They are the first of those that it is answered, and it is answered if the rows that a page
is asked for can be counted in a word. -/
structure ReportsListing (settings : Settings) (geometry : Geometry) (table : Table)
    (command : Command) (offset count : ℤ) (outage : Outage) (k : ℕ) (e : Error)
    (members : Assoc Float) : Prop where
  reported : ReportsAt settings geometry table command outage k e (.scores members)
  nodup : members.names.Nodup
  first : ∀ all, Answered settings geometry table command (.ok (.scores all)) → members <+: all
  answered : (∀ n, Scan.budgetLimit offset count settings.pageSize = some n → fitsWord n = true) →
    ∃ all, Answered settings geometry table command (.ok (.scores all))

section Reached

variable (h : Reached settings geometry journal table) (hstore : e.OfStore)

include h hstore

/-- A listing that is struck reports the members on the pages before. -/
lemma reportsListing (hscored : EveryScored settings table key) {offset count : ℤ}
    (hcommand : command.Lists key offset count)
    (hstrikes : outage.Strikes .query (command.trace settings geometry table) k e) :
    ReportsListing settings geometry table command offset count outage k e
      (SortedSet.membersOn settings table offset
        ((command.trace settings geometry table).take (k - 1))) := by
  have htable : ClientTable (Client.mk settings table.pageBound).settings table := h.clientTable
  rcases hcommand.program_eq ⟨settings, table.pageBound⟩ geometry with
    ⟨error, hdone⟩ | ⟨request, test, hprogram, hpartition, haccepted, hfetched⟩
  · exact absurd hstrikes (not_strikes_of_done hdone)
  have hbreaks := (SortedSet.breaksOff_fetch htable h.membersKept hscored hpartition
    (Nat.le_refl _) haccepted hfetched offset count).map Answer.scores
    (Q := fun asked e result => ∃ listed, BrokenListing settings table offset count
      (SortedSet.fetch ⟨settings, table.pageBound⟩ request offset count) asked e listed ∧
        result = listed.map .scores)
    fun asked e result hbroken => ⟨result, hbroken, rfl⟩
  have hcalls : (Answer.scores <$> SortedSet.fetch ⟨settings, table.pageBound⟩ request offset
      count).Calls (·.method = .query) :=
    Program.calls_map _ (SortedSet.calls_fetch (fun _ => rfl) _ _ _)
  rw [← hprogram] at hbreaks hcalls
  obtain ⟨result, hfailed, listed, hbroken, rfl⟩ := run_failing_query hcalls hbreaks hstrikes
  rw [hbroken.result] at hfailed
  refine ⟨⟨hfailed, hstore.soFar?_withSoFar _⟩, hbroken.nodup, fun all hall => ?_, fun hword => ?_⟩
  · have hrun := SortedSet.run_fetch_paged htable (Nat.le_refl _) haccepted hfetched
      (fun row hrow => SortedSet.decodeMember_listed htable h.membersKept hscored hpartition hrow)
      offset count
    have hanswer := Program.run_map_result Answer.scores hrun
    rw [← hprogram] at hanswer
    refine hbroken.first all table (hrun.trans (congrArg (·, table) ?_))
    exact eq_ok_of_map_scores ((answered_iff_of_run hanswer).mp hall)
  · obtain ⟨all, hall, -⟩ := SortedSet.fetch_returns htable h.membersKept hscored hpartition
      (Nat.le_refl _) haccepted hfetched hword
    refine ⟨all, answered_of_run ?_⟩
    rw [hprogram]
    exact Program.run_map Answer.scores hall

/-- A count that is struck reports the number of items on the pages before. -/
lemma reportsAt_count (hcommand : command.Counts key)
    (hstrikes : outage.Strikes .query (command.trace settings geometry table) k e) :
    ReportsAt settings geometry table command outage k e
      (.count (settings.layout.delivered table
        ((command.trace settings geometry table).take (k - 1))).length) := by
  rcases hcommand.program_eq ⟨settings, table.pageBound⟩ geometry with
    ⟨error, hdone⟩ | ⟨request, test, hprogram, haccepted⟩
  · exact absurd hstrikes (not_strikes_of_done hdone)
  have hcount : Program.BreaksOff settings.layout.store _
      (Scan.count { request := request, maxPages := table.pageBound }) table :=
    Scan.breaksOff_count h.clientTable.mirrors haccepted.index
      (fun test row hrow => h.clientTable.readItem_ok hrow) (Nat.le_refl _) haccepted.bounds_eq
  have hbreaks := hcount.map Answer.count
    (Q := fun asked e result =>
      result = .error (e.withSoFar (.count (settings.layout.delivered table asked).length)))
    fun asked e result hresult => hresult ▸ rfl
  have hcalls : (Answer.count <$> Scan.count { request := request, maxPages := table.pageBound }
      ).Calls (·.method = .query) :=
    Program.calls_map _ (SortedSet.calls_count (fun _ => rfl) _)
  rw [← hprogram] at hbreaks hcalls
  obtain ⟨result, hfailed, rfl⟩ := run_failing_query hcalls hbreaks hstrikes
  exact ⟨hfailed, hstore.soFar?_withSoFar _⟩

/-- **Reads report what was on the pages before the one that fails**, in every table reached where
every item of the collection has a score: listings their members behind the offset, which are the
first of those that the listing is answered, and counts their number.  The table is left as it
was. -/
theorem reads_report_pages (hscored : EveryScored settings table key) (outage : Outage) (k : ℕ) :
    (∀ offset count command, Command.Lists key offset count command →
      outage.Strikes .query (command.trace settings geometry table) k e →
        ReportsListing settings geometry table command offset count outage k e
          (SortedSet.membersOn settings table offset
            ((command.trace settings geometry table).take (k - 1)))) ∧
    ∀ command, Command.Counts key command →
      outage.Strikes .query (command.trace settings geometry table) k e →
        ReportsAt settings geometry table command outage k e
          (.count (settings.layout.delivered table
            ((command.trace settings geometry table).take (k - 1))).length) :=
  ⟨fun _ _ _ hcommand hstrikes => reportsListing h hstore hscored hcommand hstrikes,
    fun _ hcommand hstrikes => reportsAt_count h hstore hcommand hstrikes⟩

end Reached

/-! ## Three members -/

/-- Members with the scores -∞, 0 and ∞. -/
def threeMembers : Table where
  items := [⟨⟨"k", "a"⟩, [("sk2", .text "0")]⟩, ⟨⟨"k", "b"⟩, [("sk2", .text "2")]⟩,
    ⟨⟨"k", "c"⟩, [("sk2", .text "4")]⟩]
  index := [⟨⟨"k", "a"⟩, "sk2", "0"⟩, ⟨⟨"k", "b"⟩, "sk2", "2"⟩, ⟨⟨"k", "c"⟩, "sk2", "4"⟩]

lemma reached_threeMembers : ∃ journal, Reached singleRows .sphere journal threeMembers :=
  ⟨_, .command .empty (.add "k" [("a", Float.ofBits 0xfff0000000000000), ("b", Float.ofBits 0),
    ("c", Float.ofBits 0x7ff0000000000000)] {}) rfl⟩

lemma everyScored_threeMembers : EveryScored singleRows threeMembers "k" := by
  rintro item hitem -
  fin_cases hitem <;> exact ⟨_, rfl⟩

/-- The request for the row behind a member with its encoded score. -/
def rowAfter (forward : Bool) (limit : Option ℤ) (last : Option (String × String)) :
    QueryRequest where
  partition := "k"
  index := some "sk2"
  forward := forward
  limit := limit
  startKey := last.map fun e => [("sk", .text e.1), ("sort_value", .text e.2)]

/-- The page with the row of a member. -/
def rowPage (name encoded : String) : QueryPage where
  items := [⟨⟨"k", name⟩, [("sk2", .text encoded)]⟩]
  count := 1
  lastKey := some [("sk", .text name), ("sort_value", .text encoded)]

/-- The third page fails: of the members on the first two, the second one is behind the offset. -/
theorem reads_report_pages_third :
    ∃ (journal : List Call) (outage : Outage),
      Reached singleRows .sphere journal threeMembers ∧
        outage.Strikes .query (Command.trace singleRows .sphere threeMembers
          (.rangeByScore "k" none none 1 0 true)) 3 (.store .unavailable) ∧
        ReportsListing singleRows .sphere threeMembers (.rangeByScore "k" none none 1 0 true) 1 0
          outage 3 (.store .unavailable) [("b", 0.0)] := by
  obtain ⟨journal, hreached⟩ := reached_threeMembers
  obtain ⟨hfirst, hsecond⟩ :
      singleRows.layout.store (.query (rowAfter true none none)) threeMembers =
          (.ok (rowPage "a" "0"), threeMembers) ∧
        singleRows.layout.store (.query (rowAfter true none (some ("a", "0")))) threeMembers =
          (.ok (rowPage "b" "2"), threeMembers) := by
    simp only [Layout.store, Layout.query, sortRows_eq_insertionSort]
    exact ⟨rfl, rfl⟩
  obtain ⟨rest, htrace⟩ : ∃ rest, Command.trace singleRows .sphere threeMembers
      (.rangeByScore "k" none none 1 0 true) = .query (rowAfter true none none) ::
        .query (rowAfter true none (some ("a", "0"))) ::
          .query (rowAfter true none (some ("b", "2"))) :: rest :=
    ⟨_, Program.trace_call hfirst (Program.trace_call hsecond rfl)⟩
  have hmembers : SortedSet.membersOn singleRows threeMembers 1
      [.query (rowAfter true none none), .query (rowAfter true none (some ("a", "0")))] =
        [("b", 0.0)] := by
    rw [SortedSet.membersOn, Layout.delivered, List.flatMap_cons, List.flatMap_cons,
      Layout.itemsOf_query hfirst rfl, Layout.itemsOf_query hsecond rfl]
    rfl
  have hmade : 3 ≤ (Command.trace singleRows .sphere threeMembers
      (.rangeByScore "k" none none 1 0 true)).length := by
    rw [htrace]
    exact Nat.le_add_left 3 rest.length
  have hstrikes := Outage.strikes_single .query (by decide) hmade (.store .unavailable)
  obtain ⟨hlistings, -⟩ := reads_report_pages hreached (.store _ _) everyScored_threeMembers
    (Outage.single .query 3 (.store .unavailable)) 3
  have hreports := hlistings 1 0 _ (.byScore none none true) hstrikes
  rw [htrace] at hreports
  exact ⟨journal, _, hreached, hstrikes, hmembers ▸ hreports⟩

end RankedTable

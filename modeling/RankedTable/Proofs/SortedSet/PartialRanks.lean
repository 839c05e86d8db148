import RankedTable.Proofs.SortedSet.PartialReads

/-!
# What ranges of ranks report of a failure

A range of ranks may take more than one scan, and its failure takes along what the scan that failed
had gathered.  If that one counts the collection, this is a number; if it lists members from the
other end, they come in the other order; and else they are the first of those that are found if
nothing fails.

* `ListedFirst` — the first members of a range in the order in which they are listed.
* `BrokenRanks`, **`breaksOff_rangeFrom`** — how a range of ranks ends if a page of members fails.
* `BrokenCount`, **`breaksOff_rangeByRank`** — how it ends if its collection was counted first.
* `rangeByRank_returns` — which ranges of ranks return.
* **`ranks_report_gathered`** — in every table reached, they report what the failing scan gathered.
-/

namespace RankedTable

/-- Whether members are the first of a range, in the order in which they are listed: if both
positions count from the end, this is from the last one on. -/
def ListedFirst (start stop : ℤ) (members all : Assoc Float) : Prop :=
  if start < 0 ∧ stop < 0 then members.reverse <:+ all else members <+: all

lemma listedFirst_nil (start stop : ℤ) (all : Assoc Float) : ListedFirst start stop [] all := by
  rw [ListedFirst]
  split_ifs
  · exact List.nil_suffix
  · exact List.nil_prefix

/-- How a range of ranks ends if a page of members fails: with the failure, and with the first of
the members that it finds if nothing fails. -/
def BrokenRanks (settings : Settings) (table : Table) (start stop : ℤ)
    (ranks : Program (Assoc Float)) (e : Error) (result : Except Error (Assoc Float)) : Prop :=
  ∃ members : Assoc Float, members.names.Nodup ∧
    (∀ all table', ranks.run settings.layout.store table = (.ok all, table') →
      ListedFirst start stop members all) ∧
    result = .error (e.withSoFar (.scores members))

/-- How a range of ranks ends that counts its collection first: if the count fails, with the number
of items on the pages before, and else like one that does not count. -/
def BrokenCount (settings : Settings) (table : Table) (start stop : ℤ) (counting : ℕ)
    (ranks : Program (Assoc Float)) (asked : List Call) (e : Error)
    (result : Except Error (Assoc Float)) : Prop :=
  (asked.length < counting →
    result = .error (e.withSoFar (.count (settings.layout.delivered table asked).length))) ∧
  (counting ≤ asked.length → BrokenRanks settings table start stop ranks e result)

namespace SortedSet

variable {client : Client} {table : Table} {key : String}

/-- How many queries count the collection before members are listed. -/
def countingQueries (client : Client) (table : Table) (key : String) (start stop : ℤ) : ℕ :=
  if start < 0 ∧ 0 ≤ stop then
    ((cardinality client key).trace client.settings.layout.store table).length
  else 0

section Client

variable (h : ClientTable client.settings table) (hkept : MembersKept client.settings table)
  (hscored : EveryScored client.settings table key) (hpages : table.pageBound ≤ client.maxPages)

include h hkept hscored hpages

/-- Whichever page of a range of scores fails, it ends with the members on the pages before. -/
lemma breaksOff_rangeByScore (low high : Option Float) (offset count : ℤ) (forward : Bool) :
    Program.BreaksOff client.settings.layout.store
      (BrokenListing client.settings table offset count
        (rangeByScore client key low high offset count forward))
      (rangeByScore client key low high offset count forward) table := by
  rw [rangeByScore]
  cases hrequest : scoreRange client key low high forward with
  | error e => trivial
  | ok request =>
      obtain ⟨test, hr⟩ := exists_scoreRequest hrequest
      exact breaksOff_fetch h hkept hscored hr.partition hpages hr.accepted hr.selectCount
        offset count

/-- A range of scores that finds all that a range of ranks finds has found the first members of
it. -/
lemma breaksOff_whole {start stop : ℤ} (hsigns : ¬(start < 0 ∧ stop < 0)) {low high : Option Float}
    {offset count : ℤ} {forward : Bool} {ranks : Program (Assoc Float)}
    (hranks : ∀ all table', ranks.run client.settings.layout.store table = (.ok all, table') →
      (rangeByScore client key low high offset count forward).run client.settings.layout.store
        table = (.ok all, table')) :
    Program.BreaksOff client.settings.layout.store
      (fun _ => BrokenRanks client.settings table start stop ranks)
      (rangeByScore client key low high offset count forward) table := by
  refine (breaksOff_rangeByScore h hkept hscored hpages low high offset count forward).imp ?_
  rintro asked e result ⟨rfl, hnodup, hfirst, -⟩
  refine ⟨_, hnodup, fun all table' hall => ?_, rfl⟩
  rw [ListedFirst, if_neg hsigns]
  exact hfirst all table' (hranks all table' hall)

/-- A range of scores that is reversed in the end has found members from the last one on. -/
lemma breaksOff_reversed {start stop : ℤ} (hsigns : start < 0 ∧ stop < 0) (low high : Option Float)
    (offset count : ℤ) (forward : Bool) :
    let ranks : Program (Assoc Float) := do
      let tail ← rangeByScore client key low high offset count forward
      return tail.reverse
    Program.BreaksOff client.settings.layout.store
      (fun _ => BrokenRanks client.settings table start stop ranks) ranks table := by
  refine (breaksOff_rangeByScore h hkept hscored hpages low high offset count forward).bind ?_
    fun _ _ _ => trivial
  rintro asked e result - ⟨rfl, hnodup, hfirst, -⟩
  refine ⟨_, rfl, _, hnodup, fun all table' hall => ?_, rfl⟩
  obtain ⟨tail, s, htail, hall⟩ := Program.run_bind_ok hall
  obtain ⟨rfl, -⟩ : tail.reverse = all ∧ s = table' := by
    obtain ⟨hall, hs⟩ := Prod.mk.inj hall
    exact ⟨Except.ok.inj hall, hs⟩
  rw [ListedFirst, if_pos hsigns]
  exact List.reverse_suffix.mpr (hfirst tail s htail)

/-- **Whichever page of members fails, a range of ranks ends with the first of them.** -/
theorem breaksOff_rangeFrom (start stop : ℤ) (forward : Bool) :
    Program.BreaksOff client.settings.layout.store
      (fun _ => BrokenRanks client.settings table start stop
        (rangeFrom client key start stop forward))
      (rangeFrom client key start stop forward) table := by
  rw [rangeFrom]
  by_cases hnegative : start < 0 ∧ stop < 0
  · rw [if_pos hnegative]
    split_ifs
    · trivial
    · exact breaksOff_reversed h hkept hscored hpages hnegative _ _ _ _ _
  have hwhole := @breaksOff_whole client table key h hkept hscored hpages start stop hnegative
  rw [if_neg hnegative]
  by_cases hstop : stop < 0
  · rw [if_pos hstop]
    refine (breaksOff_rangeByScore h hkept hscored hpages _ _ _ _ _).bind ?_
      fun boundary s hboundary => ?_
    · rintro asked e result - ⟨rfl, hnodup, -, hunspent⟩
      -- of one member wanted, none was found
      have hnone := List.length_eq_zero_iff.mp (Nat.lt_one_iff.mp
        (by exact_mod_cast hunspent Int.one_pos))
      rw [hnone]
      exact ⟨_, rfl, [], List.nodup_nil, fun all _ _ => listedFirst_nil start stop all, rfl⟩
    · obtain rfl : s = table :=
        Program.run_queries (calls_rangeByScore (fun _ => rfl) _ _ _ _ _ _) hboundary
      cases boundary with
      | nil => trivial
      | cons e rest =>
          cases forward with
          | true =>
              refine hwhole fun all table' hall => ?_
              rwa [Program.run_bind, hboundary] at hall
          | false =>
              refine hwhole fun all table' hall => ?_
              rwa [Program.run_bind, hboundary] at hall
  · rw [if_neg hstop]
    split_ifs
    · trivial
    · exact hwhole fun _ _ => id

omit hkept hscored in
/-- Whichever page of a count of items fails, it ends with the number of items on the pages
before. -/
lemma breaksOff_cardinality :
    Program.BreaksOff client.settings.layout.store
      (fun asked e result => result = .error (e.withSoFar
        (.count (client.settings.layout.delivered table asked).length)))
      (cardinality client key) table :=
  Scan.breaksOff_count h.mirrors (fun _ hindex => absurd hindex (by simp))
    (fun test row hrow => h.readItem_ok hrow) hpages
    (rfl : ({ partition := key } : QueryRequest).bounds = .ok fun _ => true)

/-- **Whichever page fails, a range of ranks ends with what the scan had gathered** that failed. -/
theorem breaksOff_rangeByRank (start stop : ℤ) (forward : Bool) :
    Program.BreaksOff client.settings.layout.store
      (BrokenCount client.settings table start stop (countingQueries client table key start stop)
        (rangeByRank client key start stop forward))
      (rangeByRank client key start stop forward) table := by
  rw [rangeByRank, countingQueries]
  by_cases hcounted : start < 0 ∧ 0 ≤ stop
  · rw [if_pos hcounted, if_pos hcounted]
    refine (breaksOff_cardinality h hpages).bind ?_ fun n s hn => ?_
    · rintro asked e result hlength rfl
      exact ⟨_, rfl, fun _ => rfl, fun hle => absurd hlength (not_lt.mpr hle)⟩
    · obtain rfl : s = table := Program.run_queries (calls_count (fun _ => rfl) _) hn
      refine (breaksOff_rangeFrom h hkept hscored hpages (max (n + start) 0) stop forward).imp ?_
      rintro asked e result ⟨members, hnodup, hfirst, rfl⟩
      refine ⟨fun hlt => ?_, fun _ => ⟨members, hnodup, fun all table' hall => ?_, rfl⟩⟩
      · rw [List.length_append] at hlt
        omega
      · rw [Program.run_bind, hn] at hall
        have hlisted := hfirst all table' hall
        rw [ListedFirst, if_neg (by omega)] at hlisted ⊢
        exact hlisted
  · rw [if_neg hcounted, if_neg hcounted]
    exact (breaksOff_rangeFrom h hkept hscored hpages start stop forward).imp
      fun asked e result hbroken => ⟨fun hlt => absurd hlt (Nat.not_lt_zero _), fun _ => hbroken⟩

/-! ## Ranges that return -/

variable (hsize : ∀ n, client.settings.pageSize = some n → fitsWord n = true)

include hsize

/-- A range of scores returns members if its budget and the page size fit a word. -/
lemma rangeByScore_returns {low high : Option Float} (hlow : IsBound low) (hhigh : IsBound high)
    {offset count : ℤ} (hbudget : 0 < count → max offset 0 + count < 2 ^ 63) (forward : Bool) :
    ∃ all, (rangeByScore client key low high offset count forward).run
        client.settings.layout.store table = (.ok all, table) ∧ ∀ e ∈ all, e.2.isNaN = false := by
  obtain ⟨request, test, hrequest, hr⟩ := scoreRange_ok client hlow hhigh key forward
  rw [rangeByScore, hrequest]
  exact fetch_returns h hkept hscored hr.partition hpages hr.accepted hr.selectCount
    fun n => Scan.fitsWord_budgetLimit hsize hbudget

/-- Positions in words are a range that returns, if the first one counts from the start as soon as
the last one does. -/
lemma rangeFrom_returns {start stop : ℤ} (hstart : -2 ^ 63 < start) (hstop : -2 ^ 63 < stop)
    (hlast : stop + 1 < 2 ^ 63) (hsigns : 0 ≤ stop → 0 ≤ start) (forward : Bool) :
    ∃ all, (rangeFrom client key start stop forward).run client.settings.layout.store table =
      (.ok all, table) := by
  have hreturns := @rangeByScore_returns client table key h hkept hscored hpages hsize
  rw [rangeFrom]
  by_cases hnegative : start < 0 ∧ stop < 0
  · rw [if_pos hnegative]
    split_ifs
    · exact ⟨[], rfl⟩
    · obtain ⟨tail, hrun, -⟩ := hreturns isBound_none isBound_none
        (fun _ => (by omega : max (-stop - 1) 0 + (stop - start + 1) < 2 ^ 63)) (!forward)
      exact ⟨tail.reverse, by rw [Program.run_bind, hrun]; rfl⟩
  · rw [if_neg hnegative]
    by_cases hneg : stop < 0
    · obtain ⟨boundary, hrun, hnumbers⟩ := hreturns isBound_none isBound_none
        (fun _ => (by omega : max (-stop - 1) 0 + 1 < 2 ^ 63)) (!forward)
      rw [if_pos hneg, Program.run_bind, hrun]
      cases boundary with
      | nil => exact ⟨[], rfl⟩
      | cons e rest =>
          have hedge : IsBound (some e.2) := fun x hx =>
            Option.some_inj.mp hx ▸ hnumbers e (List.mem_cons_self ..)
          cases forward with
          | true =>
              obtain ⟨all, hall, -⟩ := hreturns isBound_none hedge
                (fun hzero => absurd hzero (lt_irrefl 0)) true
              exact ⟨all, hall⟩
          | false =>
              obtain ⟨all, hall, -⟩ := hreturns hedge isBound_none
                (fun hzero => absurd hzero (lt_irrefl 0)) false
              exact ⟨all, hall⟩
    · rw [if_neg hneg]
      split_ifs
      · exact ⟨[], rfl⟩
      · obtain ⟨all, hall, -⟩ := hreturns isBound_none isBound_none
          (fun _ => (by omega : max start 0 + (stop - start + 1) < 2 ^ 63)) forward
        exact ⟨all, hall⟩

/-- **Positions in words are a range that returns.** -/
theorem rangeByRank_returns {start stop : ℤ} (hstart : -2 ^ 63 < start) (hstop : -2 ^ 63 < stop)
    (hlast : stop + 1 < 2 ^ 63) (forward : Bool) :
    ∃ all, (rangeByRank client key start stop forward).run client.settings.layout.store table =
      (.ok all, table) := by
  have hfrom := @rangeFrom_returns client table key h hkept hscored hpages hsize
  rw [rangeByRank]
  split_ifs with hcounted
  · obtain ⟨n, hn⟩ : ∃ n, (cardinality client key).run client.settings.layout.store table =
        (.ok n, table) := by
      rw [run_cardinality_paged h hpages, Scan.paged_of_fitsWord hsize]
      split_ifs
      · exact ⟨_, rfl⟩
      · exact ⟨_, rfl⟩
    rw [Program.run_bind, hn]
    exact hfrom (by omega) hstop hlast (by omega) forward
  · exact hfrom hstart hstop hlast (by omega) forward

end Client

end SortedSet

/-! ## What clients are told -/

section Reached

variable {settings : Settings} {geometry : Geometry} {journal : List Call} {table : Table}
  {key : String} {start stop : ℤ} {forward : Bool} {outage : Outage} {k : ℕ} {e : Error}

/-- **A range of ranks reports what the scan had gathered that failed**, in every table reached
where every item of the collection has a score.  If the collection was being counted, this is the number
of items on the pages before.  Else it is the first of the members that the range is answered, from
the last one on if both positions count from the end.  The table is left as it was.  The range is
answered if its positions and the page size fit a word. -/
theorem ranks_report_gathered (h : Reached settings geometry journal table)
    (hscored : EveryScored settings table key) (hstore : e.OfStore)
    (hstrikes : outage.Strikes .query
      (Command.trace settings geometry table (.rangeByRank key start stop forward)) k e) :
    (k ≤ SortedSet.countingQueries ⟨settings, table.pageBound⟩ table key start stop →
      ReportsAt settings geometry table (.rangeByRank key start stop forward) outage k e
        (.count (settings.layout.delivered table ((Command.trace settings geometry table
          (.rangeByRank key start stop forward)).take (k - 1))).length)) ∧
    (SortedSet.countingQueries ⟨settings, table.pageBound⟩ table key start stop < k →
      ∃ members : Assoc Float,
        ReportsAt settings geometry table (.rangeByRank key start stop forward) outage k e
          (.scores members) ∧ members.names.Nodup ∧
        ∀ all, Answered settings geometry table (.rangeByRank key start stop forward)
          (.ok (.scores all)) → ListedFirst start stop members all) ∧
    ((∀ n, settings.pageSize = some n → fitsWord n = true) → -2 ^ 63 < start → -2 ^ 63 < stop →
      stop + 1 < 2 ^ 63 →
        ∃ all, Answered settings geometry table (.rangeByRank key start stop forward)
          (.ok (.scores all))) := by
  have htable : ClientTable (Client.mk settings table.pageBound).settings table := h.clientTable
  have hbreaks := (SortedSet.breaksOff_rangeByRank htable h.membersKept hscored (Nat.le_refl _)
    start stop forward).map Answer.scores
    (Q := fun asked e result => ∃ listed, BrokenCount settings table start stop
      (SortedSet.countingQueries ⟨settings, table.pageBound⟩ table key start stop)
      (SortedSet.rangeByRank ⟨settings, table.pageBound⟩ key start stop forward) asked e listed ∧
        result = listed.map .scores)
    fun asked e listed hbroken => ⟨listed, hbroken, rfl⟩
  have hcalls : ((Command.rangeByRank key start stop forward).program ⟨settings, table.pageBound⟩
      geometry).Calls (·.method = .query) :=
    Program.calls_map _ (SortedSet.calls_rangeByRank (fun _ => rfl) _ _ _ _)
  obtain ⟨result, hfailed, listed, hbroken, rfl⟩ := run_failing_query hcalls hbreaks hstrikes
  have hpos := hstrikes.pos
  have hbefore : ((Command.trace settings geometry table
      (.rangeByRank key start stop forward)).take (k - 1)).length = k - 1 := by
    have := hstrikes.made
    rw [List.length_take]
    omega
  refine ⟨fun hcounting => ?_, fun hlisting => ?_, fun hsize hstart hstop hlast => ?_⟩
  · rw [hbroken.1 (by rw [hbefore]; omega)] at hfailed
    exact ⟨hfailed, hstore.soFar?_withSoFar _⟩
  · obtain ⟨members, hnodup, hfirst, rfl⟩ := hbroken.2 (by rw [hbefore]; omega)
    refine ⟨members, ⟨hfailed, hstore.soFar?_withSoFar _⟩, hnodup, fun all hall => ?_⟩
    -- the members of an answer are those that the range has found
    cases hrun : (SortedSet.rangeByRank ⟨settings, table.pageBound⟩ key start stop forward).run
        settings.layout.store table with
    | mk found table' =>
        obtain rfl : table' = table :=
          Program.run_queries (SortedSet.calls_rangeByRank (fun _ => rfl) _ _ _ _) hrun
        have hanswer := Program.run_map_result Answer.scores hrun
        refine hfirst all table' (hrun.trans (congrArg (·, table') ?_))
        exact eq_ok_of_map_scores ((answered_iff_of_run hanswer).mp hall)
  · obtain ⟨all, hall⟩ := SortedSet.rangeByRank_returns htable h.membersKept hscored
      (Nat.le_refl _) hsize hstart hstop hlast forward
    exact ⟨all, answered_of_run (Program.run_map Answer.scores hall)⟩

end Reached

/-! ## Three members from the last one on -/

lemma pages_fromLast :
    singleRows.layout.store (.query (rowAfter false (some 3) none)) threeMembers =
        (.ok (rowPage "c" "4"), threeMembers) ∧
      singleRows.layout.store (.query (rowAfter false (some 2) (some ("c", "4")))) threeMembers =
        (.ok (rowPage "b" "2"), threeMembers) ∧
      singleRows.layout.store (.query (rowAfter false (some 1) (some ("b", "2")))) threeMembers =
        (.ok (rowPage "a" "0"), threeMembers) := by
  simp only [Layout.store, Layout.query, sortRows_eq_insertionSort]
  exact ⟨rfl, rfl, rfl⟩

lemma trace_fromLast :
    Command.trace singleRows .sphere threeMembers (.rangeByRank "k" (-3) (-1) true) =
      [.query (rowAfter false (some 3) none), .query (rowAfter false (some 2) (some ("c", "4"))),
        .query (rowAfter false (some 1) (some ("b", "2")))] := by
  obtain ⟨hfirst, hsecond, hthird⟩ := pages_fromLast
  exact Program.trace_call hfirst (Program.trace_call hsecond (Program.trace_call hthird rfl))

/-- Of three members at positions that count from the end, two have been found when the third page
fails. -/
theorem ranks_report_gathered_third :
    ∃ (journal : List Call) (outage : Outage) (members : Assoc Float),
      Reached singleRows .sphere journal threeMembers ∧
        ReportsAt singleRows .sphere threeMembers (.rangeByRank "k" (-3) (-1) true) outage 3
          (.store .unavailable) (.scores members) ∧
        ∀ all, Answered singleRows .sphere threeMembers (.rangeByRank "k" (-3) (-1) true)
          (.ok (.scores all)) → ListedFirst (-3) (-1) members all := by
  obtain ⟨journal, hreached⟩ := reached_threeMembers
  have hmade : 3 ≤ (Command.trace singleRows .sphere threeMembers
      (.rangeByRank "k" (-3) (-1) true)).length := by
    rw [trace_fromLast]
    exact Nat.le_refl 3
  obtain ⟨-, hlisting, -⟩ := ranks_report_gathered hreached everyScored_threeMembers (.store _ _)
    (Outage.strikes_single .query (by decide) hmade (.store .unavailable))
  obtain ⟨members, hreports, -, hfirst⟩ := hlisting (by decide)
  exact ⟨journal, _, members, hreached, hreports, hfirst⟩

/-- A range of ranks may report members in the other order than they are answered in, and a number
of items instead of members. -/
theorem ranks_report_otherwise :
    (∃ journal, Reached singleRows .sphere journal threeMembers) ∧
      EveryScored singleRows threeMembers "k" ∧
      Answered singleRows .sphere threeMembers (.rangeByRank "k" (-3) (-1) true)
        (.ok (.scores [("a", Float.ofBits 0xfff0000000000000), ("b", 0.0),
          ("c", Float.ofBits 0x7ff0000000000000)])) ∧
      ReportsAt singleRows .sphere threeMembers (.rangeByRank "k" (-3) (-1) true)
        (.single .query 3 (.store .unavailable)) 3 (.store .unavailable)
        (.scores [("c", Float.ofBits 0x7ff0000000000000), ("b", 0.0)]) ∧
      ReportsAt singleRows .sphere threeMembers (.rangeByRank "k" (-1) 0 true)
        (.single .query 1 (.store .unavailable)) 1 (.store .unavailable) (.count 0) := by
  obtain ⟨hfirst, hsecond, hthird⟩ := pages_fromLast
  have hspared : ∀ {c : Call} {reply} (calls : List Call),
      singleRows.layout.store c threeMembers = (reply, threeMembers) →
      callCount c.method calls + 1 ≠ 3 →
        singleRows.layout.store.failing (.single .query 3 (.store .unavailable)) c
          (calls, threeMembers) = (reply, c :: calls, threeMembers) := by
    intro c reply calls hreply hne
    rw [Store.failing_spared (if_neg fun hboth => hne hboth.2), hreply]
  refine ⟨reached_threeMembers, everyScored_threeMembers, ?_, ⟨?_, rfl⟩, rfl, rfl⟩
  · exact answered_of_run
      (Program.run_call hfirst (Program.run_call hsecond (Program.run_call hthird rfl)))
  · rw [trace_fromLast]
    exact Program.run_call (hspared [] hfirst (by decide))
      (Program.run_call (hspared [.query (rowAfter false (some 3) none)] hsecond (by decide)) rfl)

end RankedTable

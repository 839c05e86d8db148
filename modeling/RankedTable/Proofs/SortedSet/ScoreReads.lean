import RankedTable.Proofs.Command.Replies
import RankedTable.Proofs.SortedSet.Ranking
import RankedTable.Proofs.Store.Pass

/-!
# Reads by score

A range of scores is a range of texts, so what a scan sees is the ranking, from either end, without
the members outside the bounds; offset and count take their window of it.

* `directed`, `within` — the ranking in a direction, and the scores between bounds.
* `ScoreRequest` — the request that two bounds become.
* `run_fetch_paged` — a listing of items with scores, whatever its pages are.
* **`run_rangeByScore`**, **`run_countByScore`**, **`run_score`** — what reads find in a client's
  table; `run_rangeByScore_refused` — which reads are refused.
* **`score_reads_eq_ranking`** — in every table reached, the reads are those of the sorted set that
  the journal tells.
-/

namespace RankedTable

open Scan (PageFits IsPageSize)

/-- A ranking from its lowest or from its highest member on. -/
def directed {α : Type} (forward : Bool) (ranking : List α) : List α :=
  if forward then ranking else ranking.reverse

section Directions

variable {α β : Type}

lemma perm_directed (forward : Bool) (l : List α) : (directed forward l).Perm l := by
  cases forward with
  | true => exact List.Perm.refl l
  | false => exact List.reverse_perm l

lemma directed_not (forward : Bool) (l : List α) :
    directed (!forward) l = (directed forward l).reverse := by
  cases forward with
  | true => rfl
  | false => exact (List.reverse_reverse l).symm

lemma directed_map (forward : Bool) (f : α → β) (l : List α) :
    directed forward (l.map f) = (directed forward l).map f := by
  cases forward with
  | true => rfl
  | false => exact List.map_reverse.symm

lemma pairwise_directed {r : α → α → Prop} (forward : Bool) {l : List α} (h : l.Pairwise r) :
    (directed forward l).Pairwise fun a b => if forward then r a b else r b a := by
  cases forward with
  | true => exact h
  | false => exact List.pairwise_reverse.mpr h

lemma sortRows_directed {rows : List Row} (h : Apart rows) (forward : Bool) :
    sortRows forward rows = directed forward (sortRows true rows) := by
  cases forward with
  | true => rfl
  | false => exact sortRows_backward h

end Directions

/-- What a client is told of the value that is kept as a score. -/
def scoreFrom : Option Value → Except Error (Float × Bool)
  | some (.text encoded) => (liftScore (Score.decode encoded)).map (·, true)
  | _ => .ok (0.0, false)

/-- Whether a score lies between two bounds, each of which may be missing. -/
def within (low high : Option Float) (x : Float) : Bool :=
  low.all (fun bound => decide (bound ≤ x)) && high.all fun bound => decide (x ≤ bound)

/-- Whether a bound, if there is one, is a number. -/
def IsBound (bound : Option Float) : Prop :=
  ∀ x, bound = some x → x.isNaN = false

lemma isBound_none : IsBound none := by
  intro x hx
  simp at hx

/-! ## Requests -/

/-- The request that two bounds become, and the texts that it accepts. -/
structure ScoreRequest (settings : Settings) (key : String) (low high : Option Float)
    (forward : Bool) (request : QueryRequest) (test : String → Bool) : Prop where
  partition : request.partition = key
  index : request.index = some settings.scoreName
  forward : request.forward = forward
  selectCount : request.selectCount = false
  accepted : request.Accepted settings.layout test
  test : ∀ x t, Score.encode x = .ok t → test t = within low high x

namespace SortedSet

variable {client : Client} {table : Table} {key : String} {low high : Option Float}

/-- A bound becomes the encoding of its score. -/
lemma scoreBound_ok {bound : Option Float} (h : IsBound bound) :
    ∃ text : Option String, scoreBound bound = .ok (text.map .text) ∧
      (∀ x t, Score.encode x = .ok t → text.all (fun b => decide (b ≤ t)) =
        bound.all fun b => decide (b ≤ x)) ∧
      ∀ x t, Score.encode x = .ok t → text.all (fun b => decide (t ≤ b)) =
        bound.all fun b => decide (x ≤ b) := by
  cases bound with
  | none => exact ⟨none, rfl, fun _ _ _ => rfl, fun _ _ _ => rfl⟩
  | some y =>
      obtain ⟨s, hs, -⟩ := Score.encode_codes (h y rfl)
      refine ⟨some s, ?_, ?_, ?_⟩
      · rw [scoreBound, Option.mapM_some, hs]
        rfl
      · intro x t ht
        exact decide_eq_decide.mpr (Score.encode_le_iff hs ht)
      · intro x t ht
        exact decide_eq_decide.mpr (Score.encode_le_iff ht hs)

/-- A bound that becomes something is a number. -/
lemma isBound_of_scoreBound {bound : Option Float} {value : Option Value}
    (h : scoreBound bound = .ok value) : IsBound bound := by
  rintro x rfl
  cases hx : Score.encode x with
  | ok t => exact (Score.codes_of_encode hx).1
  | error e =>
      rw [scoreBound, Option.mapM_some, hx] at h
      cases h

/-- The request of a range of scores is on the index of scores. -/
lemma scoreRange_index {forward : Bool} {request : QueryRequest}
    (hrequest : scoreRange client key low high forward = .ok request) :
    request.index = some client.settings.scoreName ∧ request.selectCount = false := by
  obtain ⟨lowValue, -, hrequest⟩ := bind_eq_ok.mp hrequest
  obtain ⟨highValue, -, hrequest⟩ := bind_eq_ok.mp hrequest
  rw [← Except.ok.inj hrequest]
  exact ⟨rfl, rfl⟩

/-- **Bounds that are numbers become a request for the scores between them.** -/
theorem scoreRange_ok (client : Client) (hlow : IsBound low) (hhigh : IsBound high)
    (key : String) (forward : Bool) :
    ∃ request test, scoreRange client key low high forward = .ok request ∧
      ScoreRequest client.settings key low high forward request test := by
  obtain ⟨lowText, hlowText, hlowTest, -⟩ := scoreBound_ok hlow
  obtain ⟨highText, hhighText, -, hhighTest⟩ := scoreBound_ok hhigh
  refine ⟨_, fun t => lowText.all (fun b => decide (b ≤ t)) && highText.all fun b => decide (t ≤ b),
    by rw [scoreRange, hlowText, hhighText]; rfl, rfl, rfl, rfl, rfl,
    ⟨mem_indexed_of_eq rfl (List.mem_cons_self ..), ?_⟩, ?_⟩
  · cases lowText with
    | none =>
        cases highText with
        | none => exact ⟨none, none, rfl, rfl, fun _ => rfl⟩
        | some b => exact ⟨_, _, rfl, rfl, fun _ => rfl⟩
    | some a =>
        cases highText with
        | none => exact ⟨_, _, rfl, rfl, fun text => (Bool.and_true _).symm⟩
        | some b => exact ⟨_, _, rfl, rfl, fun _ => rfl⟩
  · intro x t ht
    rw [hlowTest x t ht, hhighTest x t ht]
    rfl

/-! ## Scores of members -/

/-- The score of a member is told by the value that is kept. -/
lemma run_score_eq (h : ClientTable client.settings table) (key member : String) :
    (score client key member).run client.settings.layout.store table =
      (scoreFrom (table.attribute? ⟨key, member⟩ client.settings.scoreName), table) := by
  obtain ⟨found, hfound, hget⟩ := h.store_get ⟨key, member⟩ client.settings.scoreName
  rw [score, Program.run_bind, Program.run_perform, hget]
  dsimp only
  rw [hfound]
  cases hvalue : table.attribute? ⟨key, member⟩ client.settings.scoreName with
  | none => rfl
  | some value =>
      cases value with
      | text t =>
          cases hdecode : Score.decode t with
          | ok x =>
              dsimp only
              rw [scoreFrom, hdecode]
              rfl
          | error e =>
              dsimp only
              rw [scoreFrom, hdecode]
              rfl
      | _ => rfl

/-! ## Listings of ranges -/

/-- An item whose score is encoded is decoded with it. -/
lemma decodeMember_encoded {item : Item} {x : Float} {t : String} (hx : Score.encode x = .ok t)
    (hitem : item.get? client.settings.scoreName = some (.text t)) :
    decodeMember client item = .ok (scored client.settings item) := by
  rw [decodeMember, hitem]
  dsimp only
  rw [(scoreOf_encoded hx hitem).1]
  rfl

section Ranges

variable (h : ClientTable client.settings table) {request : QueryRequest} {test : String → Bool}

include h

/-- Each item of a range is listed once. -/
lemma names_matching (request : QueryRequest) (test : String → Bool) :
    (Assoc.names (((table.matching request test).map Row.item).map
      (scored client.settings))).Nodup := by
  have hapart := Table.apart_rows h.mirrors.items h.mirrors.rows request.partition request.index
  rw [Assoc.names, List.map_map, List.map_map]
  exact ((perm_sortRows request.forward _).map Row.member).nodup_iff.mpr (hapart.filter _)

/-- What becomes of a listing of items with scores, whatever its pages are. -/
lemma run_fetch_paged (hpages : table.pageBound ≤ client.maxPages)
    (haccepted : request.Accepted client.settings.layout test)
    (hfetched : request.selectCount = false)
    (hdecode : ∀ row ∈ table.matching request test,
      decodeMember client row.item = .ok (scored client.settings row.item))
    (offset count : ℤ) :
    (fetch client request offset count).run client.settings.layout.store table =
      (Scan.paged (Scan.budgetLimit offset count client.settings.pageSize)
        (.error .integerTooLarge) (.ok []) (.ok (Scan.window offset.toNat count
          (((table.matching request test).map Row.item).map (scored client.settings)))), table) := by
  have hcollect : (fetch client request offset count).run client.settings.layout.store table = _ :=
    Scan.run_collect_paged h.mirrors haccepted.index (fun test row hrow => h.readItem_ok hrow)
      hpages .scores haccepted hdecode (names_matching h request test) hfetched
  rw [hcollect, Scan.firstLimit_eq rfl]
  rfl

end Ranges

/-! ## What scans see -/

section Client

variable (h : ClientTable client.settings table)
  (hscores : ScoresEncoded client.settings.scoreName table)

include h hscores

/-- **A range of scores has the members of the ranking within its bounds**, in its direction. -/
theorem matching_scoreRange {forward : Bool} {request : QueryRequest} {test : String → Bool}
    (hr : ScoreRequest client.settings key low high forward request test) :
    (table.matching request test).map (fun row => scored client.settings row.item) =
      (directed forward (table.ranking client.settings key)).filter
        fun e => within low high e.2 := by
  have hapart := Table.apart_rows h.mirrors.items h.mirrors.rows key
    (some client.settings.scoreName)
  rw [Table.matching, hr.partition, hr.index, hr.forward, sortRows_filter hapart, Table.ranking,
    directed_map, ← sortRows_directed hapart, List.filter_map]
  congr 1
  refine List.filter_congr fun row hrow => ?_
  obtain ⟨-, -, hencode⟩ := score_row h hscores (mem_sortRows.mp hrow)
  exact hr.test _ _ hencode

/-- A member of a range is decoded with its score. -/
lemma decodeMember_ok {forward : Bool} {request : QueryRequest} {test : String → Bool}
    (hr : ScoreRequest client.settings key low high forward request test) {row : Row}
    (hrow : row ∈ table.matching request test) :
    decodeMember client row.item = .ok (scored client.settings row.item) := by
  have hmem := Table.mem_rows_of_mem_matching hrow
  rw [hr.partition, hr.index] at hmem
  obtain ⟨hget, -, hencode⟩ := score_row h hscores hmem
  exact decodeMember_encoded hencode hget

/-! ## Reads -/

/-- What becomes of a range of scores, whatever its pages are. -/
lemma run_rangeByScore_paged (hpages : table.pageBound ≤ client.maxPages) (hlow : IsBound low)
    (hhigh : IsBound high) (offset count : ℤ) (forward : Bool) :
    (rangeByScore client key low high offset count forward).run client.settings.layout.store
        table =
      (Scan.paged (Scan.budgetLimit offset count client.settings.pageSize)
        (.error .integerTooLarge) (.ok []) (.ok (Scan.window offset.toNat count
          ((directed forward (table.ranking client.settings key)).filter
            fun e => within low high e.2))), table) := by
  obtain ⟨request, test, hrequest, hr⟩ := scoreRange_ok client hlow hhigh key forward
  have hfetch := run_fetch_paged h hpages hr.accepted hr.selectCount
    (fun row hrow => decodeMember_ok h hscores hr hrow) offset count
  rw [List.map_map] at hfetch
  rw [rangeByScore, Program.lift, hrequest, ← matching_scoreRange h hscores hr]
  exact hfetch

/-- What a range of scores returns is in the ranking, each member once. -/
lemma ranked_of_rangeByScore (hpages : table.pageBound ≤ client.maxPages) {offset count : ℤ}
    {forward : Bool} {members : Assoc Float}
    (hrun : (rangeByScore client key low high offset count forward).run
      client.settings.layout.store table = (.ok members, table)) :
    members.names.Nodup ∧ ∀ e ∈ members, e ∈ table.ranking client.settings key := by
  obtain ⟨hlow, hhigh⟩ : IsBound low ∧ IsBound high := by
    cases hrequest : scoreRange client key low high forward with
    | ok request =>
        obtain ⟨lowValue, hlow, hrequest⟩ := bind_eq_ok.mp hrequest
        obtain ⟨highValue, hhigh, -⟩ := bind_eq_ok.mp hrequest
        exact ⟨isBound_of_scoreBound hlow, isBound_of_scoreBound hhigh⟩
    | error e =>
        rw [rangeByScore, hrequest] at hrun
        cases (Prod.mk.inj hrun).1
  have hsublist : members.Sublist (directed forward (table.ranking client.settings key)) := by
    rw [run_rangeByScore_paged h hscores hpages hlow hhigh] at hrun
    rcases Scan.eq_of_paged (Prod.mk.inj hrun).1 with hresult | hresult | hresult
    · cases hresult
    · rw [← Except.ok.inj hresult]
      exact List.nil_sublist _
    · rw [← Except.ok.inj hresult]
      exact (Scan.window_sublist _ _ _).trans List.filter_sublist
  have hperm := perm_directed forward (table.ranking client.settings key)
  exact ⟨((hperm.map Prod.fst).nodup_iff.mpr (names_ranking h.mirrors key)).sublist
    (hsublist.map Prod.fst), fun e he => hperm.subset (hsublist.subset he)⟩

/-- A range of scores whose first page can be served finds the window of its budget. -/
lemma run_rangeByScore_served (hpages : table.pageBound ≤ client.maxPages) (hlow : IsBound low)
    (hhigh : IsBound high) {offset count : ℤ}
    (hlimit : IsPageLimit (Scan.budgetLimit offset count client.settings.pageSize))
    (forward : Bool) :
    (rangeByScore client key low high offset count forward).run client.settings.layout.store
        table =
      (.ok (Scan.window offset.toNat count
        ((directed forward (table.ranking client.settings key)).filter
          fun e => within low high e.2)), table) := by
  rw [run_rangeByScore_paged h hscores hpages hlow hhigh, Scan.paged_of_isPageLimit hlimit]

/-- **A range of scores finds the window of its budget** of the ranking between its bounds. -/
theorem run_rangeByScore (hpages : table.pageBound ≤ client.maxPages)
    (hsize : IsPageSize client.settings.pageSize) (hlow : IsBound low) (hhigh : IsBound high)
    {offset count : ℤ} (hfits : PageFits client.settings.pageSize offset count) (forward : Bool) :
    (rangeByScore client key low high offset count forward).run client.settings.layout.store
        table =
      (.ok (Scan.window offset.toNat count
        ((directed forward (table.ranking client.settings key)).filter
          fun e => within low high e.2)), table) :=
  run_rangeByScore_served h hscores hpages hlow hhigh
    (Scan.isPageLimit_budgetLimit hsize hfits) forward

/-- What becomes of a count of scores, whatever its pages are. -/
lemma run_countByScore_paged (hpages : table.pageBound ≤ client.maxPages) (hlow : IsBound low)
    (hhigh : IsBound high) :
    (countByScore client key low high).run client.settings.layout.store table =
      (Scan.paged client.settings.pageSize (.error .integerTooLarge) (.ok 0)
        (.ok (((table.ranking client.settings key).filter
          fun e => within low high e.2).length : ℤ)), table) := by
  obtain ⟨request, test, hrequest, hr⟩ := scoreRange_ok client hlow hhigh key true
  have hmatching : (table.matching request test).length = _ :=
    List.length_map .. ▸ congrArg List.length (matching_scoreRange h hscores hr)
  have hcount : (Scan.count { request := request, maxPages := client.maxPages }).run
      client.settings.layout.store table = _ :=
    Scan.run_count_tally h.mirrors hr.accepted.index (fun test row hrow => h.readItem_ok hrow)
      hpages
  rw [countByScore, Program.lift, hrequest]
  refine hcount.trans ?_
  rw [Scan.tally, hr.accepted.bounds_eq]
  dsimp only
  rw [hmatching]
  rfl

/-- **A count of scores is the number of members between its bounds.** -/
theorem run_countByScore (hpages : table.pageBound ≤ client.maxPages)
    (hsize : IsPageSize client.settings.pageSize) (hlow : IsBound low) (hhigh : IsBound high)
    (hfits : PageFits client.settings.pageSize 0 0) :
    (countByScore client key low high).run client.settings.layout.store table =
      (.ok (((table.ranking client.settings key).filter fun e => within low high e.2).length : ℤ),
        table) := by
  rw [run_countByScore_paged h hscores hpages hlow hhigh]
  have hserved : IsPageLimit client.settings.pageSize := Scan.isPageLimit_of_pageFits hsize hfits
  rw [Scan.paged_of_isPageLimit hserved]

/-- **The score of a member is that of the ranking.** -/
theorem run_score (member : String) :
    (score client key member).run client.settings.layout.store table =
      (.ok (match Assoc.get? (table.ranking client.settings key) member with
        | some x => (x, true)
        | none => (0.0, false)), table) := by
  rw [run_score_eq h]
  rcases get?_ranking h hscores key member with
    ⟨hattribute, hranking⟩ | ⟨t, x, hattribute, hdecode, hranking⟩
  · rw [hattribute, hranking]
    rfl
  · rw [hattribute, hranking, scoreFrom, hdecode]
    rfl

end Client

/-- **A range of scores whose pages cannot be asked for is refused.** -/
theorem run_rangeByScore_refused (hopen : table.isOpen = true) (hpages : 0 < client.maxPages)
    (hlow : IsBound low) (hhigh : IsBound high) {offset count : ℤ}
    (hfits : ¬PageFits client.settings.pageSize offset count) (forward : Bool) :
    (rangeByScore client key low high offset count forward).run client.settings.layout.store
        table = (.error .integerTooLarge, table) := by
  obtain ⟨request, test, hrequest, hr⟩ := scoreRange_ok client hlow hhigh key forward
  rw [rangeByScore, Program.lift, hrequest]
  exact Scan.run_collect_refused .scores hopen hr.accepted rfl hpages hfits

end SortedSet

/-! ## What clients are answered -/

section Reached

variable {settings : Settings} {geometry : Geometry} {journal : List Call} {table : Table}

/-- **Reads by score are those of the sorted set that the journal tells**, as long as the rows that
a page is asked for can be counted in a word. -/
theorem score_reads_eq_ranking (h : Reached settings geometry journal table)
    (hnames : settings.scoreName ≠ settings.locationName) (hsize : IsPageSize settings.pageSize)
    (key : String) :
    ∃ ranking, IsRanking settings.scoreName journal key ranking ∧
      (∀ low high offset count forward, IsBound low → IsBound high →
        PageFits settings.pageSize offset count →
        (Connection.embedded settings.layout table).runCommand settings geometry
            (.rangeByScore key low high offset count forward) =
          (.ok (.scores (Scan.window offset.toNat count
            ((directed forward ranking).filter fun e => within low high e.2))),
            .embedded settings.layout table)) ∧
      (∀ low high, IsBound low → IsBound high → PageFits settings.pageSize 0 0 →
        (Connection.embedded settings.layout table).runCommand settings geometry
            (.countByScore key low high) =
          (.ok (.count ((ranking.filter fun e => within low high e.2).length : ℤ)),
            .embedded settings.layout table)) ∧
      ∀ member,
        (Connection.embedded settings.layout table).runCommand settings geometry
            (.score key member) =
          (.ok (match Assoc.get? ranking member with
            | some x => .score x true
            | none => .score 0.0 false),
            .embedded settings.layout table) := by
  have htable : ClientTable (Client.mk settings table.pageBound).settings table := h.clientTable
  have hscores := htable.score hnames
  refine ⟨table.ranking settings key, isRanking h hnames key, ?_, ?_, ?_⟩
  · intro low high offset count forward hlow hhigh hfits
    exact runCommand_of_run (Program.run_map _ (SortedSet.run_rangeByScore htable hscores
      (Nat.le_refl _) hsize hlow hhigh hfits forward))
  · intro low high hlow hhigh hfits
    exact runCommand_of_run (Program.run_map _ (SortedSet.run_countByScore htable hscores
      (Nat.le_refl _) hsize hlow hhigh hfits))
  · intro member
    refine runCommand_of_run ?_
    rw [Command.program, Program.run_bind, SortedSet.run_score htable hscores member]
    cases Assoc.get? (table.ranking settings key) member <;> rfl

end Reached

theorem score_reads_eq_ranking_added :
    ∃ (settings : Settings) (journal : List Call) (table : Table) (ranking : Assoc Float),
      settings.pageSize = some 1 ∧ Reached settings .sphere journal table ∧
        IsRanking settings.scoreName journal "k" ranking ∧
        (Connection.embedded settings.layout table).runCommand settings .sphere
            (.rangeByScore "k" none (some (Float.ofBits 0)) 1 2 false) =
          (.ok (.scores (Scan.window 1 2 (ranking.reverse.filter
            fun e => within none (some (Float.ofBits 0)) e.2))),
            .embedded settings.layout table) := by
  have hreached : Reached { (Installation.mk "ranked" "").defaults with pageSize := some 1 }
      .sphere _ _ :=
    .command .empty (.add "k" [("a", Float.ofBits 0), ("b", Float.ofBits 0xc024000000000000)] {})
      rfl
  obtain ⟨ranking, hranking, hrange, -⟩ := score_reads_eq_ranking hreached (by decide)
    (fun n hn => by rw [← Option.some_inj.mp hn]) "k"
  refine ⟨_, _, _, ranking, rfl, hreached, hranking, ?_⟩
  exact hrange none (some (Float.ofBits 0)) 1 2 false isBound_none
    (fun x hx => by rw [← Option.some_inj.mp hx]; decide)
    (fun n hn => by rw [← Option.some_inj.mp hn]; decide)

/-- A page of more rows than a word can count is refused, whether a budget asks for it or the page
size does. -/
theorem range_refused_beyond_word :
    (Reached (Installation.mk "ranked" "").defaults .sphere [] {} ∧ (-1 : ℤ) + 2 ^ 63 < 2 ^ 63 ∧
      ((Connection.embedded (Installation.mk "ranked" "").defaults.layout {}).runCommand
        (Installation.mk "ranked" "").defaults .sphere
        (.rangeByScore "k" none none (-1) (2 ^ 63) true)).1 = .error .integerTooLarge) ∧
    Reached { (Installation.mk "ranked" "").defaults with pageSize := some (2 ^ 63) } .sphere
        [] {} ∧
      ((Connection.embedded
          { (Installation.mk "ranked" "").defaults with pageSize := some (2 ^ 63) }.layout
          {}).runCommand
        { (Installation.mk "ranked" "").defaults with pageSize := some (2 ^ 63) } .sphere
        (.rangeByScore "k" none none 0 0 true)).1 = .error .integerTooLarge :=
  ⟨⟨.empty, by decide, rfl⟩, .empty, rfl⟩

end RankedTable

import RankedTable.Proofs.SortedSet.Listings
import RankedTable.Proofs.SortedSet.RankReads

/-!
# Ranks of members with the same score

The rank of a member is no position that is looked up: its score becomes a bound, and the members
up to it are counted, all of its ties included.  So tied members have one rank, and at that position
of the order by score and name stands the last of them.

* `tied`, `membersUpTo` — the members with a score, and those up to it.
* `IsRanking.eq_of_tied` — tied members have one and the same score.
* **`length_upTo_add`** — what is counted from both ends counts the ties twice.
* **`exists_last_tied`** — the last of the ties, and what comes up to it.
* `run_rank`, `run_rangeByRank_at` — ranks, and reads of one position.
* `RankOfTies` — what clients are told of the rank of a member.
* **`rank_of_ties`** — in every table reached, ranks count the members up to a score.
* `rank_counts_placed`, `rank_needs_pages` — which settings tell other ranks, or none.
-/

namespace RankedTable

variable {settings : Settings} {geometry : Geometry} {journal : List Call} {table : Table}
  {key : String}

/-! ## Ties -/

/-- The members that have a score, in the order of their names. -/
def tied (ranking : Assoc Float) (x : Float) : Assoc Float :=
  ranking.filter fun e => e.2 == x

/-- The members whose score comes no later than one in a direction. -/
def membersUpTo (forward : Bool) (ranking : Assoc Float) (x : Float) : Assoc Float :=
  ranking.filter fun e => upTo forward x e.2

/-- A list is cut behind the last element that passes a test. -/
lemma exists_last_passing {α : Type} {p : α → Bool} {l : List α} {a : α} (ha : a ∈ l)
    (hpasses : p a = true) :
    ∃ front last back, l = front ++ [last] ++ back ∧ p last = true ∧ ∀ b ∈ back, p b = false := by
  obtain ⟨last, hfound⟩ := Option.isSome_iff_exists.mp
    (List.find?_isSome.mpr ⟨a, List.mem_reverse.mpr ha, hpasses⟩)
  obtain ⟨hlast, behind, before, hsplit, hbehind⟩ := List.find?_eq_some_iff_append.mp hfound
  refine ⟨before.reverse, last, behind.reverse, ?_, hlast, fun b hb => ?_⟩
  · rw [← List.reverse_reverse l, hsplit]
    simp
  · exact Bool.not_eq_true' _ |>.mp (hbehind b (List.mem_reverse.mp hb))

namespace IsRanking

variable {scoreName : String} {ranking : Assoc Float}

/-- Tied members have the same score: it is decoded from the same text. -/
lemma eq_of_tied (h : IsRanking scoreName journal key ranking) {a b : String × Float}
    (ha : a ∈ ranking) (hb : b ∈ ranking) (hab : (a.2 == b.2) = true) : a.2 = b.2 := by
  obtain ⟨s, hs, hdecode, -⟩ := h.written _ _ ha
  obtain ⟨t, ht, hdecode', -⟩ := h.written _ _ hb
  obtain rfl := (Score.encode_eq_iff hs ht).mpr hab
  exact Except.ok.inj (hdecode.symm.trans hdecode')

/-- Of tied members the one with the smaller name comes first. -/
lemma name_lt_of_tied (h : IsRanking scoreName journal key ranking) {a b : String × Float}
    (ha : a ∈ ranking) (hb : b ∈ ranking) (hab : Ranked a b) (htied : (a.2 == b.2) = true) :
    a.1 < b.1 := by
  obtain ⟨s, hs, -⟩ := h.written _ _ ha
  obtain ⟨t, ht, -⟩ := h.written _ _ hb
  rcases hab with hlt | ⟨-, hname⟩
  · exact absurd ((Score.encode_lt_iff hs ht).mpr hlt)
      (((Score.encode_eq_iff hs ht).mpr htied).not_lt)
  · exact hname

/-- A score comes up to another from one end or from the other, and from both if they are tied. -/
lemma upTo_add (h : IsRanking scoreName journal key ranking) {a : String × Float}
    {member : String} {x : Float} (ha : a ∈ ranking) (hb : (member, x) ∈ ranking) :
    ((if upTo true x a.2 = true then 1 else 0) + if upTo false x a.2 = true then 1 else 0) =
      1 + if (a.2 == x) = true then 1 else 0 := by
  obtain ⟨s, hs, -⟩ := h.written _ _ ha
  obtain ⟨t, ht, -⟩ := h.written _ _ hb
  have hforward : upTo true x a.2 = true ↔ s ≤ t :=
    decide_eq_true_iff.trans (Score.encode_le_iff hs ht).symm
  have hbackward : upTo false x a.2 = true ↔ t ≤ s :=
    decide_eq_true_iff.trans (Score.encode_le_iff ht hs).symm
  rw [if_congr hforward rfl rfl, if_congr hbackward rfl rfl,
    if_congr (Score.encode_eq_iff hs ht).symm rfl rfl]
  rcases lt_trichotomy s t with hlt | rfl | hlt
  · rw [if_pos hlt.le, if_neg hlt.not_ge, if_neg hlt.ne]
  · rw [if_pos le_rfl, if_pos rfl]
  · rw [if_neg hlt.not_ge, if_pos hlt.le, if_neg hlt.ne']

/-- **Counted from both ends, all members count once, and the ties once more.** -/
lemma length_upTo_add (h : IsRanking scoreName journal key ranking) {member : String}
    {x : Float} (hmember : (member, x) ∈ ranking) :
    (membersUpTo true ranking x).length + (membersUpTo false ranking x).length =
      ranking.length + (tied ranking x).length := by
  have hsum : ∀ l ⊆ ranking, l.countP (fun a => upTo true x a.2) +
      l.countP (fun a => upTo false x a.2) = l.length + l.countP fun a => a.2 == x := by
    intro l hl
    induction l with
    | nil => rfl
    | cons a rest ih =>
        obtain ⟨ha, hrest⟩ := List.cons_subset.mp hl
        have hone := h.upTo_add ha hmember
        have hmore := ih hrest
        rw [List.countP_cons, List.countP_cons, List.countP_cons, List.length_cons]
        omega
  simp only [List.countP_eq_length_filter] at hsum
  exact hsum ranking (List.Subset.refl _)

/-- A score is tied with itself. -/
lemma beq_self (h : IsRanking scoreName journal key ranking) {member : String} {x : Float}
    (hmember : (member, x) ∈ ranking) : (x == x) = true := by
  obtain ⟨t, ht, -⟩ := h.written _ _ hmember
  exact (Score.encode_eq_iff ht ht).mp rfl

/-- The last of the ties has the greatest name. -/
lemma name_le_of_last (h : IsRanking scoreName journal key ranking) {front back : Assoc Float}
    {last : String × Float} (hsplit : ranking = front ++ [last] ++ back)
    (hback : ∀ other ∈ back, (other.2 == last.2) = false) {other : String × Float}
    (hother : other ∈ tied ranking last.2) : other.1 ≤ last.1 := by
  obtain ⟨hmem, htied⟩ := List.mem_filter.mp hother
  have hplace : other ∈ front ++ [last] ++ back := hsplit ▸ hmem
  have hsorted := h.sorted
  rw [hsplit] at hsorted
  rcases List.mem_append.mp hplace with hplace | hplace
  · rcases List.mem_append.mp hplace with hplace | hplace
    · have hlast : last ∈ ranking := by
        rw [hsplit]
        simp
      have hranked := (List.pairwise_append.mp (List.pairwise_append.mp hsorted).1).2.2 other hplace
        last (List.mem_singleton_self _)
      exact (h.name_lt_of_tied hmem hlast hranked htied).le
    · exact (congrArg Prod.fst (List.mem_singleton.mp hplace)).le
  · rw [hback other hplace] at htied
    cases htied

/-- **The members up to a score end with the last of its ties**, which has the greatest name. -/
lemma exists_last_tied (h : IsRanking scoreName journal key ranking) {member : String}
    {x : Float} (hmember : (member, x) ∈ ranking) :
    ∃ front name back, ranking = front ++ [(name, x)] ++ back ∧
      membersUpTo true ranking x = front ++ [(name, x)] ∧
      ∀ other ∈ tied ranking x, other.1 ≤ name := by
  obtain ⟨front, ⟨name, y⟩, back, hsplit, htie, hback⟩ :=
    exists_last_passing (p := fun e : String × Float => e.2 == x) hmember (h.beq_self hmember)
  dsimp only at htie hback
  have hlast : (name, y) ∈ ranking := by
    rw [hsplit]
    simp
  obtain rfl : x = y := (h.eq_of_tied hlast hmember htie).symm
  have hdirected : directed true ranking = front ++ [(name, x)] ++ back := hsplit
  have hfilter := h.filter_upTo hdirected hback
  exact ⟨front, name, back, hsplit, hfilter, fun _ hother => h.name_le_of_last hsplit hback hother⟩

end IsRanking

/-! ## Runs -/

/-- A page that is served may be cut to what is needed up to a position. -/
lemma isPageLimit_position {pageSize : Option ℤ} (hlimit : IsPageLimit pageSize) (position : ℕ)
    (hword : pageSize = none → (position : ℤ) + 1 < 2 ^ 63) :
    IsPageLimit (Scan.budgetLimit position 1 pageSize) := by
  rw [Scan.budgetLimit, if_pos Int.one_pos, max_eq_left (Int.natCast_nonneg position)]
  cases pageSize with
  | none => exact Scan.isPageLimit_of_lt (by omega) (hword rfl)
  | some size =>
      have hfits := Scan.fitsWord_iff.mp hlimit.2
      have hzero := hlimit.1
      exact ⟨by omega, Scan.fitsWord_iff.mpr (by omega)⟩

namespace SortedSet

variable {client : Client}

/-- What is counted between two bounds are the rows there, whatever they were written for. -/
lemma run_countByScore_rows {client : Client} (h : ClientTable client.settings table)
    (hpages : table.pageBound ≤ client.maxPages) (hlimit : IsPageLimit client.settings.pageSize)
    {low high : Option Float} {request : QueryRequest} {test : String → Bool}
    (hrequest : scoreRange client key low high true = .ok request)
    (hbounds : request.bounds = .ok test) :
    (countByScore client key low high).run client.settings.layout.store table =
      (.ok (((table.rows request.partition request.index).filter fun row =>
        test row.sortText).length : ℤ), table) := by
  obtain ⟨hindex, -⟩ := scoreRange_index hrequest
  have hcount : (Scan.count { request := request, maxPages := client.maxPages }).run
      client.settings.layout.store table = _ :=
    Scan.run_count_tally h.mirrors (mem_indexed_of_eq hindex (List.mem_cons_self ..))
      (fun test row hrow => h.readItem_ok hrow) hpages
  have hlength := (perm_sortRows request.forward
    ((table.rows request.partition request.index).filter fun row => test row.sortText)).length_eq
  rw [countByScore, Program.lift, hrequest]
  refine hcount.trans ?_
  rw [Scan.tally, hbounds]
  dsimp only
  rw [Table.matching, hlength]
  exact congrArg (·, table) (Scan.paged_of_isPageLimit hlimit _ _ _)

section Client

variable (h : ClientTable client.settings table)
  (hscores : ScoresEncoded client.settings.scoreName table)
  (hpages : table.pageBound ≤ client.maxPages)

include h hscores hpages

/-- **The rank of a member is the number of members up to its score**, without itself. -/
theorem run_rank (hlimit : IsPageLimit client.settings.pageSize) {member : String} {x : Float}
    (hmember : (member, x) ∈ table.ranking client.settings key) (forward : Bool) :
    (rank client key member forward).run client.settings.layout.store table =
      (.ok (((membersUpTo forward (table.ranking client.settings key) x).length : ℤ) - 1, true),
        table) := by
  have hget := (Assoc.get?_eq_some_iff (names_ranking h.mirrors key)).mpr hmember
  have hbound : IsBound (some x) := by
    obtain ⟨t, -, -, hx⟩ := (mem_ranking h hscores).mp hmember
    intro y hy
    rw [← Option.some_inj.mp hy]
    exact (Score.codes_of_encode hx).1
  have hcount : ∀ {low high}, IsBound low → IsBound high →
      (countByScore client key low high).run client.settings.layout.store table =
        (.ok (((table.ranking client.settings key).filter fun e => within low high e.2).length : ℤ),
          table) := by
    intro low high hlow hhigh
    rw [run_countByScore_paged h hscores hpages hlow hhigh, Scan.paged_of_isPageLimit hlimit]
  rw [rank, Program.run_bind, run_score h hscores member, hget]
  dsimp only
  rw [if_pos rfl]
  cases forward with
  | true =>
      rw [if_pos rfl, Program.run_bind, hcount isBound_none hbound, within_none_some]
      rfl
  | false =>
      rw [if_neg Bool.false_ne_true, Program.run_bind, hcount hbound isBound_none, within_some_none]
      rfl

omit hpages in
/-- Without a score there is no rank. -/
lemma run_rank_none {member : String}
    (hmember : ∀ x, (member, x) ∉ table.ranking client.settings key) (forward : Bool) :
    (rank client key member forward).run client.settings.layout.store table =
      (.ok (0, false), table) := by
  have hget : Assoc.get? (table.ranking client.settings key) member = none :=
    Option.eq_none_iff_forall_ne_some.mpr fun x hx =>
      hmember x ((Assoc.get?_eq_some_iff (names_ranking h.mirrors key)).mp hx)
  rw [rank, Program.run_bind, run_score h hscores member, hget]
  rfl

/-- At a position of the order stands the member there. -/
lemma run_rangeByRank_at (hlimit : IsPageLimit client.settings.pageSize)
    {front back : Assoc Float} {e : String × Float}
    (hsplit : table.ranking client.settings key = front ++ [e] ++ back)
    (hword : client.settings.pageSize = none → (front.length : ℤ) + 1 < 2 ^ 63) :
    (rangeByRank client key front.length front.length true).run client.settings.layout.store
      table = (.ok [e], table) := by
  have hbudget := isPageLimit_position hlimit front.length hword
  have hwindow : Scan.window (front.length : ℤ).toNat 1
      ((directed true (table.ranking client.settings key)).filter fun e => within none none e.2) =
        [e] := by
    have hall : (directed true (table.ranking client.settings key)).filter
        (fun e => within none none e.2) = front ++ [e] ++ back :=
      (List.filter_eq_self.mpr fun _ _ => rfl).trans hsplit
    rw [hall, Scan.window, if_pos Int.one_pos, Int.toNat_natCast, List.append_assoc,
      List.drop_left]
    rfl
  rw [rangeByRank, if_neg (by omega), rangeFrom, if_neg (by omega), if_neg (by omega),
    if_neg (by omega), sub_self, zero_add,
    run_rangeByScore_served h hscores hpages isBound_none isBound_none hbudget, hwindow]

end Client

end SortedSet

/-! ## What clients are answered -/

/-- What clients are told of the rank of a member: how many members have a score that is no greater,
or from the other end no smaller, without itself.  At that position of the order stands the one with
the greatest name of those that are tied with it. -/
structure RankOfTies (settings : Settings) (geometry : Geometry) (table : Table) (key : String)
    (ranking : Assoc Float) (member : String) (x : Float) : Prop where
  rank : ∀ forward, Answered settings geometry table (.rank key member forward)
    (.ok (.rank ((membersUpTo forward ranking x).length - 1) true))
  both : ((membersUpTo true ranking x).length - 1 : ℤ) +
    ((membersUpTo false ranking x).length - 1) = ranking.length + (tied ranking x).length - 2
  last : (settings.pageSize = none → (ranking.length : ℤ) < 2 ^ 63) → ∃ name,
    (name, x) ∈ ranking ∧ (∀ e ∈ tied ranking x, e.1 ≤ name) ∧
    Answered settings geometry table
      (.rangeByRank key ((membersUpTo true ranking x).length - 1)
        ((membersUpTo true ranking x).length - 1) true) (.ok (.scores [(name, x)])) ∧
    (name = member ↔ ∀ e ∈ tied ranking x, e.1 ≤ member)

/-- A member is tied with itself. -/
lemma IsRanking.mem_tied {scoreName : String} {ranking : Assoc Float}
    (h : IsRanking scoreName journal key ranking) {member : String} {x : Float}
    (hmember : (member, x) ∈ ranking) : (member, x) ∈ tied ranking x :=
  List.mem_filter.mpr ⟨hmember, h.beq_self hmember⟩

section Reached

variable (h : Reached settings geometry journal table)
  (hnames : settings.scoreName ≠ settings.locationName) (hlimit : IsPageLimit settings.pageSize)
  (key : String)

include h hnames hlimit

/-- What clients are told of the rank of a member with a score. -/
lemma rankOfTies {member : String} {x : Float}
    (hmember : (member, x) ∈ table.ranking settings key) :
    RankOfTies settings geometry table key (table.ranking settings key) member x := by
  have htable : ClientTable (Client.mk settings table.pageBound).settings table := h.clientTable
  have hscores := htable.score hnames
  have hr := isRanking h hnames key
  refine ⟨fun forward => ?_, ?_, fun hword => ?_⟩
  · refine answered_of_run ?_
    rw [Command.program, Program.run_bind,
      SortedSet.run_rank htable hscores (Nat.le_refl _) hlimit hmember]
    rfl
  · have hsum := hr.length_upTo_add hmember
    omega
  · obtain ⟨front, name, back, hsplit, hfilter, hgreatest⟩ := hr.exists_last_tied hmember
    have hposition : ((membersUpTo true (table.ranking settings key) x).length - 1 : ℤ) =
        front.length := by
      rw [hfilter, List.length_append, List.length_singleton]
      omega
    have hlast : (name, x) ∈ table.ranking settings key := by
      rw [hsplit]
      simp
    have hlength : front.length < (table.ranking settings key).length := by
      rw [hsplit, List.length_append, List.length_append, List.length_singleton]
      omega
    refine ⟨name, hlast, hgreatest, ?_, ?_⟩
    · rw [hposition]
      exact answered_of_run (Program.run_map _ (SortedSet.run_rangeByRank_at htable hscores
        (Nat.le_refl _) hlimit hsplit fun hnone => by have := hword hnone; omega))
    · constructor
      · rintro rfl
        exact hgreatest
      · intro hmax
        exact le_antisymm (hmax _ (hr.mem_tied hlast)) (hgreatest _ (hr.mem_tied hmember))

/-- **Ranks count the members up to a score, ties included**, in every table reached, and a member
without a score has no rank. -/
theorem rank_of_ties :
    ∃ ranking, IsRanking settings.scoreName journal key ranking ∧
      (∀ member x, (member, x) ∈ ranking →
        RankOfTies settings geometry table key ranking member x) ∧
      ∀ member, (∀ x, (member, x) ∉ ranking) → ∀ forward,
        Answered settings geometry table (.rank key member forward) (.ok (.rank 0 false)) := by
  refine ⟨table.ranking settings key, isRanking h hnames key,
    fun member x hmember => rankOfTies h hnames hlimit key hmember,
    fun member hnone forward => answered_of_run ?_⟩
  have htable : ClientTable (Client.mk settings table.pageBound).settings table := h.clientTable
  rw [Command.program, Program.run_bind,
    SortedSet.run_rank_none htable (htable.score hnames) hnone]
  rfl

end Reached

/-- Of two tied members on pages of one row, and of one that there is not. -/
theorem rank_of_ties_added :
    ∃ (settings : Settings) (journal : List Call) (table : Table) (ranking : Assoc Float)
        (x : Float),
      settings.pageSize = some 1 ∧ Reached settings .sphere journal table ∧
        RankOfTies settings .sphere table "k" ranking "a" x ∧
        ∀ forward, Answered settings .sphere table (.rank "k" "c" forward)
          (.ok (.rank 0 false)) := by
  have hreached : Reached { (Installation.mk "ranked" "").defaults with pageSize := some 1 }
      .sphere _ _ :=
    .command .empty (.add "k" [("a", Float.ofBits 0), ("b", Float.ofBits 0)] {}) rfl
  obtain ⟨ranking, hranking, hties, hnone⟩ := rank_of_ties hreached (by decide)
    (show IsPageLimit (some 1) from ⟨by decide, by decide⟩) "k"
  obtain ⟨x, hx⟩ := hranking.complete "a" (.text "2") rfl
  refine ⟨_, _, _, ranking, x, rfl, hreached, hties "a" x hx, hnone "c" fun y hy => ?_⟩
  obtain ⟨t, -, -, hwritten⟩ := hranking.written "c" y hy
  cases hwritten

/-- If positions are kept under the name of scores, members that were only given a position are
counted, though they have no score. -/
theorem rank_counts_placed :
    ∃ journal table,
      Reached { (Installation.mk "ranked" "").defaults with scoreName := "sk3" } oneCell journal
        table ∧
      Answered { (Installation.mk "ranked" "").defaults with scoreName := "sk3" } oneCell table
        (.score "k" "b") (.ok (.score 0.0 false)) ∧
      Answered { (Installation.mk "ranked" "").defaults with scoreName := "sk3" } oneCell table
        (.rank "k" "a" false) (.ok (.rank 1 true)) := by
  obtain ⟨journal, table, hreached, hscore, hplaced, hrows⟩ : ∃ journal table,
      Reached { (Installation.mk "ranked" "").defaults with scoreName := "sk3" } oneCell journal
        table ∧
      table.attribute? ⟨"k", "a"⟩ "sk3" = some (.text "2") ∧
      Answered { (Installation.mk "ranked" "").defaults with scoreName := "sk3" } oneCell table
        (.score "k" "b") (.ok (.score 0.0 false)) ∧
      ((table.rows "k" (some "sk3")).filter fun row => decide ("2" ≤ row.sortText)).length = 2 :=
    ⟨_, _, .command (.command .empty (.add "k" [("a", Float.ofBits 0)] {}) rfl)
      (.addLocations "k" [("b", ⟨0, 0⟩)]) rfl, rfl, rfl, by decide⟩
  have htable : ClientTable (Client.mk { (Installation.mk "ranked" "").defaults with
      scoreName := "sk3" } table.pageBound).settings table := hreached.clientTable
  have hcount := SortedSet.run_countByScore_rows htable (Nat.le_refl _) trivial
    (show SortedSet.scoreRange _ "k" (some (Float.ofBits 0)) none true = .ok _ from rfl)
    (show _ = Except.ok fun text : String => decide ("2" ≤ text) from rfl)
  have hread : (scoreFrom (some (.text "2"))) = .ok (Float.ofBits 0, true) := rfl
  refine ⟨journal, table, hreached, hplaced, answered_of_run ?_⟩
  rw [Command.program, Program.run_bind, SortedSet.rank, Program.run_bind,
    SortedSet.run_score_eq htable, hscore, hread]
  dsimp only
  rw [if_pos rfl, if_neg Bool.false_ne_true, Program.run_bind, hcount, hrows]
  rfl

/-- On pages without rows the only member is told to be before the first one, and pages of more rows
than a word can count are refused.  Positions under the name of scores are counted with them. -/
theorem rank_needs_pages :
    (∃ journal table,
      Reached { (Installation.mk "ranked" "").defaults with pageSize := some 0 } .sphere journal
        table ∧
      Answered { (Installation.mk "ranked" "").defaults with pageSize := some 0 } .sphere table
        (.score "k" "a") (.ok (.score (Float.ofBits 0) true)) ∧
      Answered { (Installation.mk "ranked" "").defaults with pageSize := some 0 } .sphere table
        (.rank "k" "a" true) (.ok (.rank (-1) true))) ∧
    (∃ journal table,
      Reached { (Installation.mk "ranked" "").defaults with pageSize := some (2 ^ 63) } .sphere
        journal table ∧
      Answered { (Installation.mk "ranked" "").defaults with pageSize := some (2 ^ 63) } .sphere
        table (.rank "k" "a" true) (.error .integerTooLarge)) ∧
    ∃ journal table,
      Reached { (Installation.mk "ranked" "").defaults with scoreName := "sk3" } oneCell journal
        table ∧
      Answered { (Installation.mk "ranked" "").defaults with scoreName := "sk3" } oneCell table
        (.score "k" "b") (.ok (.score 0.0 false)) ∧
      Answered { (Installation.mk "ranked" "").defaults with scoreName := "sk3" } oneCell table
        (.rank "k" "a" false) (.ok (.rank 1 true)) :=
  ⟨⟨_, _, .command .empty (.add "k" [("a", Float.ofBits 0)] {}) rfl, rfl, rfl⟩,
    ⟨_, _, .command .empty (.add "k" [("a", Float.ofBits 0)] {}) rfl, rfl⟩, rank_counts_placed⟩

end RankedTable

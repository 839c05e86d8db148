import RankedTable.Proofs.SortedSet.Listings
import RankedTable.Proofs.SortedSet.Removal

/-!
# Ranges and counts of names

A range by name and a count by name go over the same rows, by ascending or by descending name.  If
every item has a score, these rows are the members of the sorted set in the order of their names,
and each of them is seen once: pages go on behind the name that the page before ended with,
whichever text that is.  The empty text is no bound, but as a name it is the first of the order.

* `run_countByName_paged` — what becomes of a count of names, whatever its pages are.
* `answered_rangeByName`, `answered_countByName` — what clients are answered of a collection whose
  items have scores.
* **`name_reads_eq_listing`** — in every table that sorted-set commands reach, the reads by name are
  those of the members by ascending name.
-/

namespace RankedTable

namespace SortedSet

variable {client : Client} {table : Table}

/-- What becomes of a count of names, whatever its pages are: it counts the rows between its bounds,
without a look at their scores. -/
lemma run_countByName_paged (h : ClientTable client.settings table)
    (hpages : table.pageBound ≤ client.maxPages) (key low high : String) :
    (countByName client key low high).run client.settings.layout.store table =
      (Scan.paged client.settings.pageSize (.error .integerTooLarge) (.ok 0)
        (.ok (((table.listing client.settings key).filter
          fun e => betweenNames low high e.1).length : ℤ)), table) := by
  have haccepted := accepted_nameRange client key low high true
  have hmatching : (table.matching (nameRange client key low high true)
      (betweenNames low high)).length =
        ((table.listing client.settings key).filter fun e => betweenNames low high e.1).length := by
    rw [matching_nameRange h, Table.listing, List.filter_map, List.length_map]
    rfl
  have hcount : (countByName client key low high).run client.settings.layout.store table = _ :=
    Scan.run_count_tally h.mirrors haccepted.index (fun test row hrow => h.readItem_ok hrow) hpages
  rw [hcount, Scan.tally, haccepted.bounds_eq]
  dsimp only
  rw [hmatching]
  rfl

end SortedSet

/-! ## What clients are answered -/

section Client

variable {settings : Settings} {geometry : Geometry} {journal : List Call} {table : Table}
  {key : String}

/-- **A range of names is answered with the window of its budget** of the members by name. -/
theorem answered_rangeByName (h : ClientTable settings table)
    (hscores : ScoresEncoded settings.scoreName table) (hscored : AllScored settings table key)
    (low high : String) (offset count : ℤ) (forward : Bool) :
    Answered settings geometry table (.rangeByName key low high offset count forward)
      (Scan.paged (Scan.budgetLimit offset count settings.pageSize) (.error .integerTooLarge)
        (.ok (.scores [])) (.ok (.scores (Scan.window offset.toNat count
          ((directed forward (table.listing settings key)).filter
            fun e => betweenNames low high e.1))))) := by
  have htable : ClientTable (Client.mk settings table.pageBound).settings table := h
  have hrun := Program.run_map_result Answer.scores
    (SortedSet.run_rangeByName_paged htable hscores hscored (Nat.le_refl _) low high offset count
      forward)
  rw [Scan.apply_paged (Except.map Answer.scores)] at hrun
  exact answered_of_run hrun

/-- **A count of names is answered with the number of members** between its bounds. -/
theorem answered_countByName (h : ClientTable settings table) (low high : String) :
    Answered settings geometry table (.countByName key low high)
      (Scan.paged settings.pageSize (.error .integerTooLarge) (.ok (.count 0))
        (.ok (.count (((table.listing settings key).filter
          fun e => betweenNames low high e.1).length : ℤ)))) := by
  have htable : ClientTable (Client.mk settings table.pageBound).settings table := h
  have hrun := Program.run_map_result Answer.count
    (SortedSet.run_countByName_paged htable (Nat.le_refl _) key low high)
  rw [Scan.apply_paged (Except.map Answer.count)] at hrun
  exact answered_of_run hrun

/-- **Reads by name are those of the members by ascending name**, each with the score last written,
from either end: within the bounds, of which an empty one is none, and then within the window of
offset and count.  A page of more rows than a word can count is refused, and pages without rows show
nobody. -/
theorem name_reads_eq_listing
    (h : ReachedBy settings geometry (·.isSortedSet = true) journal table) (key : String) :
    ∃ ranking listing : Assoc Float, IsRanking settings.scoreName journal key ranking ∧
      listing.Perm ranking ∧ listing.Pairwise (fun a b => a.1 < b.1) ∧
      (∀ low high offset count forward,
        Answered settings geometry table (.rangeByName key low high offset count forward)
          (Scan.paged (Scan.budgetLimit offset count settings.pageSize) (.error .integerTooLarge)
            (.ok (.scores [])) (.ok (.scores (Scan.window offset.toNat count
              ((directed forward listing).filter fun e => betweenNames low high e.1)))))) ∧
      ∀ low high, Answered settings geometry table (.countByName key low high)
        (Scan.paged settings.pageSize (.error .integerTooLarge) (.ok (.count 0))
          (.ok (.count ((listing.filter fun e => betweenNames low high e.1).length : ℤ)))) := by
  have htable := h.reached.clientTable
  have hclient : ClientTable (Client.mk settings table.pageBound).settings table := htable
  have hscores := h.eachScored.scoresEncoded
  have hscored := h.eachScored.allScored htable.mirrors.items key
  exact ⟨table.ranking settings key, table.listing settings key,
    isRanking_of_scoresEncoded h.reached hscores key,
    SortedSet.perm_listing hclient hscores hscored, SortedSet.sorted_listing hclient key,
    answered_rangeByName htable hscores hscored, answered_countByName htable⟩

end Client

/-! ## Unusual names -/

/-- A table of the empty name and of one that starts with a null character, which has the lower
score. -/
lemma reachedBy_unusual :
    ReachedBy { (Installation.mk "ranked" "").defaults with pageSize := some 1 } .sphere
    (·.isSortedSet = true)
    [.update ⟨"k", ""⟩ [("sk2", .text "2")] [],
      .update ⟨"k", "\x00ж"⟩ [("sk2", .text "14988~")] []]
    { items := [⟨⟨"k", "\x00ж"⟩, [("sk2", .text "14988~")]⟩, ⟨⟨"k", ""⟩, [("sk2", .text "2")]⟩]
      index := [⟨⟨"k", "\x00ж"⟩, "sk2", "14988~"⟩, ⟨⟨"k", ""⟩, "sk2", "2"⟩] } :=
  .command .empty (.add "k" [("\x00ж", Float.ofBits 0xc024000000000000), ("", Float.ofBits 0)] {})
    (by rfl) rfl

lemma isRanking_unusual : IsRanking "sk2"
    [.update ⟨"k", ""⟩ [("sk2", .text "2")] [],
      .update ⟨"k", "\x00ж"⟩ [("sk2", .text "14988~")] []] "k"
    [("\x00ж", Float.ofBits 0xc024000000000000), ("", Float.ofBits 0)] := by
  refine ⟨List.pairwise_pair.mpr (Or.inl (by decide)), ?_, ?_⟩
  · intro member x hx
    rcases hx with _ | ⟨_, _ | ⟨_, ⟨⟩⟩⟩
    · exact ⟨"14988~", rfl, rfl, rfl⟩
    · exact ⟨"2", rfl, rfl, rfl⟩
  · intro member value hwritten
    by_cases hempty : member = ""
    · exact ⟨Float.ofBits 0, hempty ▸ List.mem_cons_of_mem _ (List.mem_cons_self ..)⟩
    by_cases hnull : member = "\x00ж"
    · exact ⟨Float.ofBits 0xc024000000000000, hnull ▸ List.mem_cons_self ..⟩
    rw [lastWritten, if_neg (by simpa using Ne.symm hempty), lastWritten,
      if_neg (by simpa using Ne.symm hnull)] at hwritten
    cases hwritten

/-- The empty name and one that starts with a null character, on pages of one row: the empty name is
first whatever its score is, and is outside every bound from below; bounds the wrong way round have
nobody between them. -/
theorem name_reads_eq_listing_unusual :
    ∃ (settings : Settings) (journal : List Call) (table : Table),
      settings.pageSize = some 1 ∧
        ReachedBy settings .sphere (·.isSortedSet = true) journal table ∧
        Answered settings .sphere table (.rangeByName "k" "" "" (-1) 2 true)
          (.ok (.scores [("", Float.ofBits 0), ("\x00ж", Float.ofBits 0xc024000000000000)])) ∧
        Answered settings .sphere table (.rangeByName "k" "" "" 1 0 false)
          (.ok (.scores [("", Float.ofBits 0)])) ∧
        Answered settings .sphere table (.rangeByName "k" "\x00" "" 0 0 true)
          (.ok (.scores [("\x00ж", Float.ofBits 0xc024000000000000)])) ∧
        Answered settings .sphere table (.countByName "k" "ж" "\x00") (.ok (.count 0)) := by
  obtain ⟨ranking, listing, hranking, hperm, hsorted, hrange, hcount⟩ :=
    name_reads_eq_listing reachedBy_unusual "k"
  obtain rfl := hranking.unique isRanking_unusual
  have hlisting : listing =
      [("", Float.ofBits 0), ("\x00ж", Float.ofBits 0xc024000000000000)] :=
    List.Perm.eq_of_pairwise (fun _ _ _ _ hab hba => absurd hba (lt_asymm hab)) hsorted
      (List.pairwise_pair.mpr (by decide)) (hperm.trans (List.Perm.swap ..))
  subst hlisting
  exact ⟨_, _, _, rfl, reachedBy_unusual, hrange "" "" (-1) 2 true, hrange "" "" 1 0 false,
    hrange "\x00" "" 0 0 true, hcount "ж" "\x00"⟩

/-- A page of more rows than a word can count is refused, whether a budget asks for it, which a
negative offset does not make up for, or the page size does; and pages without rows show nobody. -/
theorem name_range_refused_beyond_word :
    (ReachedBy (Installation.mk "ranked" "").defaults .sphere (·.isSortedSet = true) [] {} ∧
      (-1 : ℤ) + 2 ^ 63 < 2 ^ 63 ∧
      Answered (Installation.mk "ranked" "").defaults .sphere {}
        (.rangeByName "k" "" "" (-1) (2 ^ 63) true) (.error .integerTooLarge)) ∧
    (∃ settings : Settings, settings.pageSize = some (2 ^ 63) ∧
      ReachedBy settings .sphere (·.isSortedSet = true) [] {} ∧
      Answered settings .sphere {} (.rangeByName "k" "" "" 0 0 true) (.error .integerTooLarge) ∧
      Answered settings .sphere {} (.countByName "k" "" "") (.error .integerTooLarge)) ∧
    ∃ (settings : Settings) (journal : List Call) (table : Table), settings.pageSize = some 0 ∧
      ReachedBy settings .sphere (·.isSortedSet = true) journal table ∧
      lastWritten ⟨"k", "a"⟩ settings.scoreName journal = some (.text "2") ∧
      Answered settings .sphere table (.rangeByName "k" "" "" 0 0 true) (.ok (.scores [])) ∧
      Answered settings .sphere table (.countByName "k" "" "") (.ok (.count 0)) := by
  refine ⟨⟨.empty, by decide, rfl⟩,
    ⟨{ (Installation.mk "ranked" "").defaults with pageSize := some (2 ^ 63) }, rfl, .empty, rfl,
      rfl⟩, _, _, _, rfl, reachedBy_tied (some 0), rfl, ?_, ?_⟩
  · have hscored := (reachedBy_tied (some 0)).eachScored
    have htable := (reachedBy_tied (some 0)).reached.clientTable
    exact answered_rangeByName htable hscored.scoresEncoded
      (hscored.allScored htable.mirrors.items "k") "" "" 0 0 true
  · exact answered_countByName (reachedBy_tied (some 0)).reached.clientTable "" ""

end RankedTable

import RankedTable.Proofs.SortedSet.NameReads

/-!
# Counts and listings of a collection

A collection is gone through by name or by score.  By name every item is seen, by score only those
that have one, and a listing by name fails at the first item without one.  So counts and listings
agree just where every item has a score.

* `run_rangeByName_all`, `run_rangeByName_unscored` — what a listing by name finds.
* `Answered` — a command is answered, and leaves the table alone.
* `Enumerated` — a collection has so many items, and these members by score.
* **`counts_and_listings`** — what is asked of a whole collection, in every table reached.
-/

namespace RankedTable

/-! ## Listings by name -/

/-- If not every item has a score, a row by name has none. -/
lemma exists_unscored {settings : Settings} {table : Table} {key : String}
    (h : Mirrors settings.layout table) (hscored : ¬AllScored settings table key) :
    ∃ row ∈ table.rows key none, row.item.get? settings.scoreName = none := by
  obtain ⟨item, hmem, hpartition, hnone⟩ : ∃ item ∈ table.items, item.key.partition = key ∧
      item.get? settings.scoreName = none := by
    simpa [AllScored] using hscored
  exact ⟨⟨item.key.member, item⟩, (Table.mem_rows_items h.items _).mpr
    ⟨hpartition, (Table.find?_eq_some_iff h.items item).mpr hmem, rfl⟩, hnone⟩

namespace SortedSet

variable {client : Client} {table : Table} {key : String}

section Client

variable (h : ClientTable client.settings table)
  (hscores : ScoresEncoded client.settings.scoreName table)

include h hscores

variable (hpages : table.pageBound ≤ client.maxPages)

include hpages

/-- **If every item has a score, a listing by name has the members of the ranking.** -/
theorem run_rangeByName_all (hscored : AllScored client.settings table key) (forward : Bool) :
    ∃ members, members.Perm (table.ranking client.settings key) ∧
      (rangeByName client key "" "" 0 0 forward).run client.settings.layout.store table =
        (Scan.paged client.settings.pageSize (.error .integerTooLarge) (.ok []) (.ok members),
          table) := by
  refine ⟨directed forward (table.listing client.settings key),
    (perm_directed forward _).trans (perm_listing h hscores hscored), ?_⟩
  rw [run_rangeByName_paged h hscores hscored hpages, betweenNames_unbounded,
    List.filter_eq_self.mpr fun _ _ => rfl]
  rfl

/-- **If an item has no score, a listing by name fails at the first such item**, with the members
before it. -/
theorem run_rangeByName_unscored (hscored : ¬AllScored client.settings table key)
    (forward : Bool) :
    ∃ front row back, namedRows table key forward = front ++ row :: back ∧
      row.item.get? client.settings.scoreName = none ∧
      (rangeByName client key "" "" 0 0 forward).run client.settings.layout.store table =
        (Scan.paged client.settings.pageSize (.error .integerTooLarge) (.ok [])
          (.error (.store (.noScore row.member key)
            (some (.scores (front.map fun r => scored client.settings r.item))))), table) := by
  have hmatching : table.matching (nameRange client key "" "" forward) (betweenNames "" "") =
      namedRows table key forward := by
    rw [matching_nameRange h, betweenNames_unbounded, List.filter_eq_self.mpr fun _ _ => rfl]
  obtain ⟨unscored, hrow, hnone⟩ := exists_unscored h.mirrors hscored
  obtain ⟨row, hfirst⟩ : ∃ row, (namedRows table key forward).find? (fun row =>
      (row.item.get? client.settings.scoreName).isNone) = some row :=
    Option.isSome_iff_exists.mp (List.find?_isSome.mpr
      ⟨unscored, mem_sortRows.mpr hrow, Option.isNone_iff_eq_none.mpr hnone⟩)
  obtain ⟨hunscored, front, back, hsplit, hfront⟩ := List.find?_eq_some_iff_append.mp hfirst
  have hunscored := Option.isNone_iff_eq_none.mp hunscored
  have hcollection : ∀ r ∈ namedRows table key forward,
      r.item.key.partition = key ∧ table.find? r.item.key = some r.item := fun r hr =>
    have hr := (Table.mem_rows_items h.mirrors.items r).mp (mem_sortRows.mp hr)
    ⟨hr.1, hr.2.1⟩
  have hdecode : ∀ i ∈ front.map Row.item,
      decodeMember client i = .ok (scored client.settings i) := by
    intro i hi
    obtain ⟨r, hr, rfl⟩ := List.mem_map.mp hi
    exact decodeMember_scored hscores (hcollection r (by simp [hsplit, hr])).2
      (by simpa using hfront r hr)
  have hfail : decodeMember client row.item = .error (.store (.noScore row.member key)) := by
    rw [decodeMember, hunscored, (hcollection row (by simp [hsplit])).1]
    rfl
  have hnames := names_matching h (nameRange client key "" "" forward) (betweenNames "" "")
  rw [hmatching, hsplit, List.map_append, List.map_append, Assoc.names, List.map_append] at hnames
  have hcollect : (rangeByName client key "" "" 0 0 forward).run client.settings.layout.store
      table = _ :=
    Scan.run_collect_failed h.mirrors (accepted_nameRange client key "" "" forward).index
      (fun test row hrow => h.readItem_ok hrow) hpages .scores
      (accepted_nameRange client key "" "" forward)
      (by rw [hmatching, hsplit, List.map_append]; rfl)
      hdecode hfail (List.Nodup.of_append_left hnames) rfl (lt_irrefl 0) rfl
  rw [Scan.firstLimit_eq rfl, List.map_map] at hcollect
  exact ⟨front, row, back, hsplit, hunscored, hcollect⟩

end Client

end SortedSet

/-! ## What clients are answered -/

section Reached

variable {settings : Settings} {geometry : Geometry} {journal : List Call} {table : Table}
  {key : String}

/-- A command is answered, and leaves the table as it was. -/
def Answered (settings : Settings) (geometry : Geometry) (table : Table) (command : Command)
    (result : Except Error Answer) : Prop :=
  (Connection.embedded settings.layout table).runCommand settings geometry command =
    (result, .embedded settings.layout table)

lemma answered_of_run {command : Command} {result : Except Error Answer}
    (hrun : (command.program ⟨settings, table.pageBound⟩ geometry).run settings.layout.store table =
      (result, table)) : Answered settings geometry table command result :=
  runCommand_of_run hrun

/-- A collection has so many items, whether they are counted as such or by name, and these members
by score. -/
structure Enumerated (settings : Settings) (geometry : Geometry) (table : Table) (key : String)
    (items : ℕ) (listing : Assoc Float) : Prop where
  cardinality : Answered settings geometry table (.cardinality key) (.ok (.count items))
  countByName : Answered settings geometry table (.countByName key "" "") (.ok (.count items))
  countByScore :
    Answered settings geometry table (.countByScore key none none) (.ok (.count listing.length))
  rangeByScore : ∀ forward, Answered settings geometry table
    (.rangeByScore key none none 0 0 forward) (.ok (.scores (directed forward listing)))

/-- Whether a listing by name has the members of a listing, in some order. -/
def ListsByName (settings : Settings) (geometry : Geometry) (table : Table) (key : String)
    (listing : Assoc Float) : Prop :=
  ∀ forward, ∃ members, members.Perm listing ∧
    Answered settings geometry table (.rangeByName key "" "" 0 0 forward) (.ok (.scores members))

/-- Whether a listing by name fails at an item that has no score. -/
def FailsByName (settings : Settings) (geometry : Geometry) (table : Table) (key : String) : Prop :=
  ∀ forward, ∃ member soFar, (table.find? ⟨key, member⟩).isSome ∧
    table.attribute? ⟨key, member⟩ settings.scoreName = none ∧
      Answered settings geometry table (.rangeByName key "" "" 0 0 forward)
        (.error (.store (.noScore member key) (some (.scores soFar))))

section Client

variable (h : ClientTable settings table) (hscores : ScoresEncoded settings.scoreName table)
  (hword : ∀ n, settings.pageSize = some n → fitsWord n = true) (geometry : Geometry)

include h hscores hword

/-- **What is counted are the items, and by score the members of the ranking**; pages without rows
show nothing. -/
theorem enumerated (key : String) :
    Enumerated settings geometry table key
      (if settings.pageSize = some 0 then 0 else (table.rows key none).length)
      (if settings.pageSize = some 0 then [] else table.ranking settings key) := by
  have htable : ClientTable (Client.mk settings table.pageBound).settings table := h
  have hall : ∀ l : Assoc Float, l.filter (fun e => within none none e.2) = l := fun l =>
    List.filter_eq_self.mpr fun _ _ => rfl
  have hcardinality : (SortedSet.cardinality ⟨settings, table.pageBound⟩ key).run
      settings.layout.store table = (.ok ((if settings.pageSize = some 0 then 0
        else (table.rows key none).length : ℕ) : ℤ), table) := by
    rw [SortedSet.run_cardinality_paged htable (Nat.le_refl _), Scan.paged_of_fitsWord hword]
    split_ifs <;> rfl
  refine ⟨answered_of_run (Program.run_map _ hcardinality),
    answered_of_run (Program.run_map _ hcardinality), answered_of_run (Program.run_map _ ?_),
    fun forward => answered_of_run (Program.run_map _ ?_)⟩
  · rw [SortedSet.run_countByScore_paged htable hscores (Nat.le_refl _) isBound_none isBound_none,
      Scan.paged_of_fitsWord hword, hall]
    split_ifs <;> rfl
  · have hlimit : Scan.budgetLimit 0 0 settings.pageSize = settings.pageSize := rfl
    rw [SortedSet.run_rangeByScore_paged htable hscores (Nat.le_refl _) isBound_none isBound_none,
      hlimit, Scan.paged_of_fitsWord hword, hall]
    split_ifs
    · cases forward <;> rfl
    · rfl

/-- **If every item has a score, a listing by name has the members of one by score.** -/
theorem listsByName (hscored : AllScored settings table key ∨ settings.pageSize = some 0) :
    ListsByName settings geometry table key
      (if settings.pageSize = some 0 then [] else table.ranking settings key) := by
  have htable : ClientTable (Client.mk settings table.pageBound).settings table := h
  intro forward
  by_cases hzero : settings.pageSize = some 0
  · rw [if_pos hzero]
    refine ⟨[], List.Perm.refl _, answered_of_run (Program.run_map _ ?_)⟩
    by_cases hall : AllScored settings table key
    · obtain ⟨members, -, hrun⟩ :=
        SortedSet.run_rangeByName_all htable hscores (Nat.le_refl _) hall forward
      rw [hrun, Scan.paged_of_fitsWord hword, if_pos hzero]
    · obtain ⟨front, row, back, -, -, hrun⟩ :=
        SortedSet.run_rangeByName_unscored htable hscores (Nat.le_refl _) hall forward
      rw [hrun, Scan.paged_of_fitsWord hword, if_pos hzero]
  · obtain ⟨members, hperm, hrun⟩ := SortedSet.run_rangeByName_all htable hscores (Nat.le_refl _)
      (hscored.resolve_right hzero) forward
    rw [if_neg hzero]
    refine ⟨members, hperm, answered_of_run (Program.run_map _ ?_)⟩
    rw [hrun, Scan.paged_of_fitsWord hword, if_neg hzero]

/-- **If an item has no score, a listing by name fails at one.** -/
theorem failsByName (hscored : ¬AllScored settings table key) (hzero : settings.pageSize ≠ some 0) :
    FailsByName settings geometry table key := by
  have htable : ClientTable (Client.mk settings table.pageBound).settings table := h
  intro forward
  obtain ⟨front, row, back, hsplit, hunscored, hrun⟩ :=
    SortedSet.run_rangeByName_unscored htable hscores (Nat.le_refl _) hscored forward
  have hmem : row ∈ SortedSet.namedRows table key forward := by simp [hsplit]
  obtain ⟨hkey, hitem, -⟩ := (Table.mem_rows_items h.mirrors.items row).mp (mem_sortRows.mp hmem)
  have hfound : table.find? ⟨key, row.member⟩ = some row.item := by
    rw [← hkey]
    exact hitem
  refine ⟨row.member, front.map fun r => scored settings r.item, by rw [hfound]; rfl, ?_,
    answered_of_run ?_⟩
  · rw [Table.attribute?, hfound]
    exact hunscored
  · rw [Command.program, ← bind_pure_comp, Program.run_bind, hrun, Scan.paged_of_fitsWord hword,
      if_neg hzero]

end Client

/-- An item without a score is no member of the ranking. -/
lemma length_ranking_lt (h : ClientTable settings table)
    (hscores : ScoresEncoded settings.scoreName table) (hscored : ¬AllScored settings table key) :
    (table.ranking settings key).length < (table.rows key none).length := by
  have htable : ClientTable (Client.mk settings table.pageBound).settings table := h
  obtain ⟨row, hrow, hnone⟩ := exists_unscored h.mirrors hscored
  rw [← (SortedSet.perm_ranking htable hscores key).length_eq, List.length_map]
  refine List.length_filter_lt_length_iff_exists.mpr ⟨row, hrow, ?_⟩
  rw [hnone]
  exact Bool.false_ne_true

/-- **Counts and listings of a collection agree just where every item has a score.**  In every table
reached, the items are counted alike as such and by name, the members alike by score and in the
listing by score; a listing by name has these members if every item has a score, and if not, there
are fewer members than items and it fails. -/
theorem counts_and_listings (h : Reached settings geometry journal table)
    (hnames : settings.scoreName ≠ settings.locationName)
    (hword : ∀ n, settings.pageSize = some n → fitsWord n = true) (key : String) :
    ∃ items listing, Enumerated settings geometry table key items listing ∧
      (settings.pageSize ≠ some 0 → items = (table.rows key none).length ∧
        IsRanking settings.scoreName journal key listing) ∧
      (AllScored settings table key ∨ settings.pageSize = some 0 →
        items = listing.length ∧ ListsByName settings geometry table key listing) ∧
      (¬AllScored settings table key → settings.pageSize ≠ some 0 →
        listing.length < items ∧ FailsByName settings geometry table key) := by
  have htable : ClientTable (Client.mk settings table.pageBound).settings table := h.clientTable
  have hscores := h.clientTable.score hnames
  refine ⟨_, _, enumerated h.clientTable hscores hword geometry key, ?_, ?_, ?_⟩
  · intro hzero
    rw [if_neg hzero, if_neg hzero]
    exact ⟨rfl, isRanking h hnames key⟩
  · intro hscored
    refine ⟨?_, listsByName h.clientTable hscores hword geometry hscored⟩
    by_cases hzero : settings.pageSize = some 0
    · rw [if_pos hzero, if_pos hzero]
      rfl
    · rw [if_neg hzero, if_neg hzero]
      exact SortedSet.length_items htable hscores (hscored.resolve_right hzero)
  · intro hscored hzero
    rw [if_neg hzero, if_neg hzero]
    exact ⟨length_ranking_lt h.clientTable hscores hscored,
      failsByName h.clientTable hscores hword geometry hscored hzero⟩

/-- Two members with scores, on pages of one row. -/
theorem counts_and_listings_added :
    ∃ (settings : Settings) (journal : List Call) (table : Table) (items : ℕ)
      (listing : Assoc Float),
      settings.pageSize = some 1 ∧ Reached settings .sphere journal table ∧
        Enumerated settings .sphere table "k" items listing ∧ items = 2 ∧ listing.length = 2 ∧
          ListsByName settings .sphere table "k" listing := by
  have hreached : Reached { (Installation.mk "ranked" "").defaults with pageSize := some 1 }
      .sphere _ _ :=
    .command .empty (.add "k" [("a", Float.ofBits 0), ("b", Float.ofBits 0xc024000000000000)] {})
      rfl
  obtain ⟨items, listing, henumerated, hitems, hagree, -⟩ :=
    counts_and_listings hreached (by decide) (by rintro n ⟨⟩; rfl) "k"
  obtain ⟨hlength, hlists⟩ := hagree <| .inl <| by
    -- both members were given a score
    intro item hitem _
    rcases hitem with _ | ⟨_, _ | ⟨_, hitem⟩⟩
    · rfl
    · rfl
    · cases hitem
  have htwo : items = 2 := (hitems (by decide)).1
  exact ⟨_, _, _, items, listing, rfl, hreached, henumerated, htwo, hlength ▸ htwo, hlists⟩

/-- A globe with a single cell. -/
def oneCell : Geometry where
  cellId _ := .ok 1
  centre _ := ⟨0, 0⟩
  covering _ _ _ := .ok [(0, 2)]
  distance _ _ := .ok 0

/-- A member that was only given a position is counted as an item and by name, but not by score,
and the listing by name fails at it.  A page of more rows than a word can count is refused. -/
theorem counts_disagree :
    (∃ journal table, Reached (Installation.mk "ranked" "").defaults oneCell journal table ∧
      Enumerated (Installation.mk "ranked" "").defaults oneCell table "k" 1 [] ∧
      FailsByName (Installation.mk "ranked" "").defaults oneCell table "k") ∧
    Reached { (Installation.mk "ranked" "").defaults with pageSize := some (2 ^ 63) } .sphere
        [] {} ∧
      ((Connection.embedded
          { (Installation.mk "ranked" "").defaults with pageSize := some (2 ^ 63) }.layout
          {}).runCommand
        { (Installation.mk "ranked" "").defaults with pageSize := some (2 ^ 63) } .sphere
        (.cardinality "k")).1 = .error .integerTooLarge := by
  refine ⟨?_, .empty, rfl⟩
  obtain ⟨journal, table, hreached, hone, hscored⟩ : ∃ journal table,
      Reached (Installation.mk "ranked" "").defaults oneCell journal table ∧
        (table.rows "k" none).length = 1 ∧
          ¬AllScored (Installation.mk "ranked" "").defaults table "k" := by
    refine ⟨_, _, .command .empty (.addLocations "k" [("a", ⟨0, 0⟩)]) rfl, rfl, fun hall => ?_⟩
    cases hall _ (List.mem_cons_self ..) rfl
  have htable := hreached.clientTable
  have hscores := htable.score (by decide)
  have hword : ∀ n, (Installation.mk "ranked" "").defaults.pageSize = some n →
      fitsWord n = true := by
    rintro n ⟨⟩
  have hlisting : table.ranking (Installation.mk "ranked" "").defaults "k" = [] := by
    have hlength := length_ranking_lt htable hscores hscored
    exact List.length_eq_zero_iff.mp (by omega)
  have henumerated := enumerated htable hscores hword oneCell "k"
  rw [if_neg (by decide), if_neg (by decide), hone, hlisting] at henumerated
  exact ⟨journal, table, hreached, henumerated,
    failsByName htable hscores hword oneCell hscored (by decide)⟩

end Reached

end RankedTable

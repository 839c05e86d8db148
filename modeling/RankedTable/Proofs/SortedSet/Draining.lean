import Mathlib.Data.List.SplitLengths
import RankedTable.Proofs.Command.Session
import RankedTable.Proofs.SortedSet.NameReads
import RankedTable.Proofs.SortedSet.Removal

/-!
# Pops and removals take what they select

A pop and a removal by bounds first fetch members and then delete them one by one.  With nobody else
writing, just those fetched are gone; and if the store fails one of the deletions, just those before
it are, while the failure tells all that were fetched.  What is left is ranked as before, so one pop
after the other drains a collection in order.

* `Takes` — a command takes some members of a collection.
* **`takes_of_fetch`** — a command that deletes what it fetches takes it.
* `isRanking_without` — what is left is ranked as before.
* `popped`, `Drains` — what pops are answered, one after the other; **`drains_ranking`**.
* **`removals_take_selected`** — pops take the first members, removals those within their bounds.
-/

namespace RankedTable

/-! ## Commands that take members -/

/-- A command takes some members of a collection: it removes these, and no others.  If the store
fails one of the deletions, those before it were made and no others, and the failure tells all the
members. -/
structure Takes (settings : Settings) (geometry : Geometry) (table : Table) (key : String)
    (command : Command) (members : Assoc Float) (answer : Answer) : Prop where
  answered : (Connection.embedded settings.layout table).runCommand settings geometry command =
    (.ok answer, .embedded settings.layout (table.without key members.names))
  failed : ∀ outage j fault soFar, DeletionFails outage j (.store fault soFar) → 1 ≤ j →
    j ≤ members.length →
    ∃ made, (command.program ⟨settings, table.pageBound⟩ geometry).run
        (settings.layout.store.failing outage) ([], table) =
      (.error (.store fault (some (.scores members))), made,
        table.without key (members.names.take (j - 1)))

variable {settings : Settings} {geometry : Geometry} {journal : List Call} {table : Table}
  {key : String}

/-- A command without members to take leaves the table alone. -/
lemma takes_none {command : Command} {answer : Answer}
    (hrun : (command.program ⟨settings, table.pageBound⟩ geometry).run settings.layout.store table =
      (.ok answer, table)) : Takes settings geometry table key command [] answer where
  answered := by
    rw [runCommand_of_run hrun, Assoc.names, List.map_nil, Table.without_nil]
  failed _ _ _ _ _ hfirst hlast := absurd (hfirst.trans hlast) (Nat.not_succ_le_zero 0)

/-- **A command that deletes what it fetches takes it.** -/
theorem takes_of_fetch (h : ClientTable settings table)
    (hscores : ScoresEncoded settings.scoreName table) {command : Command}
    (fetch : Program (Assoc Float)) (answer : Assoc Float → ℤ → Answer)
    (hprogram : command.program ⟨settings, table.pageBound⟩ geometry =
      fetch >>= fun found => answer found <$> SortedSet.removeFetched key found)
    (hreads : fetch.Calls (·.method = .query)) {members : Assoc Float}
    (hfetch : fetch.run settings.layout.store table = (.ok members, table))
    (hnodup : members.names.Nodup) (hmembers : ∀ e ∈ members, e ∈ table.ranking settings key) :
    Takes settings geometry table key command members (answer members members.length) := by
  have htable : ClientTable (Client.mk settings table.pageBound).settings table := h
  refine ⟨runCommand_of_run ?_, fun outage j fault soFar hfails hfirst hlast => ?_⟩
  · rw [hprogram, Program.run_bind, hfetch]
    exact Program.run_map _ (SortedSet.run_removeFetched htable hscores hnodup hmembers)
  · obtain ⟨read, hread, hfetched⟩ :=
      Program.run_failing_spared settings.layout.store hreads hfails.pages [] table
    obtain ⟨made, hrun⟩ := SortedSet.run_removeFetched_failed htable hscores hnodup hmembers hfails
      hfirst hlast (hread .delete (by decide))
    refine ⟨made, ?_⟩
    rw [hprogram, Program.run_bind, hfetched, hfetch]
    dsimp only
    rw [← bind_pure_comp, Program.run_bind, hrun]

/-! ## What is left -/

/-- What is left of a collection is ranked as before. -/
lemma isRanking_without (h : ClientTable settings table)
    (hscores : ScoresEncoded settings.scoreName table) {names : List String}
    (hleft : Reached settings geometry journal (table.without key names)) :
    IsRanking settings.scoreName journal key
      ((table.ranking settings key).filter fun e => e.1 ∉ names) := by
  have hwritten : ∀ member, member ∉ names →
      lastWritten ⟨key, member⟩ settings.scoreName journal =
        table.attribute? ⟨key, member⟩ settings.scoreName := by
    intro member hmember
    rw [← hleft.attribute?_eq, Table.attribute?_without, if_neg fun hgone => hmember hgone.2]
  refine ⟨(sorted_ranking h hscores).filter _, ?_, ?_⟩
  · intro member x hmem
    obtain ⟨hmem, hmember⟩ := List.mem_filter.mp hmem
    obtain ⟨t, hattribute, hdecode, hencode⟩ := (mem_ranking h hscores).mp hmem
    exact ⟨t, hencode, hdecode, (hwritten member (by simpa using hmember)).trans hattribute⟩
  · intro member value hvalue
    by_cases hmember : member ∈ names
    · rw [← hleft.attribute?_eq, Table.attribute?_without, if_pos ⟨rfl, hmember⟩] at hvalue
      cases hvalue
    · rw [hwritten member hmember] at hvalue
      obtain ⟨x, t, rfl, hx⟩ := hscores _ _ hvalue
      obtain ⟨y, hdecode, hencode⟩ := Score.encode_decode hx
      exact ⟨y, List.mem_filter.mpr ⟨(mem_ranking h hscores).mpr ⟨t, hvalue, hdecode, hencode⟩,
        by simpa using hmember⟩⟩

/-- What is left of a ranking are the others, in order. -/
lemma ranking_without (h : ClientTable settings table)
    (hscores : ScoresEncoded settings.scoreName table) {names : List String}
    (hleft : Reached settings geometry journal (table.without key names))
    (hscoresLeft : ScoresEncoded settings.scoreName (table.without key names)) :
    (table.without key names).ranking settings key =
      (table.ranking settings key).filter fun e => e.1 ∉ names :=
  (isRanking_of_scoresEncoded hleft hscoresLeft key).unique (isRanking_without h hscores hleft)

/-- Without the names of its first part, the second part of a mapping is left. -/
lemma filter_names_append {front back : Assoc Float}
    (h : (Assoc.names (front ++ back)).Nodup) :
    (front ++ back).filter (fun e => e.1 ∉ front.names) = back := by
  rw [Assoc.names, List.map_append] at h
  obtain ⟨-, -, hdisjoint⟩ := List.nodup_append.mp h
  have hfront : front.filter (fun e => e.1 ∉ front.names) = [] :=
    List.filter_eq_nil_iff.mpr fun e he hout =>
      of_decide_eq_true hout (List.mem_map_of_mem he)
  have hback : back.filter (fun e => e.1 ∉ front.names) = back :=
    List.filter_eq_self.mpr fun e he =>
      decide_eq_true fun hmem => hdisjoint _ hmem _ (List.mem_map_of_mem he) rfl
  rw [List.filter_append, hfront, hback, List.nil_append]

/-- Without the members at its front, the members behind them are left of a ranking. -/
lemma directed_filter_take {ranking : Assoc Float} (h : ranking.names.Nodup) (lowest : Bool)
    (n : ℕ) :
    directed lowest (ranking.filter fun e => e.1 ∉ Assoc.names ((directed lowest ranking).take n)) =
      (directed lowest ranking).drop n := by
  have hnames : (Assoc.names (directed lowest ranking)).Nodup :=
    ((perm_directed lowest ranking).map Prod.fst).nodup_iff.mpr h
  have hfilter : ∀ p : String × Float → Bool,
      directed lowest (ranking.filter p) = (directed lowest ranking).filter p := by
    intro p
    cases lowest with
    | true => rfl
    | false => exact List.filter_reverse.symm
  rw [hfilter]
  generalize directed lowest ranking = l at hnames ⊢
  have hsplit := @filter_names_append (l.take n) (l.drop n)
  rw [List.take_append_drop] at hsplit
  exact hsplit hnames

/-! ## What is taken -/

section Client

variable (h : ClientTable settings table) (hscores : ScoresEncoded settings.scoreName table)
  (geometry : Geometry) (key : String)

include h hscores

/-- **A pop takes the first members of the ranking**, from either end. -/
theorem takes_pop {count : ℤ} (lowest : Bool)
    (hlimit : 0 < count → IsPageLimit (Scan.budgetLimit 0 count settings.pageSize)) :
    Takes settings geometry table key (.pop key count lowest)
      ((directed lowest (table.ranking settings key)).take count.toNat)
      (.scores ((directed lowest (table.ranking settings key)).take count.toNat)) := by
  have htable : ClientTable (Client.mk settings table.pageBound).settings table := h
  by_cases hcount : count ≤ 0
  · rw [Int.toNat_of_nonpos hcount, List.take_zero]
    refine takes_none ?_
    rw [Command.program, SortedSet.pop, if_pos hcount]
    rfl
  · have hpositive := not_le.mp hcount
    have hfetch : (SortedSet.rangeByScore ⟨settings, table.pageBound⟩ key none none 0 count
        lowest).run settings.layout.store table =
          (.ok ((directed lowest (table.ranking settings key)).take count.toNat), table) := by
      have hall : ∀ l : Assoc Float, l.filter (fun e => within none none e.2) = l := fun l =>
        List.filter_eq_self.mpr fun _ _ => rfl
      rw [SortedSet.run_rangeByScore_served htable hscores (Nat.le_refl _) isBound_none isBound_none
        (hlimit hpositive), hall, Scan.window, if_pos hpositive]
      rfl
    obtain ⟨hnodup, hmembers⟩ :=
      SortedSet.ranked_of_rangeByScore htable hscores (Nat.le_refl _) hfetch
    refine takes_of_fetch h hscores _ (fun found _ => .scores found) ?_
      (SortedSet.calls_rangeByScore (fun _ => rfl) _ _ _ _ _ _) hfetch hnodup hmembers
    rw [Command.program, SortedSet.pop, if_neg hcount, map_bind]
    simp only [bind_pure_comp, Functor.map_map]

/-- On pages without rows a pop finds nobody. -/
lemma runCommand_pop_of_empty_pages (hsize : settings.pageSize = some 0) (count : ℤ)
    (lowest : Bool) :
    (Connection.embedded settings.layout table).runCommand settings geometry
        (.pop key count lowest) =
      (.ok (.scores []), .embedded settings.layout table) := by
  have htable : ClientTable (Client.mk settings table.pageBound).settings table := h
  refine runCommand_of_run (Program.run_map Answer.scores ?_)
  by_cases hcount : count ≤ 0
  · rw [SortedSet.pop, if_pos hcount]
    rfl
  · have hbudget : Scan.budgetLimit 0 count settings.pageSize = some 0 := by
      rw [Scan.budgetLimit, if_pos (not_le.mp hcount), hsize, tighter]
      exact congrArg some (min_eq_right (by omega))
    have hfetch : (SortedSet.rangeByScore ⟨settings, table.pageBound⟩ key none none 0 count
        lowest).run settings.layout.store table = (.ok [], table) := by
      rw [SortedSet.run_rangeByScore_paged htable hscores (Nat.le_refl _) isBound_none isBound_none,
        hbudget]
      rfl
    rw [SortedSet.pop, if_neg hcount, Program.run_bind, hfetch]
    rfl

variable (hlimit : IsPageLimit settings.pageSize)

include hlimit

/-- **A removal by score takes the members within its bounds.** -/
theorem takes_removeByScore {low high : Option Float} (hlow : IsBound low) (hhigh : IsBound high) :
    Takes settings geometry table key (.removeByScore key low high)
      ((table.ranking settings key).filter fun e => within low high e.2)
      (.count ((table.ranking settings key).filter fun e => within low high e.2).length) := by
  have htable : ClientTable (Client.mk settings table.pageBound).settings table := h
  have hfirst : IsPageLimit (Scan.budgetLimit 0 0 settings.pageSize) := hlimit
  have hfetch : (SortedSet.rangeByScore ⟨settings, table.pageBound⟩ key low high 0 0 true).run
      settings.layout.store table =
        (.ok ((table.ranking settings key).filter fun e => within low high e.2), table) :=
    SortedSet.run_rangeByScore_served htable hscores (Nat.le_refl _) hlow hhigh hfirst true
  obtain ⟨hnodup, hmembers⟩ :=
    SortedSet.ranked_of_rangeByScore htable hscores (Nat.le_refl _) hfetch
  refine takes_of_fetch h hscores _ (fun _ n => .count n) ?_
    (SortedSet.calls_rangeByScore (fun _ => rfl) _ _ _ _ _ _) hfetch hnodup hmembers
  rw [Command.program, SortedSet.removeByScore, map_bind]

/-- **A removal by name takes the members within its bounds**, by ascending name. -/
theorem takes_removeByName (hscored : AllScored settings table key) (low high : String) :
    Takes settings geometry table key (.removeByName key low high)
      ((table.listing settings key).filter fun e => betweenNames low high e.1)
      (.count ((table.listing settings key).filter fun e => betweenNames low high e.1).length) := by
  have htable : ClientTable (Client.mk settings table.pageBound).settings table := h
  have hfirst : IsPageLimit (Scan.budgetLimit 0 0 settings.pageSize) := hlimit
  have hfetch : (SortedSet.rangeByName ⟨settings, table.pageBound⟩ key low high 0 0 true).run
      settings.layout.store table =
        (.ok ((table.listing settings key).filter fun e => betweenNames low high e.1), table) :=
    SortedSet.run_rangeByName htable hscores hscored (Nat.le_refl _) low high hfirst true
  have hperm := SortedSet.perm_listing htable hscores hscored
  have hnames : (Assoc.names (table.listing settings key)).Nodup :=
    (hperm.map Prod.fst).nodup_iff.mpr (names_ranking h.mirrors key)
  refine takes_of_fetch h hscores (SortedSet.rangeByName _ key low high 0 0 true)
    (fun _ n => .count n) ?_ (SortedSet.calls_fetch (fun _ => rfl) _ _ _) hfetch
    (hnames.sublist (List.filter_sublist.map Prod.fst))
    fun e he => hperm.subset (List.mem_filter.mp he).1
  rw [Command.program, SortedSet.removeByName, map_bind]

end Client

/-! ## One pop after the other -/

/-- Page sizes that leave the pages of a pop some room; negative ones do not limit a page. -/
def LeavesRoom (pageSize : Option ℤ) : Prop :=
  ∀ n, pageSize = some n → n ≠ 0 ∧ -2 ^ 63 ≤ n

lemma LeavesRoom.isPageLimit {pageSize : Option ℤ} (h : LeavesRoom pageSize) {count : ℤ}
    (hpositive : 0 < count) (hword : count < 2 ^ 63) :
    IsPageLimit (Scan.budgetLimit 0 count pageSize) := by
  rw [Scan.budgetLimit, if_pos hpositive, max_self, zero_add]
  cases pageSize with
  | none => exact Scan.isPageLimit_of_lt hpositive hword
  | some n =>
      obtain ⟨hzero, hleast⟩ := h n rfl
      exact ⟨by omega, Scan.fitsWord_iff.mpr (by omega)⟩

/-- What pops of some sizes are answered, one after the other: the pieces of an order. -/
def popped (counts : List ℤ) (order : Assoc Float) : List (Assoc Float) :=
  (counts.map Int.toNat).splitLengths order

/-- Pops of some sizes, one after the other, are answered the pieces of an order, and take them and
no others. -/
def Drains (settings : Settings) (geometry : Geometry) (table : Table) (key : String)
    (lowest : Bool) (counts : List ℤ) (order : Assoc Float) : Prop :=
  (Connection.embedded settings.layout table).session settings geometry
      (counts.map (.pop key · lowest)) =
    ((counts.zip (popped counts order)).map fun e => (.pop key e.1 lowest, .ok (.scores e.2)),
      .embedded settings.layout (table.without key (Assoc.names (popped counts order).flatten)))

lemma popped_cons (count : ℤ) (counts : List ℤ) (order : Assoc Float) :
    popped (count :: counts) order =
      order.take count.toNat :: popped counts (order.drop count.toNat) :=
  List.splitLengths_cons order _ _

/-- The pieces make up the front of the order: nothing is lost, and nothing comes twice. -/
lemma flatten_popped (counts : List ℤ) (order : Assoc Float) :
    (popped counts order).flatten = order.take (counts.map Int.toNat).sum := by
  induction counts generalizing order with
  | nil => exact (List.take_zero).symm
  | cons count rest ih =>
      rw [popped_cons, List.flatten_cons, ih, List.map_cons, List.sum_cons, List.take_add]

/-- **Pops drain a collection in order**, from either end. -/
theorem drains_ranking (h : ReachedBy settings geometry (·.isSortedSet = true) journal table)
    (hsize : LeavesRoom settings.pageSize) (key : String) (lowest : Bool) {counts : List ℤ}
    (hcounts : ∀ count ∈ counts, count < 2 ^ 63) :
    Drains settings geometry table key lowest counts
      (directed lowest (table.ranking settings key)) := by
  induction counts generalizing journal table with
  | nil =>
      change _ = ([], Connection.embedded settings.layout (table.without key []))
      rw [Table.without_nil]
      rfl
  | cons count rest ih =>
      have htable := h.reached.clientTable
      have hscores := h.eachScored.scoresEncoded
      have hword := hcounts count (List.mem_cons_self ..)
      have hpop := takes_pop htable hscores geometry key lowest
        fun hpositive => hsize.isPageLimit hpositive hword
      obtain ⟨journal', hnext⟩ := h.runCommand rfl hpop.answered
      have hrest := ih hnext fun count hcount => hcounts count (List.mem_cons_of_mem _ hcount)
      rw [Drains, ranking_without htable hscores hnext.reached hnext.eachScored.scoresEncoded,
        directed_filter_take (names_ranking htable.mirrors key), Table.without_append, Assoc.names,
        Assoc.names, ← List.map_append] at hrest
      rw [Drains, List.map_cons, Connection.session, hpop.answered, popped_cons,
        List.zip_cons_cons, List.map_cons, List.flatten_cons]
      dsimp only
      rw [Assoc.names, hrest]
      rfl

/-! ## What clients are answered -/

/-- **Pops and removals take exactly the members they select**, also one pop after the other: a pop
the first of the order by score, a removal those within its bounds. -/
theorem removals_take_selected
    (h : ReachedBy settings geometry (·.isSortedSet = true) journal table)
    (hsize : LeavesRoom settings.pageSize) (key : String) :
    ∃ ranking, IsRanking settings.scoreName journal key ranking ∧
      (∀ count lowest, count < 2 ^ 63 →
        Takes settings geometry table key (.pop key count lowest)
          ((directed lowest ranking).take count.toNat)
          (.scores ((directed lowest ranking).take count.toNat))) ∧
      (∀ counts lowest, (∀ count ∈ counts, count < 2 ^ 63) →
        Drains settings geometry table key lowest counts (directed lowest ranking) ∧
          (popped counts (directed lowest ranking)).flatten =
            (directed lowest ranking).take (counts.map Int.toNat).sum) ∧
      ((∀ n, settings.pageSize = some n → n < 2 ^ 63) →
        (∀ low high, IsBound low → IsBound high →
          Takes settings geometry table key (.removeByScore key low high)
            (ranking.filter fun e => within low high e.2)
            (.count (ranking.filter fun e => within low high e.2).length)) ∧
        ∃ listing : Assoc Float, listing.Perm ranking ∧ listing.Pairwise (fun a b => a.1 < b.1) ∧
          ∀ low high, Takes settings geometry table key (.removeByName key low high)
            (listing.filter fun e => betweenNames low high e.1)
            (.count (listing.filter fun e => betweenNames low high e.1).length)) := by
  have htable := h.reached.clientTable
  have hclient : ClientTable (Client.mk settings table.pageBound).settings table := htable
  have hscores := h.eachScored.scoresEncoded
  have hscored := h.eachScored.allScored htable.mirrors.items key
  refine ⟨table.ranking settings key, isRanking_of_scoresEncoded h.reached hscores key,
    fun count lowest hword => takes_pop htable hscores geometry key lowest
      fun hpositive => hsize.isPageLimit hpositive hword,
    fun counts lowest hcounts => ⟨drains_ranking h hsize key lowest hcounts, flatten_popped _ _⟩,
    fun hpages => ?_⟩
  have hlimit : IsPageLimit settings.pageSize := by
    cases hcap : settings.pageSize with
    | none => trivial
    | some n =>
        obtain ⟨hzero, hleast⟩ := hsize n hcap
        exact ⟨hzero, Scan.fitsWord_iff.mpr ⟨hleast, hpages n hcap⟩⟩
  exact ⟨fun low high hlow hhigh =>
      takes_removeByScore htable hscores geometry key hlimit hlow hhigh,
    table.listing settings key, SortedSet.perm_listing hclient hscores hscored,
    SortedSet.sorted_listing hclient key,
    takes_removeByName htable hscores geometry key hlimit hscored⟩

/-- Two members with the same score, on pages of one row: the second is popped first from the end,
two pops drain the collection, and if the second deletion of a removal fails, the first was made. -/
theorem removals_take_selected_tied :
    ∃ (settings : Settings) (journal : List Call) (table : Table) (a b : String × Float),
      settings.pageSize = some 1 ∧
        ReachedBy settings .sphere (·.isSortedSet = true) journal table ∧
        IsRanking settings.scoreName journal "k" [a, b] ∧
        Takes settings .sphere table "k" (.pop "k" 1 false) [b] (.scores [b]) ∧
        Drains settings .sphere table "k" true [1, 1] [a, b] ∧
        ∃ outage made, DeletionFails outage 2 (.store .unavailable) ∧
          ((Command.removeByScore "k" none none).program ⟨settings, table.pageBound⟩ .sphere).run
              (settings.layout.store.failing outage) ([], table) =
            (.error (.store .unavailable (some (.scores [a, b]))), made,
              table.without "k" [a.1]) := by
  obtain ⟨ranking, hranking, hpop, hdrain, hremoval⟩ := removals_take_selected
    (reachedBy_tied (some 1)) (fun n hn => Option.some_inj.mp hn ▸ by decide) "k"
  obtain rfl := hranking.unique isRanking_tied
  have houtage : DeletionFails (fun method n => if method = .delete ∧ n = 2 then
      some (.store .unavailable) else none) 2 (.store .unavailable) :=
    ⟨fun n => if_neg (by simp), fun n hn => if_neg (by omega), if_pos ⟨rfl, rfl⟩⟩
  have htakes := (hremoval fun n hn => Option.some_inj.mp hn ▸ by decide).1 none none isBound_none
    isBound_none
  obtain ⟨made, hrun⟩ := htakes.failed _ 2 .unavailable none houtage (by decide) (by decide)
  exact ⟨_, _, _, _, _, rfl, reachedBy_tied _, isRanking_tied, hpop 1 false (by decide),
    (hdrain [1, 1] true (by decide)).1, _, made, houtage, hrun⟩

/-- On pages without rows a pop finds nobody; pages of more rows than a word can count are refused,
and so are bounds that are no numbers. -/
theorem removals_need_pages :
    (∃ (settings : Settings) (journal : List Call) (table : Table) (a b : String × Float),
      settings.pageSize = some 0 ∧
        ReachedBy settings .sphere (·.isSortedSet = true) journal table ∧
        IsRanking settings.scoreName journal "k" [a, b] ∧
        (Connection.embedded settings.layout table).runCommand settings .sphere (.pop "k" 1 true) =
          (.ok (.scores []), .embedded settings.layout table)) ∧
    (∃ settings : Settings, settings.pageSize = some (2 ^ 63) ∧
        ReachedBy settings .sphere (·.isSortedSet = true) [] {} ∧
        ((Connection.embedded settings.layout {}).runCommand settings .sphere
          (.removeByScore "k" none none)).1 = .error .integerTooLarge ∧
        ((Connection.embedded settings.layout {}).runCommand settings .sphere
          (.removeByName "k" "" "")).1 = .error .integerTooLarge) ∧
    ∃ settings : Settings, ReachedBy settings .sphere (·.isSortedSet = true) [] {} ∧
      ((Connection.embedded settings.layout {}).runCommand settings .sphere
        (.removeByScore "k" (some (Float.ofBits 0x7ff8000000000000)) none)).1 =
          .error (.score .notANumber) := by
  have h := reachedBy_tied (some 0)
  exact ⟨⟨_, _, _, _, _, rfl, h, isRanking_tied, runCommand_pop_of_empty_pages
      h.reached.clientTable h.eachScored.scoresEncoded .sphere "k" rfl 1 true⟩,
    ⟨{ (Installation.mk "ranked" "").defaults with pageSize := some (2 ^ 63) }, rfl,
      .empty, rfl, rfl⟩, (Installation.mk "ranked" "").defaults, .empty, rfl⟩

end RankedTable

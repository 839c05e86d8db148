import RankedTable.Proofs.Geo.Search
import RankedTable.Proofs.Store.Failure

/-!
# Searches that end early

A search that wants some matches only asks for smaller pages and stops within them; one whose store
fails stops at the page that failed.  Either way it has gone through the front of what a search for
all matches goes through, and so it found the first of the matches.

* `Disc.BrokenOff` — a search that has found the first matches when a page fails.
* **`endsOn_searchIntervals`** — whichever page fails, a search breaks off.
* `FirstMatches` — what limited and failing searches find of all matches.
* **`first_matches`** — in every table reached, searches that end early find the first matches.
-/

namespace RankedTable

open Scan (IsPageSize PageFits)

namespace GeoIndex

variable {client : Client} {geometry : Geometry} {table : Table} {key : String} {disc : Disc}
  {metres : ℤ → Float}

/-- How a search ends if a page fails: with the failure, and with the first of all matches, as
many as were found before. -/
def Disc.BrokenOff (disc : Disc) (all : Assoc Location) (e : Error)
    (result : Except Error (Assoc Location)) : Prop :=
  ∃ soFar, soFar <+: all ∧ (0 < disc.count → soFar.length ≤ disc.count) ∧
    result = .error (e.withSoFar (.locations soFar))

section Client

variable (h : ClientTable client.settings table) (hwhole : WholeOrText table)
  (hdistance : ∀ cell, geometry.distance disc.centre (geometry.centre cell) = .ok (metres cell))
  (hpages : table.pageBound ≤ client.maxPages)

include h hwhole hdistance hpages

/-- If a page of an interval fails, what was found before it is a part of what the interval has. -/
lemma endsOn_cellScan {interval : ℕ × ℕ} (hwords : interval.1 < 2 ^ 64 ∧ interval.2 < 2 ^ 64)
    {found : Assoc Location} (hmore : disc.satisfied found = false) (pageSize : Option ℤ)
    (hnames : (found ++ searchedIn geometry (disc.reaches metres)
      (table.placing client.settings key) interval).names.Nodup) :
    Program.EndsOnFailure client.settings.layout.store
      (fun e result => ∃ soFar, soFar <+: found ++ searchedIn geometry (disc.reaches metres)
          (table.placing client.settings key) interval ∧
        (0 < disc.count → soFar.length ≤ disc.count) ∧ result = .ok (soFar, some e))
      ((cellScan client key interval pageSize).fold (disc.visit client geometry) found) table := by
  obtain ⟨test, items, hbounds, hitems, hvisit, hhits⟩ :=
    cellScan_items h hwhole hdistance hwords key pageSize
  rw [← hhits] at hnames ⊢
  refine (Scan.endsOn_fold h.mirrors
    (mem_indexed_of_eq rfl (locationName_indexed client.settings))
    (fun test row hrow => h.readItem_ok hrow) hpages rfl hbounds found).imp ?_
  rintro e result ⟨front, seen, soFar, hfront, hpage, rfl⟩
  rw [hitems] at hfront
  have hpart : found ++ front.filterMap (hit client.settings geometry (disc.reaches metres)) <+:
      found ++ items.filterMap (hit client.settings geometry (disc.reaches metres)) :=
    (List.prefix_append_right_inj found).mpr (hfront.filterMap _)
  rw [visitPage_hits rfl (lt_irrefl 0) (fun item hitem => hvisit item (hfront.subset hitem))
    (hnames.sublist (hpart.sublist.map Prod.fst)) hmore] at hpage
  split_ifs at hpage with henough
  obtain ⟨-, rfl⟩ := Scan.Progress.more.inj hpage
  exact ⟨_, hpart, fun hcount => (Disc.length_lt (by simpa using henough) hcount).le, rfl⟩

/-- **Whichever page fails, a search breaks off** with the first matches. -/
theorem endsOn_searchIntervals (hsize : IsPageSize client.settings.pageSize)
    {intervals : List (ℕ × ℕ)}
    (hwords : ∀ interval ∈ intervals, interval.1 < 2 ^ 64 ∧ interval.2 < 2 ^ 64)
    {found : Assoc Location} (hmore : disc.satisfied found = false)
    (hnames : (found ++ searched geometry (disc.reaches metres)
      (table.placing client.settings key) intervals).names.Nodup) :
    Program.EndsOnFailure client.settings.layout.store
      (disc.BrokenOff (found ++ searched geometry (disc.reaches metres)
        (table.placing client.settings key) intervals))
      (searchIntervals client geometry key disc found intervals) table := by
  induction intervals generalizing found with
  | nil => trivial
  | cons interval rest ih =>
      rw [append_searched_cons] at hnames ⊢
      have hword := hwords interval (List.mem_cons_self ..)
      have hinterval := hnames.sublist ((List.sublist_append_left _ _).map Prod.fst)
      rw [searchIntervals]
      refine (endsOn_cellScan h hwhole hdistance hpages hword hmore _ hinterval).bind ?_ ?_
      · rintro e result ⟨soFar, hpart, hlength, rfl⟩
        exact ⟨_, rfl, soFar, hpart.trans (List.prefix_append _ _), hlength, rfl⟩
      · rintro ⟨next, failure⟩ s' hrun
        have hwanted := Disc.isPageSize_wanted hmore
        rcases Scan.isPageLimit_or (tighter _ client.settings.pageSize) with
          hserved | hzero | ⟨n, hn, hrefused⟩
        · rw [run_cellScan h hwhole hdistance hpages hword hmore hserved hinterval] at hrun
          obtain ⟨hresult, rfl⟩ := Prod.mk.inj hrun
          obtain ⟨rfl, rfl⟩ := Prod.mk.inj (Except.ok.inj hresult)
          cases henough : disc.satisfied (found ++ searchedIn geometry (disc.reaches metres)
              (table.placing client.settings key) interval) with
          | true =>
              dsimp only
              rw [if_pos (Disc.satisfied_window henough)]
              trivial
          | false =>
              rw [Disc.window_unsatisfied henough]
              dsimp only
              rw [henough, if_neg Bool.false_ne_true]
              exact ih (fun i hi => hwords i (List.mem_cons_of_mem _ hi)) henough hnames
        · exact absurd (hwanted.tighter hsize 0 hzero) (by decide)
        · rw [run_cellScan_refused h hpages hword hn hrefused] at hrun
          obtain ⟨hresult, rfl⟩ := Prod.mk.inj hrun
          obtain ⟨rfl, rfl⟩ := Prod.mk.inj (Except.ok.inj hresult)
          trivial

end Client

/-- **Whichever page fails, the search of a disc breaks off** with the first of all matches. -/
theorem endsOn_radius {client : Client} {journal : List Call}
    (h : Reached client.settings geometry journal table)
    (hpages : table.pageBound ≤ client.maxPages) (hsize : IsPageSize client.settings.pageSize)
    (disc : Disc) (hradius : ¬disc.radius < 0) {intervals : List (ℕ × ℕ)}
    (hcovering : geometry.covering disc.centre (disc.unit.toMeters disc.radius)
      client.settings.maxCells = .ok intervals) (hintervals : IsCovering intervals)
    (hdistance : ∀ cell, geometry.distance disc.centre (geometry.centre cell) = .ok (metres cell))
    (key : String) :
    Program.EndsOnFailure client.settings.layout.store
      (disc.BrokenOff (searched geometry (disc.reaches metres)
        (table.placing client.settings key) intervals))
      (radius client geometry key disc) table := by
  rw [radius, if_neg hradius, hcovering]
  exact endsOn_searchIntervals h.clientTable h.wholeOrText hdistance hpages hsize hintervals.words
    disc.satisfied_nil (names_searched (isPlacing h key) hintervals geometry _)

end GeoIndex

/-! ## What clients are answered -/

/-- What searches that end early find of all matches: if so many are wanted, the first ones; and if
the store fails one of its pages, the first ones, which the failure takes along, and the table is
left as it was. -/
structure FirstMatches (settings : Settings) (geometry : Geometry) (table : Table) (key : String)
    (disc : GeoIndex.Disc) (all : Assoc Location) : Prop where
  limited : ∀ count, 0 < count → count < 2 ^ 63 →
    Answered settings geometry table (.radius key { disc with count := count })
      (.ok (.locations (all.take count.toNat)))
  failed : ∀ count outage, ∃ result made,
    ((Command.radius key { disc with count := count }).program ⟨settings, table.pageBound⟩
        geometry).run (settings.layout.store.failing outage) ([], table) = (result, made, table) ∧
      ∀ k e, 1 ≤ k → k ≤ callCount .query made → outage .query k = some e → e.OfStore →
        ∃ soFar, soFar <+: all ∧ (0 < count → soFar.length ≤ count) ∧
          result = .error (e.withSoFar (.locations soFar)) ∧
          (e.withSoFar (.locations soFar)).soFar? = some (.locations soFar)

section Reached

variable {settings : Settings} {geometry : Geometry} {journal : List Call} {table : Table}
  (h : Reached settings geometry journal table) (hsize : IsPageSize settings.pageSize)
  (disc : GeoIndex.Disc) (hradius : ¬disc.radius < 0) {intervals : List (ℕ × ℕ)}
  (hcovering : geometry.covering disc.centre (disc.unit.toMeters disc.radius) settings.maxCells =
    .ok intervals) (hintervals : IsCovering intervals) {metres : ℤ → Float}
  (hdistance : ∀ cell, geometry.distance disc.centre (geometry.centre cell) = .ok (metres cell))

include h hsize hradius hcovering hintervals hdistance

/-- Limited searches find the first of what the intervals have, and failing ones break off. -/
lemma firstMatches_searched (key : String) :
    FirstMatches settings geometry table key disc (GeoIndex.searched geometry
      (disc.reaches metres) (table.placing settings key) intervals) := by
  have hclient : Reached (Client.mk settings table.pageBound).settings geometry journal table := h
  constructor
  · intro count hcount hword
    have hrun := GeoIndex.run_radius hclient (Nat.le_refl _) { disc with count := count }
      (fun _ => GeoIndex.isServed_limited hcount hword hsize) hradius hcovering hintervals hdistance
      key
    rw [Scan.window, if_pos hcount, List.drop_zero] at hrun
    exact answered_of_run (Program.run_map _ hrun)
  · intro count outage
    have hends := GeoIndex.endsOn_radius hclient (Nat.le_refl _) hsize
      { disc with count := count } hradius hcovering hintervals hdistance key
    have hcalls : (GeoIndex.radius ⟨settings, table.pageBound⟩ geometry key
        { disc with count := count }).Calls (·.method = .query) :=
      GeoIndex.calls_radius (fun _ => rfl) _ _
    have htable := Program.run_failing_queries settings.layout hcalls outage [] table
    obtain ⟨result, made, s', hrun, -, hfails⟩ := Program.run_failing_ends hcalls hends outage []
    rw [hrun] at htable
    obtain rfl : s' = table := htable
    refine ⟨_, made, Program.run_map_result _ hrun, fun k e hk hmade he hstore => ?_⟩
    obtain ⟨soFar, hpart, hlength, rfl⟩ := hfails k e hk hmade he
    exact ⟨soFar, hpart, hlength, rfl, hstore.soFar?_withSoFar _⟩

/-- What a search for all matches is answered, if it is not refused, is what the intervals have. -/
lemma eq_searched_of_answered {key : String} {count : ℤ} (hcount : count ≤ 0)
    {all : Assoc Location} (hanswered : Answered settings geometry table
      (.radius key { disc with count := count }) (.ok (.locations all))) :
    all = GeoIndex.searched geometry (disc.reaches metres) (table.placing settings key)
      intervals := by
  have hclient : Reached (Client.mk settings table.pageBound).settings geometry journal table := h
  have hunique : ∀ {result}, Answered settings geometry table
      (.radius key { disc with count := count }) result → .ok (.locations all) = result :=
    fun hother => (Prod.mk.inj (hanswered.symm.trans hother)).1
  have hserved : intervals ≠ [] →
      ({ disc with count := count } : GeoIndex.Disc).IsServed settings.pageSize := by
    intro hne
    by_cases hfits : PageFits settings.pageSize 0 0
    · exact GeoIndex.isServed_unlimited hcount hsize hfits
    · obtain ⟨n, hn, hlarge⟩ : ∃ n, tighter none settings.pageSize = some n ∧ 2 ^ 63 ≤ n := by
        simpa [PageFits] using hfits
      obtain ⟨interval, rest, rfl⟩ := List.exists_cons_of_ne_nil hne
      have hword : fitsWord n = false := by
        rw [← Bool.not_eq_true, Scan.fitsWord_iff]
        omega
      cases hunique (answered_radius_refused h.clientTable { disc with count := count } hcount
        hradius (hintervals.words _ (List.mem_cons_self ..)) hcovering hn hword)
  have hrun := GeoIndex.run_radius hclient (Nat.le_refl _) { disc with count := count } hserved
    hradius hcovering hintervals hdistance key
  rw [Scan.window, if_neg (not_lt.mpr hcount), List.drop_zero] at hrun
  have hsame := hunique (answered_of_run (Program.run_map Answer.locations hrun))
  exact Answer.locations.inj (Except.ok.inj hsame)

/-- **Searches that end early find the first of all matches**, in every table reached: limited ones
as many as are wanted, failing ones those found before. -/
theorem first_matches (key : String) :
    (PageFits settings.pageSize 0 0 → ∃ all, ∀ count ≤ 0, Answered settings geometry table
      (.radius key { disc with count := count }) (.ok (.locations all))) ∧
    ∀ all, (∃ count ≤ 0, Answered settings geometry table
        (.radius key { disc with count := count }) (.ok (.locations all))) →
      FirstMatches settings geometry table key disc all := by
  refine ⟨fun hfits => ⟨GeoIndex.searched geometry (disc.reaches metres)
      (table.placing settings key) intervals, fun count hcount =>
    answered_radius h hsize hfits key { disc with count := count } hcount hradius hcovering
      hintervals hdistance⟩, ?_⟩
  rintro all ⟨count, hcount, hanswered⟩
  rw [eq_searched_of_answered h hsize disc hradius hcovering hintervals hdistance hcount hanswered]
  exact firstMatches_searched h hsize disc hradius hcovering hintervals hdistance key

end Reached

/-- Of three matches two are wanted, on pages of one row. -/
theorem first_matches_numbered :
    ∃ (settings : Settings) (journal : List Call) (table : Table) (disc : GeoIndex.Disc)
        (a b c : Location),
      settings.pageSize = some 1 ∧ Reached settings numberedCells journal table ∧
        Answered settings numberedCells table (.radius "k" disc)
          (.ok (.locations [("b", b), ("c", c), ("a", a)])) ∧
        Answered settings numberedCells table (.radius "k" { disc with count := 2 })
          (.ok (.locations [("b", b), ("c", c)])) ∧
        FirstMatches settings numberedCells table "k" disc [("b", b), ("c", c), ("a", a)] := by
  have hreached := reached_numbered (some 1)
  have hsize : IsPageSize (some 1) := fun n hn => Option.some_inj.mp hn ▸ by decide
  have hfits : PageFits (some 1) 0 0 := fun n hn => Option.some_inj.mp hn ▸ by decide
  have hanswered := answered_radius hreached hsize hfits "k"
    ⟨⟨Float.ofBits 0, Float.ofBits 0⟩, Float.ofBits 70, .meters, 0⟩ (by decide) (by decide) rfl
    isCovering_numbered (distance_numbered _)
  have hall : GeoIndex.searched numberedCells
      (GeoIndex.Disc.reaches ⟨⟨Float.ofBits 0, Float.ofBits 0⟩, Float.ofBits 70, .meters, 0⟩
        fun cell => Float.ofBits cell.toNat.toUInt64)
      [(9, "a"), (10, "b"), (60, "c")] [(10, 70), (2, 9)] =
        [("b", numberedCells.centre 10), ("c", numberedCells.centre 60),
          ("a", numberedCells.centre 9)] := by
    rfl
  rw [(isPlacing hreached "k").unique isPlacing_numbered, hall] at hanswered
  obtain ⟨-, hfirst⟩ := first_matches hreached hsize
    ⟨⟨Float.ofBits 0, Float.ofBits 0⟩, Float.ofBits 70, .meters, 0⟩ (by decide) rfl
    isCovering_numbered (distance_numbered _) "k"
  have hmatches := hfirst _ ⟨0, Int.le_refl 0, hanswered⟩
  exact ⟨_, _, _, _, _, _, _, rfl, hreached, hanswered, hmatches.limited 2 (by decide) (by decide),
    hmatches⟩

end RankedTable

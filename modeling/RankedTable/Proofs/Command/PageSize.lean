import RankedTable.Proofs.Command.Alike
import RankedTable.Proofs.Command.Session
import RankedTable.Proofs.SortedSet.ScoreReads
import RankedTable.Proofs.Store.Pass

/-!
# Page sizes cannot be told apart

How many rows a page has decides how often a scan calls the store, and nothing else.  So two clients
whose tables differ in the page size alone get the same answers and leave the same table, as long as
no page is asked for with a number that a word cannot hold.

* `IsCap` — the page sizes that let scans get on; a negative one is no cap.
* `Command.budgets` — what a command asks its scans to skip and to take.
* `program_pageSize` — the programs of commands do not know the page size.
* `SameEnd` — runs on one table under two page sizes end alike.
* `sameEnd_fold`, `sameEnd_count` — scans do, however many pages they read.
* **`sameEnd_program`** — so do commands.
* **`page_size_unobservable`** — so do whole sessions.
-/

namespace RankedTable

open Program (Alike Still)

/-! ## Page sizes and budgets -/

/-- A page size that is missing, or not zero and less than `2 ^ 63` in absolute value. -/
def IsCap (pageSize : Option ℤ) : Prop :=
  ∀ n, pageSize = some n → n ≠ 0 ∧ |n| < 2 ^ 63

/-- What a range of positions asks to skip and to take.  Where the first position counts from the
end and the last one does not, the two add up to the same, however many items there are. -/
def SortedSet.rankBudgets (start stop : ℤ) : List (ℤ × ℤ) :=
  if start < 0 ∧ stop < 0 then [(-stop - 1, stop - start + 1)]
  else if stop < 0 then [(-stop - 1, 1)]
  else if start < 0 then [(0, stop + 1)]
  else [(start, stop - start + 1)]

/-- What a command asks its scans to skip and to take, where it asks for that. -/
def Command.budgets : Command → List (ℤ × ℤ)
  | rangeByScore _ _ _ offset count _ => [(offset, count)]
  | rangeByName _ _ _ offset count _ => [(offset, count)]
  | rangeByRank _ start stop _ => SortedSet.rankBudgets start stop
  | removeByRank _ start stop => SortedSet.rankBudgets start stop
  | pop _ count _ => [(0, count)]
  | radius _ disc => [(0, disc.count)]
  | radiusByMember _ _ _ _ count => [(0, count)]
  | _ => []

/-- Whether what is skipped and taken, if something is, can be counted in a word. -/
def Countable (offset count : ℤ) : Prop :=
  0 < count → max offset 0 + count < 2 ^ 63

/-- A limit of at least one row, under a page size that lets scans get on, lets them get on. -/
lemma IsCap.isPageLimit {limit pageSize : Option ℤ} (h : IsCap pageSize)
    (hlimit : ∀ n, limit = some n → 1 ≤ n ∧ n < 2 ^ 63) : IsPageLimit (tighter limit pageSize) := by
  have hsize : ∀ n, pageSize = some n → n ≠ 0 ∧ -2 ^ 63 ≤ n ∧ n < 2 ^ 63 := by
    intro n hn
    obtain ⟨hzero, habs⟩ := h n hn
    rw [abs_lt] at habs
    exact ⟨hzero, by omega, by omega⟩
  cases limit with
  | none =>
      cases pageSize with
      | none => trivial
      | some size => exact ⟨(hsize size rfl).1, Scan.fitsWord_iff.mpr (hsize size rfl).2⟩
  | some n =>
      have hn := hlimit n rfl
      cases pageSize with
      | none => exact Scan.isPageLimit_of_lt hn.1 hn.2
      | some size =>
          have := hsize size rfl
          exact ⟨by omega, Scan.fitsWord_iff.mpr (by omega)⟩

/-! ## Programs -/

section Programs

variable (settings : Settings) (pageSize : Option ℤ) (maxPages : ℕ)

lemma incrementWithin_pageSize (key member : String) (delta : Float) (attempts : ℕ) :
    SortedSet.incrementWithin ⟨{ settings with pageSize := pageSize }, maxPages⟩ key member delta
        attempts =
      SortedSet.incrementWithin ⟨settings, maxPages⟩ key member delta attempts := by
  induction attempts with
  | zero => rfl
  | succ attempts ih =>
      rw [SortedSet.incrementWithin, SortedSet.incrementWithin, ih]
      rfl

variable (geometry : Geometry)

lemma positionsAfter_pageSize (key : String) (found : Assoc Location) (members : List String) :
    GeoIndex.positionsAfter ⟨{ settings with pageSize := pageSize }, maxPages⟩ geometry key found
        members =
      GeoIndex.positionsAfter ⟨settings, maxPages⟩ geometry key found members := by
  induction members generalizing found with
  | nil => rfl
  | cons member rest ih =>
      rw [GeoIndex.positionsAfter, GeoIndex.positionsAfter]
      refine congrArg (Program.bind _) (funext fun item => ?_)
      cases item with
      | none => exact ih found
      | some item =>
          refine congrArg (Program.bind _) (funext fun location => ?_)
          cases location with
          | none => exact ih found
          | some location => exact ih _

lemma searchIntervals_pageSize (key : String) (disc : GeoIndex.Disc) (found : Assoc Location)
    (intervals : List (ℕ × ℕ)) :
    GeoIndex.searchIntervals ⟨{ settings with pageSize := pageSize }, maxPages⟩ geometry key disc
        found intervals =
      GeoIndex.searchIntervals ⟨settings, maxPages⟩ geometry key disc found intervals := by
  induction intervals generalizing found with
  | nil => rfl
  | cons interval rest ih =>
      rw [GeoIndex.searchIntervals, GeoIndex.searchIntervals]
      simp only [ih]
      rfl

/-- **The programs of commands do not know the page size.** -/
theorem program_pageSize (command : Command) :
    command.program ⟨{ settings with pageSize := pageSize }, maxPages⟩ geometry =
      command.program ⟨settings, maxPages⟩ geometry := by
  have hpositions := positionsAfter_pageSize settings pageSize maxPages geometry
  have hradius : ∀ key disc,
      GeoIndex.radius ⟨{ settings with pageSize := pageSize }, maxPages⟩ geometry key disc =
        GeoIndex.radius ⟨settings, maxPages⟩ geometry key disc := by
    intro key disc
    simp only [GeoIndex.radius, searchIntervals_pageSize]
  cases command with
  | increment key member delta =>
      simp only [Command.program, SortedSet.increment, incrementWithin_pageSize]
  | positions key members => simp only [Command.program, GeoIndex.positions, hpositions]
  | distance key first second unit =>
      simp only [Command.program, GeoIndex.distance, GeoIndex.positions, hpositions]
  | geohashes key members =>
      simp only [Command.program, GeoIndex.geohashes, GeoIndex.positions, hpositions]
  | radius key disc => simp only [Command.program, hradius]
  | radiusByMember key member limit unit count =>
      simp only [Command.program, GeoIndex.radiusByMember, GeoIndex.positions, hpositions, hradius]
  | _ => rfl

end Programs

/-! ## Calls and scans -/

section Calls

variable (layout : Layout) (pageSize : Option ℤ)

lemma check_pageSize (key : ItemKey) (current : Option Attributes) (conditions : List Condition) :
    Layout.check { layout with pageSize := pageSize } key current conditions =
      layout.check key current conditions := by
  induction conditions with
  | nil => rfl
  | cons condition rest ih =>
      rw [Layout.check, Layout.check, ih]
      rfl

lemma writeIndex_pageSize (key : ItemKey) (table : Table) (updates : Attributes) :
    Layout.writeIndex { layout with pageSize := pageSize } key table updates =
      layout.writeIndex key table updates := by
  induction updates generalizing table with
  | nil => rfl
  | cons update rest ih =>
      obtain ⟨name, value⟩ := update
      rw [Layout.writeIndex, Layout.writeIndex]
      simp only [ih]

/-- Only queries look at the page size. -/
lemma store_pageSize {c : Call} (hc : c.method ≠ .query) (table : Table) :
    Layout.store { layout with pageSize := pageSize } c table = layout.store c table := by
  cases c with
  | get key names => rfl
  | query request => exact absurd rfl hc
  | update key updates conditions =>
      simp only [Layout.store, Layout.update, check_pageSize, writeIndex_pageSize]
  | delete key conditions => simp only [Layout.store, Layout.delete, check_pageSize]

end Calls

/-- A table of two clients that differ in the page size alone, with a bound on the pages of scans
that it cannot exceed. -/
structure Shared (settings : Settings) (first second : Option ℤ) (maxPages : ℕ) (table : Table) :
    Prop where
  one : ClientTable { settings with pageSize := first } table
  other : ClientTable { settings with pageSize := second } table
  pages : table.pageBound ≤ maxPages
  oneCap : IsCap first
  otherCap : IsCap second

/-- Runs on a table under two page sizes end with the same result, in tables that stand in a
relation. -/
def SameEnd {α : Type} (settings : Settings) (first second : Option ℤ)
    (R : Table → Table → Prop) (p : Program α) (table : Table) : Prop :=
  Alike (Layout.store { settings.layout with pageSize := first })
    (Layout.store { settings.layout with pageSize := second }) R p p table table

section Scans

variable {settings : Settings} {first second : Option ℤ} {maxPages : ℕ} {table : Table}

lemma sameEnd_of_calls {α : Type} {p : Program α} (hp : Program.Calls (·.method ≠ .query) p) :
    SameEnd settings first second Eq p table := by
  refine Program.alike_of_calls hp ?_ rfl
  rintro c s t hc rfl
  rw [store_pageSize settings.layout first hc, store_pageSize settings.layout second hc]
  exact ⟨rfl, rfl⟩

lemma sameEnd_of_gets {α : Type} {p : Program α} (hp : Program.Calls (·.method = .get) p) :
    SameEnd settings first second (Still table table) p table := by
  refine Program.alike_of_calls hp ?_ ⟨rfl, rfl⟩
  rintro c s t hc ⟨rfl, rfl⟩
  have hquery : c.method ≠ .query := by rw [hc]; decide
  rw [store_pageSize settings.layout first hquery, store_pageSize settings.layout second hquery]
  cases c with
  | get key names => exact ⟨rfl, rfl, rfl⟩
  | _ => cases hc

variable (h : Shared settings first second maxPages table) {scan : Scan}
  (hmax : scan.maxPages = maxPages)
  (hindex : ∀ subject, scan.request.index = some subject → subject ∈ settings.indexed)

include h hmax hindex

/-- **Folds end alike**, as long as they ask for one row at least and for no more than a word can
count. -/
lemma sameEnd_fold {β : Type} {visit : β → Item → Except Error (Scan.Visit β)}
    (hitems : scan.request.selectCount = false)
    (hlimit : ∀ n, (scan.pageRequest 0 none).limit = some n → 1 ≤ n ∧ n < 2 ^ 63) (acc : β) :
    SameEnd settings first second (Still table table) (scan.fold visit acc) table := by
  have hpages : table.pageBound ≤ scan.maxPages := by rw [hmax]; exact h.pages
  have hrun : ∀ {pageSize : Option ℤ}, ClientTable { settings with pageSize := pageSize } table →
      IsCap pageSize → (scan.fold visit acc).run
        (Layout.store { settings.layout with pageSize := pageSize }) table =
          (.ok (scan.pass none table visit acc), table) := by
    intro pageSize htable hcap
    have hpass : (scan.fold visit acc).run _ table = _ :=
      Scan.run_fold_pass htable.mirrors hindex
        (fun test row hrow => htable.readItem_ok hrow) hpages hitems acc
    have hserved : IsPageLimit
        (scan.firstLimit ({ settings with pageSize := pageSize } : Settings).layout) :=
      hcap.isPageLimit hlimit
    refine hpass.trans ?_
    rw [Scan.pass, Scan.pass]
    cases scan.request.bounds with
    | error e => rfl
    | ok test =>
        dsimp only
        rw [Scan.paged_of_isPageLimit hserved]
        rfl
  exact Program.alike_of_run (hrun h.one h.oneCap) (hrun h.other h.otherCap) ⟨rfl, rfl⟩

/-- **Counts end alike.** -/
lemma sameEnd_count (hsize : scan.pageSize = none) :
    SameEnd settings first second (Still table table) scan.count table := by
  have hpages : table.pageBound ≤ scan.maxPages := by rw [hmax]; exact h.pages
  have hrun : ∀ {pageSize : Option ℤ}, ClientTable { settings with pageSize := pageSize } table →
      IsCap pageSize → scan.count.run
        (Layout.store { settings.layout with pageSize := pageSize }) table =
          (scan.tally none table, table) := by
    intro pageSize htable hcap
    have htally := Scan.run_count_tally htable.mirrors hindex
      (fun test row hrow => htable.readItem_ok hrow) hpages
    have hserved : IsPageLimit
        (tighter none ({ settings with pageSize := pageSize } : Settings).layout.pageSize) :=
      hcap.isPageLimit fun n hn => by cases hn
    refine htally.trans ?_
    rw [Scan.tally, Scan.tally, hsize]
    cases scan.request.bounds with
    | error e => rfl
    | ok test =>
        dsimp only
        rw [Scan.paged_of_isPageLimit hserved]
        rfl
  exact Program.alike_of_run (hrun h.one h.oneCap) (hrun h.other h.otherCap) ⟨rfl, rfl⟩

end Scans

/-! ## Sorted sets -/

section SortedSets

variable {settings : Settings} {first second : Option ℤ} {maxPages : ℕ} {table : Table}
  (h : Shared settings first second maxPages table)

include h

lemma sameEnd_cardinality (key : String) :
    SameEnd settings first second (Still table table)
      (SortedSet.cardinality ⟨settings, maxPages⟩ key) table :=
  sameEnd_count h rfl (fun _ hindex => by cases hindex) rfl

lemma sameEnd_countByName (key low high : String) :
    SameEnd settings first second (Still table table)
      (SortedSet.countByName ⟨settings, maxPages⟩ key low high) table :=
  sameEnd_count h rfl (fun _ hindex => by cases hindex) rfl

lemma sameEnd_countByScore (key : String) (low high : Option Float) :
    SameEnd settings first second (Still table table)
      (SortedSet.countByScore ⟨settings, maxPages⟩ key low high) table := by
  refine SortedSet.alike_countByScore rfl fun request hrequest => ?_
  exact sameEnd_count h rfl
    (mem_indexed_of_eq (SortedSet.scoreRange_index hrequest).1 (List.mem_cons_self ..)) rfl

/-- What is fetched does not depend on the page size, if its budget can be counted. -/
lemma sameEnd_fetch {request : QueryRequest} {offset count : ℤ}
    (hindex : ∀ subject, request.index = some subject → subject ∈ settings.indexed)
    (hitems : request.selectCount = false) (hcount : Countable offset count) :
    SameEnd settings first second (Still table table)
      (SortedSet.fetch ⟨settings, maxPages⟩ request offset count) table := by
  refine SortedSet.alike_fetch (sameEnd_fold h rfl hindex hitems (fun n hn => ?_) [])
  rw [Scan.pageRequest] at hn
  dsimp only at hn
  split_ifs at hn with hpos
  have hword := hcount hpos
  have hsum := Option.some_inj.mp hn
  rw [Scan.skip] at hsum
  dsimp only at hsum
  omega

lemma sameEnd_rangeByScore (key : String) (low high : Option Float) {offset count : ℤ}
    (hcount : Countable offset count) (forward : Bool) :
    SameEnd settings first second (Still table table)
      (SortedSet.rangeByScore ⟨settings, maxPages⟩ key low high offset count forward) table := by
  refine SortedSet.alike_rangeByScore rfl fun request hrequest => ?_
  obtain ⟨hindex, hitems⟩ := SortedSet.scoreRange_index hrequest
  exact sameEnd_fetch h (mem_indexed_of_eq hindex (List.mem_cons_self ..)) hitems hcount

lemma sameEnd_rangeByName (key low high : String) {offset count : ℤ}
    (hcount : Countable offset count) (forward : Bool) :
    SameEnd settings first second (Still table table)
      (SortedSet.rangeByName ⟨settings, maxPages⟩ key low high offset count forward) table :=
  sameEnd_fetch h (fun _ hindex => by cases hindex) rfl hcount

omit h in
lemma countable_zero (offset : ℤ) : Countable offset 0 :=
  fun hpos => absurd hpos (lt_irrefl 0)

lemma sameEnd_rangeFrom (key : String) {start stop : ℤ}
    (hneg : start < 0 → stop < 0 → Countable (-stop - 1) (stop - start + 1))
    (hedge : stop < 0 → 0 ≤ start → Countable (-stop - 1) 1)
    (hnonneg : 0 ≤ stop → Countable start (stop - start + 1)) (forward : Bool) :
    SameEnd settings first second (Still table table)
      (SortedSet.rangeFrom ⟨settings, maxPages⟩ key start stop forward) table :=
  SortedSet.alike_rangeFrom
    (fun low high _ _ forward hcount => sameEnd_rangeByScore h key low high hcount forward)
    hneg hedge (countable_zero start) hnonneg forward

lemma sameEnd_rangeByRank (key : String) {start stop : ℤ}
    (hcount : ∀ b ∈ SortedSet.rankBudgets start stop, Countable b.1 b.2) (forward : Bool) :
    SameEnd settings first second (Still table table)
      (SortedSet.rangeByRank ⟨settings, maxPages⟩ key start stop forward) table := by
  rw [SortedSet.rangeByRank]
  by_cases hmixed : start < 0 ∧ 0 ≤ stop
  · rw [if_pos hmixed]
    have hword : Countable 0 (stop + 1) := by
      refine hcount (0, stop + 1) ?_
      rw [SortedSet.rankBudgets, if_neg (by omega), if_neg (by omega), if_pos hmixed.1]
      exact List.mem_singleton_self _
    refine (sameEnd_cardinality h key).still_bind ⟨rfl, rfl⟩ fun n => ?_
    refine sameEnd_rangeFrom h key (by omega) (by omega) (fun _ hpos => ?_) forward
    have := hword (by omega)
    omega
  · rw [if_neg hmixed]
    refine sameEnd_rangeFrom h key ?_ ?_ ?_ forward
    · intro hstart hstop
      refine hcount (-stop - 1, stop - start + 1) ?_
      rw [SortedSet.rankBudgets, if_pos ⟨hstart, hstop⟩]
      exact List.mem_singleton_self _
    · intro hstop hstart
      refine hcount (-stop - 1, 1) ?_
      rw [SortedSet.rankBudgets, if_neg (by omega), if_pos hstop]
      exact List.mem_singleton_self _
    · intro hstop
      refine hcount (start, stop - start + 1) ?_
      rw [SortedSet.rankBudgets, if_neg (by omega), if_neg (by omega), if_neg (by omega)]
      exact List.mem_singleton_self _

omit h in
/-- What is read is removed alike. -/
lemma sameEnd_removal {read : Program (Assoc Float)} (key : String)
    (hread : SameEnd settings first second (Still table table) read table) :
    SameEnd settings first second Eq (do SortedSet.removeFetched key (← read)) table :=
  hread.still_bind rfl fun members => sameEnd_of_calls
    (SortedSet.calls_removeFetched (fun _ hc => by cases hc) members)

lemma sameEnd_rank (key member : String) (forward : Bool) :
    SameEnd settings first second (Still table table)
      (SortedSet.rank ⟨settings, maxPages⟩ key member forward) table :=
  SortedSet.alike_rank (sameEnd_of_gets (SortedSet.calls_score (fun _ => rfl) key member))
    (sameEnd_countByScore h key) forward

lemma sameEnd_pop (key : String) {count : ℤ} (hcount : Countable 0 count) (lowest : Bool) :
    SameEnd settings first second Eq (SortedSet.pop ⟨settings, maxPages⟩ key count lowest)
      table :=
  SortedSet.alike_pop rfl (sameEnd_rangeByScore h key none none hcount lowest) fun members _ =>
    sameEnd_of_calls (SortedSet.calls_removeFetched (fun _ hc => by cases hc) members)

end SortedSets

/-! ## Geo indexes -/

section GeoIndexes

variable {settings : Settings} {first second : Option ℤ} {maxPages : ℕ} {table : Table}
  (geometry : Geometry)

lemma sameEnd_positions (key : String) (members : List String) :
    SameEnd settings first second (Still table table)
      (GeoIndex.positions ⟨settings, maxPages⟩ geometry key members) table :=
  sameEnd_of_gets (GeoIndex.calls_positionsAfter (fun _ => rfl) key [] members)

variable (h : Shared settings first second maxPages table)

include h

lemma sameEnd_radius (key : String) {disc : GeoIndex.Disc} (hcount : Countable 0 disc.count) :
    SameEnd settings first second (Still table table)
      (GeoIndex.radius ⟨settings, maxPages⟩ geometry key disc) table := by
  refine GeoIndex.alike_radius (fun interval found hfound => ?_) rfl
  refine sameEnd_fold h rfl ?_ rfl ?_ found
  · rintro subject ⟨⟩
    exact List.mem_cons_of_mem _ (List.mem_cons_self ..)
  · intro n hn
    change (if 0 < disc.count then some (disc.count - found.length) else none) = some n at hn
    split_ifs at hn with hpos
    have hsum := Option.some_inj.mp hn
    have hword := hcount hpos
    rw [GeoIndex.Disc.satisfied, Bool.and_eq_false_iff, decide_eq_false_iff_not,
      decide_eq_false_iff_not] at hfound
    omega

end GeoIndexes

/-! ## Commands -/

section Commands

variable {settings : Settings} {first second : Option ℤ} {maxPages : ℕ} {table : Table}

/-- **A command ends alike under two page sizes**, if its budgets can be counted. -/
theorem sameEnd_program (h : Shared settings first second maxPages table) (geometry : Geometry)
    {command : Command} (hbudgets : ∀ b ∈ command.budgets, Countable b.1 b.2) :
    SameEnd settings first second Eq (command.program ⟨settings, maxPages⟩ geometry) table := by
  have hget : ∀ key names, (Call.get key names).method = .get := fun _ _ => rfl
  have hupdate : ∀ key updates conditions, (Call.update key updates conditions).method ≠ .query :=
    fun _ _ _ hc => by cases hc
  have hdelete : ∀ key, (Call.delete key [.itemPresent]).method ≠ .query :=
    fun _ hc => by cases hc
  cases command with
  | add key members flags =>
      exact (sameEnd_of_calls (SortedSet.calls_add (fun _ _ _ _ => hupdate _ _ _) _)).map _
  | score key member =>
      refine (sameEnd_of_gets (SortedSet.calls_score (fun _ => hget _ _) key member)).still_bind rfl
        fun ⟨x, found⟩ => Program.alike_done _ rfl
  | cardinality key => exact ((sameEnd_cardinality h key).still rfl).map _
  | countByScore key low high => exact ((sameEnd_countByScore h key low high).still rfl).map _
  | countByName key low high => exact ((sameEnd_countByName h key low high).still rfl).map _
  | increment key member delta =>
      exact (sameEnd_of_calls (SortedSet.calls_increment (fun _ hc => by cases hc)
        (fun _ _ _ _ _ _ => hupdate _ _ _) _ _ _)).map _
  | rank key member forward =>
      exact (sameEnd_rank h key member forward).still_bind rfl fun ⟨n, found⟩ =>
        Program.alike_done _ rfl
  | rangeByRank key start stop forward =>
      exact ((sameEnd_rangeByRank h key hbudgets forward).still rfl).map _
  | rangeByScore key low high offset count forward =>
      exact ((sameEnd_rangeByScore h key low high (hbudgets _ (List.mem_singleton_self _))
        forward).still rfl).map _
  | rangeByName key low high offset count forward =>
      exact ((sameEnd_rangeByName h key low high (hbudgets _ (List.mem_singleton_self _))
        forward).still rfl).map _
  | remove key members => exact (sameEnd_of_calls (SortedSet.calls_remove (fun _ => hdelete _) _)).map _
  | removeByScore key low high =>
      exact (sameEnd_removal key
        (sameEnd_rangeByScore h key low high (countable_zero 0) true)).map _
  | removeByName key low high =>
      exact (sameEnd_removal key (sameEnd_rangeByName h key low high (countable_zero 0) true)).map _
  | removeByRank key start stop =>
      exact (sameEnd_removal key (sameEnd_rangeByRank h key hbudgets true)).map _
  | pop key count lowest =>
      exact (sameEnd_pop h key (hbudgets _ (List.mem_singleton_self _)) lowest).map _
  | combine how => exact Program.alike_done _ rfl
  | addLocations key members =>
      exact (sameEnd_of_calls (GeoIndex.calls_add (fun _ _ => hupdate _ _ _) _ _)).map _
  | positions key members => exact ((sameEnd_positions geometry key members).still rfl).map _
  | distance key first second unit =>
      exact (GeoIndex.alike_distance (sameEnd_positions geometry key [first, second])
        unit).still_bind rfl fun ⟨x, found⟩ => Program.alike_done _ rfl
  | geohashes key members =>
      exact ((GeoIndex.alike_geohashes (sameEnd_positions geometry key members)
        rfl).still rfl).map _
  | radius key disc =>
      exact ((sameEnd_radius geometry h key
        (hbudgets _ (List.mem_singleton_self _))).still rfl).map _
  | radiusByMember key member limit unit count =>
      exact ((GeoIndex.alike_radiusByMember (sameEnd_positions geometry key [member]) fun centre =>
        sameEnd_radius geometry h key (hbudgets _ (List.mem_singleton_self _))).still rfl).map _

end Commands

/-! ## Sessions -/

section Sessions

variable {settings : Settings} {geometry : Geometry} {first second : Option ℤ}

/-- A command has the same answer under both page sizes, and leaves the same table. -/
lemma run_pageSize (hfirst : IsCap first) (hsecond : IsCap second) {table : Table}
    (hone : ClientTable { settings with pageSize := first } table)
    (hother : ClientTable { settings with pageSize := second } table) {command : Command}
    (hbudgets : ∀ b ∈ command.budgets, Countable b.1 b.2) :
    ∃ answer after, ∀ pageSize, pageSize = first ∨ pageSize = second →
      (command.program ⟨{ settings with pageSize := pageSize }, table.pageBound⟩ geometry).run
          ({ settings with pageSize := pageSize } : Settings).layout.store table =
        (answer, after) := by
  obtain ⟨answer, after, hone, hother⟩ := (sameEnd_program
    ⟨hone, hother, Nat.le_refl _, hfirst, hsecond⟩ geometry hbudgets).exists_run
  refine ⟨answer, after, ?_⟩
  rintro pageSize (rfl | rfl)
  · rw [program_pageSize]
    exact hone
  · rw [program_pageSize]
    exact hother

/-- From any table of theirs on, two clients get the same answers and leave the same table. -/
theorem session_pageSize (hfirst : IsCap first) (hsecond : IsCap second) {commands : List Command}
    (hbudgets : ∀ command ∈ commands, ∀ b ∈ command.budgets, Countable b.1 b.2) {table : Table}
    (hone : ClientTable { settings with pageSize := first } table)
    (hother : ClientTable { settings with pageSize := second } table) :
    ∃ transcript after, ∀ pageSize, pageSize = first ∨ pageSize = second →
      (Connection.embedded ({ settings with pageSize := pageSize } : Settings).layout table).session
          { settings with pageSize := pageSize } geometry commands =
        (transcript, .embedded ({ settings with pageSize := pageSize } : Settings).layout after) := by
  induction commands generalizing table with
  | nil => exact ⟨[], table, fun _ _ => rfl⟩
  | cons command rest ih =>
      obtain ⟨answer, next, hrun⟩ := run_pageSize hfirst hsecond hone hother
        (hbudgets command (List.mem_cons_self ..))
      have hone' := hone.run command table.pageBound geometry
      have hother' := hother.run command table.pageBound geometry
      rw [hrun first (.inl rfl)] at hone'
      rw [hrun second (.inr rfl)] at hother'
      obtain ⟨transcript, after, hrest⟩ :=
        ih (fun c hc => hbudgets c (List.mem_cons_of_mem _ hc)) hone' hother'
      refine ⟨(command, answer) :: transcript, after, fun pageSize hsize => ?_⟩
      rw [session_cons rest (hrun pageSize hsize), hrest pageSize hsize]

/-- **Page sizes cannot be told apart.**  Two sessions of the same commands that start with an empty
table and differ in the page size alone have the same answers and leave the same items and the same
index, if no command asks its scans to skip and to take more than a word can count. -/
theorem page_size_unobservable (settings : Settings) (geometry : Geometry)
    {first second : Option ℤ} (hfirst : IsCap first) (hsecond : IsCap second)
    {commands : List Command}
    (hbudgets : ∀ command ∈ commands, ∀ b ∈ command.budgets, Countable b.1 b.2) :
    ∃ transcript table,
      (Connection.embedded ({ settings with pageSize := first } : Settings).layout {}).session
          { settings with pageSize := first } geometry commands =
        (transcript, .embedded ({ settings with pageSize := first } : Settings).layout table) ∧
      (Connection.embedded ({ settings with pageSize := second } : Settings).layout {}).session
          { settings with pageSize := second } geometry commands =
        (transcript, .embedded ({ settings with pageSize := second } : Settings).layout table) := by
  obtain ⟨transcript, table, hsession⟩ :=
    @session_pageSize settings geometry _ _ hfirst hsecond _ hbudgets {} clientTable_empty
      clientTable_empty
  exact ⟨transcript, table, hsession first (.inl rfl), hsession second (.inr rfl)⟩

/-- A client whose pages have one row. -/
abbrev singleRows : Settings :=
  { (Installation.mk "ranked" "").defaults with pageSize := some 1 }

/-- Pages of one row and pages without a cap, over a session that skips, pops and removes. -/
theorem page_size_unobservable_single :
    ∃ transcript table,
      (Connection.embedded (Installation.mk "ranked" "").defaults.layout {}).session
          (Installation.mk "ranked" "").defaults .sphere
          [.add "k" [("a", Float.ofBits 0), ("b", Float.ofBits 0xc024000000000000)] {},
            .rangeByScore "k" none none 1 5 false, .pop "k" 1 true, .removeByRank "k" (-2) 0] =
        (transcript, .embedded (Installation.mk "ranked" "").defaults.layout table) ∧
      (Connection.embedded singleRows.layout {}).session singleRows .sphere
          [.add "k" [("a", Float.ofBits 0), ("b", Float.ofBits 0xc024000000000000)] {},
            .rangeByScore "k" none none 1 5 false, .pop "k" 1 true, .removeByRank "k" (-2) 0] =
        (transcript, .embedded singleRows.layout table) := by
  refine page_size_unobservable (Installation.mk "ranked" "").defaults .sphere ?_ ?_ ?_
  · rintro n ⟨⟩
  · rintro n ⟨⟩
    decide
  · simp [Command.budgets, SortedSet.rankBudgets, Countable]

/-- A negative number to skip counts as none, so that it does not make up for what is taken: without
a cap, the page is more than a word can count. -/
theorem page_size_observed_beyond_word :
    IsCap none ∧ IsCap singleRows.pageSize ∧
      (∀ b ∈ (Command.rangeByScore "k" none none (-1) (2 ^ 63) true).budgets,
        b.1 + b.2 < 2 ^ 63) ∧
      ((Connection.embedded (Installation.mk "ranked" "").defaults.layout {}).session
        (Installation.mk "ranked" "").defaults .sphere
        [.rangeByScore "k" none none (-1) (2 ^ 63) true]).1.map Prod.snd =
          [.error .integerTooLarge] ∧
      ((Connection.embedded singleRows.layout {}).session singleRows .sphere
        [.rangeByScore "k" none none (-1) (2 ^ 63) true]).1.map Prod.snd = [.ok (.scores [])] := by
  have hempty : ({} : Table).ranking singleRows "k" = [] := by
    simp [Table.ranking, Table.rows, sortRows]
  have htable : ClientTable (Client.mk singleRows ({} : Table).pageBound).settings {} :=
    clientTable_empty
  have hfits : Scan.PageFits (some 1) (-1) (2 ^ 63) := fun n hn => by
    rw [← Option.some_inj.mp hn]
    decide
  have hrun := @SortedSet.run_rangeByScore _ _ "k" none none htable (htable.score (by decide))
    (Nat.le_refl _) (fun n hn => (Option.some_inj.mp hn).le) isBound_none isBound_none _ _ hfits true
  refine ⟨?_, ?_, ?_, rfl, ?_⟩
  · rintro n ⟨⟩
  · rintro n ⟨⟩
    decide
  · simp [Command.budgets]
  · rw [session_cons [] (Program.run_map _ hrun), hempty]
    rfl

end Sessions

end RankedTable

import Mathlib.Data.List.Flatten
import RankedTable.Proofs.Geo.Placing
import RankedTable.Proofs.SortedSet.Listings

/-!
# Searches find what is within the radius

A search goes through the places in one interval after the other, and keeps those that are within
the radius.  As the intervals are apart, nobody is found twice; and if they cover all places within
the radius, nobody is missed.

* `Disc.reaches`, `searched` — the cells within the radius, and the members found there.
* `hit`, `Disc.keep`, `visit_row` — what a search makes of an item.
* **`visitPage_hits`** — a search keeps all hits, or as many as are wanted.
* **`run_searchIntervals`**, **`run_radius`** — what a search finds; `run_radius_refused` — which
  searches are refused.
* **`names_searched`** — nobody is found twice.
* `Finds` — the members found: in order, each once, and which.
* **`radius_finds`** — in every table reached, searches find what is within the radius.
-/

namespace RankedTable

open Scan (IsPageSize PageFits)

namespace GeoIndex

variable {client : Client} {geometry : Geometry} {table : Table} {key : String} {disc : Disc}
  {metres : ℤ → Float}

/-! ## What is found -/

/-- Whether the centre of a cell, which is so many metres away, is within the radius. -/
def Disc.reaches (disc : Disc) (metres : ℤ → Float) (cell : ℤ) : Bool :=
  !decide (disc.unit.fromMeters (metres cell) > disc.radius)

/-- A member that was found, with the centre of its cell. -/
def centred (geometry : Geometry) (e : ℤ × String) : String × Location :=
  (e.2, geometry.centre e.1)

/-- What a search finds in an interval. -/
def searchedIn (geometry : Geometry) (reaches : ℤ → Bool) (placing : List (ℤ × String))
    (interval : ℕ × ℕ) : Assoc Location :=
  ((placing.filter fun e => Holds interval e.1).filter fun e => reaches e.1).map (centred geometry)

/-- What a search finds in one interval after the other. -/
def searched (geometry : Geometry) (reaches : ℤ → Bool) (placing : List (ℤ × String))
    (intervals : List (ℕ × ℕ)) : Assoc Location :=
  intervals.flatMap (searchedIn geometry reaches placing)

lemma append_searched_cons (geometry : Geometry) (reaches : ℤ → Bool)
    (placing : List (ℤ × String)) (interval : ℕ × ℕ) (rest : List (ℕ × ℕ))
    (found : Assoc Location) :
    found ++ searched geometry reaches placing (interval :: rest) =
      (found ++ searchedIn geometry reaches placing interval) ++
        searched geometry reaches placing rest := by
  rw [searched, List.flatMap_cons, List.append_assoc]
  rfl

/-- What a search finds in an item. -/
def hit (settings : Settings) (geometry : Geometry) (reaches : ℤ → Bool) (item : Item) :
    Option (String × Location) :=
  ((placed settings item).filter fun e => reaches e.1).map (centred geometry)

/-- How a search goes on with what it finds in an item. -/
def Disc.keep (disc : Disc) (found : Assoc Location) :
    Option (String × Location) → Scan.Visit (Assoc Location)
  | none => .more found
  | some e =>
    if disc.satisfied (found.insert e.1 e.2) then .enough (found.insert e.1 e.2)
    else .more (found.insert e.1 e.2)

section Client

variable (h : ClientTable client.settings table) (hwhole : WholeOrText table)
  (hdistance : ∀ cell, geometry.distance disc.centre (geometry.centre cell) = .ok (metres cell))

include h hwhole hdistance

/-- **What a search makes of an item** is told by its place. -/
theorem visit_row {row : Row}
    (hrow : row ∈ table.rows key (some client.settings.locationName)) (found : Assoc Location) :
    disc.visit client geometry found row.item =
      .ok (disc.keep found (hit client.settings geometry (disc.reaches metres) row.item)) := by
  rw [Disc.visit, locationOf_eq, (row_cell h hwhole geometry hrow).1, ok_bind, hit, placed]
  cases cellOf client.settings row.item with
  | none => rfl
  | some cell =>
      change (geometry.distance disc.centre (geometry.centre cell) >>= fun metres => _) = _
      rw [hdistance, ok_bind, Option.map_some, Option.filter_some]
      dsimp only
      by_cases hfar : disc.unit.fromMeters (metres cell) > disc.radius
      · have hreaches : disc.reaches metres cell = false := by
          rw [Disc.reaches, decide_eq_true hfar, Bool.not_true]
        rw [if_pos hfar, hreaches]
        rfl
      · have hreaches : disc.reaches metres cell = true := by
          rw [Disc.reaches, decide_eq_false hfar, Bool.not_false]
        rw [if_neg hfar, hreaches]
        rfl

end Client

/-! ## Wanted matches -/

lemma Disc.satisfied_iff {found : Assoc Location} :
    disc.satisfied found = true ↔ 0 < disc.count ∧ disc.count ≤ found.length := by
  rw [satisfied, Bool.and_eq_true, decide_eq_true_eq, decide_eq_true_eq]

lemma Disc.satisfied_nil (disc : Disc) : disc.satisfied [] = false := by
  rw [← Bool.not_eq_true, satisfied_iff, List.length_nil]
  omega

/-- As long as more are wanted, there are fewer than that. -/
lemma Disc.length_lt {found : Assoc Location} (h : disc.satisfied found = false)
    (hcount : 0 < disc.count) : found.length < disc.count := by
  rw [← Bool.not_eq_true, satisfied_iff, not_and, not_le] at h
  exact h hcount

lemma Disc.window_eq_self {found : Assoc Location}
    (h : 0 < disc.count → found.length ≤ disc.count) :
    Scan.window 0 disc.count found = found := by
  rw [Scan.window, List.drop_zero]
  split_ifs with hcount
  · exact List.take_of_length_le (by have := h hcount; omega)
  · rfl

lemma Disc.window_unsatisfied {found : Assoc Location} (h : disc.satisfied found = false) :
    Scan.window 0 disc.count found = found :=
  window_eq_self fun hcount => (length_lt h hcount).le

/-- What is found while more are wanted is within the window. -/
lemma Disc.window_next {found : Assoc Location} (h : disc.satisfied found = false)
    (e : String × Location) : Scan.window 0 disc.count (found ++ [e]) = found ++ [e] := by
  refine window_eq_self fun hcount => ?_
  have hwanted := length_lt h hcount
  rw [List.length_append, List.length_singleton]
  omega

lemma Disc.satisfied_append {found : Assoc Location} (h : disc.satisfied found = true)
    (more : Assoc Location) : disc.satisfied (found ++ more) = true := by
  obtain ⟨hcount, hle⟩ := satisfied_iff.mp h
  refine satisfied_iff.mpr ⟨hcount, ?_⟩
  rw [List.length_append]
  omega

/-- Once no more are wanted, what is found later is not within the window. -/
lemma Disc.window_append {found : Assoc Location} (h : disc.satisfied found = true)
    (more : Assoc Location) :
    Scan.window 0 disc.count (found ++ more) = Scan.window 0 disc.count found := by
  obtain ⟨hcount, hle⟩ := satisfied_iff.mp h
  rw [Scan.window, Scan.window, List.drop_zero, List.drop_zero, if_pos hcount, if_pos hcount,
    List.take_append_of_le_length (by omega)]

lemma Disc.satisfied_window {found : Assoc Location} (h : disc.satisfied found = true) :
    disc.satisfied (Scan.window 0 disc.count found) = true := by
  obtain ⟨hcount, hle⟩ := satisfied_iff.mp h
  refine satisfied_iff.mpr ⟨hcount, ?_⟩
  rw [Scan.window, if_pos hcount, List.drop_zero, List.length_take]
  omega

/-- **A search keeps all hits**, or as many as are wanted. -/
theorem visitPage_hits {scan : Scan} (hskip : scan.skip = 0) (htake : ¬0 < scan.take)
    {visit : Assoc Location → Item → Except Error (Scan.Visit (Assoc Location))}
    {hit : Item → Option (String × Location)} {items : List Item}
    (hvisit : ∀ item ∈ items, ∀ found, visit found item = .ok (disc.keep found (hit item)))
    {found : Assoc Location} (hnames : (found ++ items.filterMap hit).names.Nodup)
    (hmore : disc.satisfied found = false) (seen : ℕ) :
    scan.visitPage visit seen found items =
      if disc.satisfied (found ++ items.filterMap hit) then
        .finished (Scan.window 0 disc.count (found ++ items.filterMap hit))
      else .more (seen + items.length) (found ++ items.filterMap hit) := by
  induction items generalizing seen found with
  | nil =>
      rw [List.filterMap_nil, List.append_nil, hmore]
      rfl
  | cons item rest ih =>
      have hrest := fun i hi => hvisit i (List.mem_cons_of_mem item hi)
      rw [Scan.visitPage_cons hskip htake, hvisit item (List.mem_cons_self ..),
        List.filterMap_cons]
      cases hhit : hit item with
      | none =>
          rw [List.filterMap_cons, hhit] at hnames
          simp only [Disc.keep]
          rw [ih hrest hnames hmore, List.length_cons, Nat.add_assoc, Nat.add_comm 1]
      | some e =>
          rw [List.filterMap_cons, hhit] at hnames
          have hsplit : found ++ e :: rest.filterMap hit = found ++ [e] ++ rest.filterMap hit := by
            simp
          rw [hsplit] at hnames ⊢
          have hnew : (found ++ [e]).names.Nodup :=
            hnames.sublist ((List.sublist_append_left _ _).map Prod.fst)
          have hinsert : found.insert e.1 e.2 = found ++ [e] := Assoc.insertAll_append hnew
          simp only [Disc.keep, hinsert]
          cases henough : disc.satisfied (found ++ [e]) with
          | true =>
              rw [if_pos rfl, if_pos (Disc.satisfied_append henough _), Disc.window_append henough,
                Disc.window_next hmore]
          | false =>
              rw [if_neg Bool.false_ne_true]
              dsimp only
              rw [ih hrest hnames henough, List.length_cons, Nat.add_assoc, Nat.add_comm 1]

/-! ## Searches -/

/-- Whether the pages that a search asks for can be served, as long as more matches are wanted. -/
def Disc.IsServed (disc : Disc) (pageSize : Option ℤ) : Prop :=
  ∀ found : Assoc Location, disc.satisfied found = false →
    IsPageLimit (tighter (if 0 < disc.count then some (disc.count - found.length) else none)
      pageSize)

section Client

variable (h : ClientTable client.settings table) (hwhole : WholeOrText table)
  (hdistance : ∀ cell, geometry.distance disc.centre (geometry.centre cell) = .ok (metres cell))
  (hpages : table.pageBound ≤ client.maxPages)

include h hwhole hdistance in
/-- **What the scan of an interval goes through** are items whose hits are the places in it that are
within reach. -/
theorem cellScan_items {interval : ℕ × ℕ} (hwords : interval.1 < 2 ^ 64 ∧ interval.2 < 2 ^ 64)
    (key : String) (pageSize : Option ℤ) :
    ∃ test items, (cellScan client key interval pageSize).request.bounds = .ok test ∧
      (table.matching (cellScan client key interval pageSize).request test).map Row.item = items ∧
      (∀ item ∈ items, ∀ found, disc.visit client geometry found item =
        .ok (disc.keep found (hit client.settings geometry (disc.reaches metres) item))) ∧
      items.filterMap (hit client.settings geometry (disc.reaches metres)) =
        searchedIn geometry (disc.reaches metres) (table.placing client.settings key) interval := by
  obtain ⟨test, hbounds, htest⟩ := cellScan_bounds client hwords
  refine ⟨test, _, hbounds key pageSize, rfl, fun item hitem found => ?_, ?_⟩
  · obtain ⟨row, hrow, rfl⟩ := List.mem_map.mp hitem
    exact visit_row h hwhole hdistance (Table.mem_rows_of_mem_matching hrow) found
  · rw [searchedIn, ← placing_matching h hwhole htest pageSize, List.filter_filterMap,
      List.map_filterMap, List.filterMap_map]
    rfl

include h hwhole hdistance hpages

/-- **A search keeps the hits of one interval**, or as many as are wanted. -/
theorem run_cellScan {interval : ℕ × ℕ} (hwords : interval.1 < 2 ^ 64 ∧ interval.2 < 2 ^ 64)
    {found : Assoc Location} (hmore : disc.satisfied found = false) {pageSize : Option ℤ}
    (hlimit : IsPageLimit (tighter pageSize client.settings.pageSize))
    (hnames : (found ++ searchedIn geometry (disc.reaches metres)
      (table.placing client.settings key) interval).names.Nodup) :
    ((cellScan client key interval pageSize).fold (disc.visit client geometry) found).run
        client.settings.layout.store table =
      (.ok (Scan.window 0 disc.count (found ++ searchedIn geometry (disc.reaches metres)
        (table.placing client.settings key) interval), none), table) := by
  obtain ⟨test, items, hbounds, hitems, hvisit, hhits⟩ :=
    cellScan_items h hwhole hdistance hwords key pageSize
  have hfirst : IsPageLimit
      ((cellScan client key interval pageSize).firstLimit client.settings.layout) := hlimit
  rw [← hhits] at hnames ⊢
  rw [Scan.run_fold_pass h.mirrors
    (mem_indexed_of_eq rfl (locationName_indexed client.settings))
    (fun test row hrow => h.readItem_ok hrow) hpages rfl, Scan.pass, hbounds]
  dsimp only
  rw [Scan.paged_of_isPageLimit hfirst, hitems,
    visitPage_hits rfl (lt_irrefl 0) hvisit hnames hmore]
  cases henough : disc.satisfied (found ++ items.filterMap
      (hit client.settings geometry (disc.reaches metres))) with
  | true => rfl
  | false =>
      rw [Disc.window_unsatisfied henough]
      rfl

omit hwhole hdistance in
/-- An interval is not searched if its first page is refused. -/
lemma run_cellScan_refused {interval : ℕ × ℕ}
    (hwords : interval.1 < 2 ^ 64 ∧ interval.2 < 2 ^ 64) {pageSize : Option ℤ} {n : ℤ}
    (hlimit : tighter pageSize client.settings.pageSize = some n) (hword : fitsWord n = false)
    (found : Assoc Location) :
    ((cellScan client key interval pageSize).fold (disc.visit client geometry) found).run
        client.settings.layout.store table =
      (.ok (found, some .integerTooLarge), table) := by
  obtain ⟨test, hbounds, -⟩ := cellScan_bounds client hwords
  have hfirst : (cellScan client key interval pageSize).firstLimit client.settings.layout =
      some n := hlimit
  rw [Scan.run_fold_pass h.mirrors
    (mem_indexed_of_eq rfl (locationName_indexed client.settings))
    (fun test row hrow => h.readItem_ok hrow) hpages rfl, Scan.pass, hbounds]
  dsimp only
  rw [hfirst, Scan.paged, hword]
  rfl

/-- **A search finds what is in its intervals**, or as many as are wanted, from any place on. -/
theorem run_searchIntervals {intervals : List (ℕ × ℕ)}
    (hwords : ∀ interval ∈ intervals, interval.1 < 2 ^ 64 ∧ interval.2 < 2 ^ 64)
    (hserved : intervals ≠ [] → disc.IsServed client.settings.pageSize) {found : Assoc Location}
    (hmore : disc.satisfied found = false)
    (hnames : (found ++ searched geometry (disc.reaches metres)
      (table.placing client.settings key) intervals).names.Nodup) :
    (searchIntervals client geometry key disc found intervals).run client.settings.layout.store
        table =
      (.ok (Scan.window 0 disc.count (found ++ searched geometry (disc.reaches metres)
        (table.placing client.settings key) intervals)), table) := by
  induction intervals generalizing found with
  | nil =>
      have hall : found ++ searched geometry (disc.reaches metres)
          (table.placing client.settings key) [] = found := List.append_nil found
      rw [hall, Disc.window_unsatisfied hmore]
      rfl
  | cons interval rest ih =>
      rw [append_searched_cons] at hnames ⊢
      have hinterval := hnames.sublist ((List.sublist_append_left _ _).map Prod.fst)
      have hscan := run_cellScan h hwhole hdistance hpages (hwords _ (List.mem_cons_self ..)) hmore
        (hserved (List.cons_ne_nil _ _) found hmore) hinterval
      rw [searchIntervals, Program.run_bind, hscan]
      dsimp only
      generalize found ++ searchedIn geometry (disc.reaches metres)
        (table.placing client.settings key) interval = next at hnames ⊢
      cases henough : disc.satisfied next with
      | true =>
          rw [if_pos (Disc.satisfied_window henough), Disc.window_append henough]
          rfl
      | false =>
          have hnext := ih (fun i hi => hwords i (List.mem_cons_of_mem _ hi))
            (fun _ => hserved (List.cons_ne_nil _ _)) henough hnames
          rw [Disc.window_unsatisfied henough, henough,
            if_neg Bool.false_ne_true]
          exact hnext

end Client

/-! ## Each member once -/

lemma mem_searched {reaches : ℤ → Bool} {placing : List (ℤ × String)}
    {intervals : List (ℕ × ℕ)} {member : String} {location : Location} :
    (member, location) ∈ searched geometry reaches placing intervals ↔
      ∃ cell, (cell, member) ∈ placing ∧ (∃ interval ∈ intervals, Holds interval cell) ∧
        reaches cell = true ∧ location = geometry.centre cell := by
  simp only [searched, searchedIn, centred, List.mem_flatMap, List.mem_map, List.mem_filter,
    decide_eq_true_eq, Prod.mk.injEq]
  constructor
  · rintro ⟨interval, hinterval, ⟨cell, _⟩, ⟨⟨hplaced, hholds⟩, hreaches⟩, rfl, rfl⟩
    exact ⟨cell, hplaced, ⟨interval, hinterval, hholds⟩, hreaches, rfl⟩
  · rintro ⟨cell, hplaced, ⟨interval, hinterval, hholds⟩, hreaches, rfl⟩
    exact ⟨interval, hinterval, (cell, member), ⟨⟨hplaced, hholds⟩, hreaches⟩, rfl, rfl⟩

/-- **In intervals that are apart nobody is found twice.** -/
theorem names_searched {locationName : String} {journal : List Call}
    {placing : List (ℤ × String)} (h : IsPlacing locationName journal key placing)
    {intervals : List (ℕ × ℕ)} (hintervals : IsCovering intervals) (geometry : Geometry)
    (reaches : ℤ → Bool) : (searched geometry reaches placing intervals).names.Nodup := by
  have hnames : ∀ interval, (searchedIn geometry reaches placing interval).map Prod.fst =
      ((placing.filter fun e => Holds interval e.1).filter fun e => reaches e.1).map Prod.snd :=
    fun interval => List.map_map
  have hplaced : ∀ {interval : ℕ × ℕ} {e : ℤ × String},
      e ∈ (placing.filter fun e => Holds interval e.1).filter (fun e => reaches e.1) →
        e ∈ placing ∧ Holds interval e.1 := by
    intro interval e he
    obtain ⟨hmem, hholds⟩ := List.mem_filter.mp (List.mem_filter.mp he).1
    exact ⟨hmem, of_decide_eq_true hholds⟩
  change (List.map Prod.fst (intervals.flatMap _)).Nodup
  simp only [List.map_flatMap, hnames]
  rw [List.nodup_flatMap]
  refine ⟨fun interval _ => ?_, hintervals.apart.imp fun {a b} hapart member ha hb => ?_⟩
  · exact ((h.nodup.filter _).filter _).map_on fun x hx y hy =>
      h.cell_unique (hplaced hx).1 (hplaced hy).1
  · obtain ⟨x, hx, rfl⟩ := List.mem_map.mp ha
    obtain ⟨y, hy, hname⟩ := List.mem_map.mp hb
    obtain rfl := h.cell_unique (hplaced hy).1 (hplaced hx).1 hname
    exact hapart _ (hplaced hx).2 (hplaced hy).2

/-! ## Which searches are served -/

lemma isServed_unlimited (hcount : disc.count ≤ 0) {pageSize : Option ℤ}
    (hsize : IsPageSize pageSize) (hfits : PageFits pageSize 0 0) : disc.IsServed pageSize := by
  intro found _
  rw [if_neg (not_lt.mpr hcount)]
  exact Scan.isPageLimit_of_pageFits hsize hfits

/-- As long as more are wanted, pages of as many rows have room for one. -/
lemma Disc.isPageSize_wanted {found : Assoc Location} (hmore : disc.satisfied found = false) :
    IsPageSize (if 0 < disc.count then some (disc.count - found.length) else none) := by
  intro n hn
  split_ifs at hn with hcount
  have hwanted := Disc.length_lt hmore hcount
  rw [← Option.some_inj.mp hn]
  omega

lemma isServed_limited (hcount : 0 < disc.count) (hword : disc.count < 2 ^ 63)
    {pageSize : Option ℤ} (hsize : IsPageSize pageSize) : disc.IsServed pageSize := by
  intro found hmore
  have hwanted := Disc.length_lt hmore hcount
  rw [if_pos hcount]
  cases pageSize with
  | none => exact Scan.isPageLimit_of_lt (by omega) (by omega)
  | some size =>
      have hpos := hsize size rfl
      exact Scan.isPageLimit_of_lt (by omega) (by omega)

/-- A search for all matches is refused at its first interval, if its pages are. -/
lemma run_radius_refused {client : Client} (h : ClientTable client.settings table)
    (hpages : table.pageBound ≤ client.maxPages) (disc : Disc) (hcount : disc.count ≤ 0)
    (hradius : ¬disc.radius < 0) {interval : ℕ × ℕ} {rest : List (ℕ × ℕ)}
    (hwords : interval.1 < 2 ^ 64 ∧ interval.2 < 2 ^ 64)
    (hcovering : geometry.covering disc.centre (disc.unit.toMeters disc.radius)
      client.settings.maxCells = .ok (interval :: rest))
    {n : ℤ} (hsize : client.settings.pageSize = some n) (hword : fitsWord n = false)
    (key : String) :
    (radius client geometry key disc).run client.settings.layout.store table =
      (.error .integerTooLarge, table) := by
  have hlimit : tighter none client.settings.pageSize = some n := hsize
  rw [radius, if_neg hradius, hcovering]
  change (searchIntervals client geometry key disc [] (interval :: rest)).run _ _ = _
  rw [searchIntervals, if_neg (not_lt.mpr hcount), Program.run_bind,
    run_cellScan_refused h hpages hwords hlimit hword]
  rfl

/-- **What a search of a client's table finds**: what is in its intervals, or as many as are
wanted. -/
theorem run_radius {client : Client} {journal : List Call}
    (h : Reached client.settings geometry journal table)
    (hpages : table.pageBound ≤ client.maxPages) (disc : Disc) {intervals : List (ℕ × ℕ)}
    (hserved : intervals ≠ [] → disc.IsServed client.settings.pageSize)
    (hradius : ¬disc.radius < 0) (hcovering : geometry.covering disc.centre
      (disc.unit.toMeters disc.radius) client.settings.maxCells = .ok intervals)
    (hintervals : IsCovering intervals)
    (hdistance : ∀ cell, geometry.distance disc.centre (geometry.centre cell) = .ok (metres cell))
    (key : String) :
    (radius client geometry key disc).run client.settings.layout.store table =
      (.ok (Scan.window 0 disc.count (searched geometry (disc.reaches metres)
        (table.placing client.settings key) intervals)), table) := by
  rw [radius, if_neg hradius, hcovering]
  exact run_searchIntervals h.clientTable h.wholeOrText hdistance hpages hintervals.words hserved
    disc.satisfied_nil (names_searched (isPlacing h key) hintervals geometry _)

end GeoIndex

/-! ## What clients are answered -/

variable {settings : Settings} {geometry : Geometry} {journal : List Call} {table : Table}

/-- A search for all matches is refused if its pages are, and there is an interval to search. -/
lemma answered_radius_refused (h : ClientTable settings table) {key : String}
    (disc : GeoIndex.Disc) (hcount : disc.count ≤ 0) (hradius : ¬disc.radius < 0)
    {interval : ℕ × ℕ} {rest : List (ℕ × ℕ)}
    (hwords : interval.1 < 2 ^ 64 ∧ interval.2 < 2 ^ 64)
    (hcovering : geometry.covering disc.centre (disc.unit.toMeters disc.radius)
      settings.maxCells = .ok (interval :: rest)) {n : ℤ} (hsize : settings.pageSize = some n)
    (hword : fitsWord n = false) :
    Answered settings geometry table (.radius key disc) (.error .integerTooLarge) := by
  have hclient : ClientTable (Client.mk settings table.pageBound).settings table := h
  have hrun := GeoIndex.run_radius_refused hclient (Nat.le_refl _) disc hcount hradius hwords
    hcovering hsize hword key
  exact answered_of_run (Program.run_map_result _ hrun)

/-- What is found among the places of a collection: the members in some intervals that are within
reach, each once and with the centre of its cell, by interval and then in the order of their places.
If the intervals hold all places within reach, these are all members within reach. -/
structure Finds (geometry : Geometry) (reaches : ℤ → Bool) (placing : List (ℤ × String))
    (intervals : List (ℕ × ℕ)) (found : Assoc Location) : Prop where
  order : found = intervals.flatMap fun interval =>
    ((placing.filter fun e => Holds interval e.1).filter fun e => reaches e.1).map
      fun e => (e.2, geometry.centre e.1)
  once : found.names.Nodup
  mem_iff : ∀ member location, (member, location) ∈ found ↔
    ∃ cell, (cell, member) ∈ placing ∧ (∃ interval ∈ intervals, Holds interval cell) ∧
      reaches cell = true ∧ location = geometry.centre cell
  complete : (∀ e ∈ placing, reaches e.1 = true → ∃ interval ∈ intervals, Holds interval e.1) →
    ∀ member location, (member, location) ∈ found ↔
      ∃ cell, (cell, member) ∈ placing ∧ reaches cell = true ∧ location = geometry.centre cell

lemma finds_searched {locationName key : String} {placing : List (ℤ × String)}
    (h : IsPlacing locationName journal key placing) {intervals : List (ℕ × ℕ)}
    (hintervals : IsCovering intervals) (geometry : Geometry) (reaches : ℤ → Bool) :
    Finds geometry reaches placing intervals
      (GeoIndex.searched geometry reaches placing intervals) where
  order := rfl
  once := GeoIndex.names_searched h hintervals geometry reaches
  mem_iff _ _ := GeoIndex.mem_searched
  complete hcovered member location := by
    rw [GeoIndex.mem_searched]
    refine exists_congr fun cell => and_congr_right fun hplaced => ?_
    exact ⟨fun hfound => hfound.2, fun hreaches =>
      ⟨hcovered _ hplaced hreaches.1, hreaches⟩⟩

section Reached

variable (h : Reached settings geometry journal table) (hsize : IsPageSize settings.pageSize)
  (hfits : PageFits settings.pageSize 0 0) (key : String) (disc : GeoIndex.Disc)
  (hcount : disc.count ≤ 0) (hradius : ¬disc.radius < 0) {intervals : List (ℕ × ℕ)}
  (hcovering : geometry.covering disc.centre (disc.unit.toMeters disc.radius) settings.maxCells =
    .ok intervals) (hintervals : IsCovering intervals) {metres : ℤ → Float}
  (hdistance : ∀ cell, geometry.distance disc.centre (geometry.centre cell) = .ok (metres cell))

include h hsize hfits hcount hradius hcovering hintervals hdistance

/-- A search for all matches is answered what is in its intervals. -/
lemma answered_radius :
    Answered settings geometry table (.radius key disc) (.ok (.locations (GeoIndex.searched
      geometry (disc.reaches metres) (table.placing settings key) intervals))) := by
  have hclient : Reached (Client.mk settings table.pageBound).settings geometry journal table := h
  have hrun := GeoIndex.run_radius hclient (Nat.le_refl _) disc
    (fun _ => GeoIndex.isServed_unlimited hcount hsize hfits) hradius hcovering hintervals hdistance
    key
  rw [Scan.window, if_neg (not_lt.mpr hcount), List.drop_zero] at hrun
  exact answered_of_run (Program.run_map _ hrun)

/-- **Searches find just what is within the radius**, in every table reached: each member in one of
the intervals whose cell is no farther away than the radius, once, and no other. -/
theorem radius_finds :
    ∃ placing found, IsPlacing settings.locationName journal key placing ∧
      Finds geometry (disc.reaches metres) placing intervals found ∧
      Answered settings geometry table (.radius key disc) (.ok (.locations found)) :=
  ⟨_, _, isPlacing h key, finds_searched (isPlacing h key) hintervals geometry _,
    answered_radius h hsize hfits key disc hcount hradius hcovering hintervals hdistance⟩

end Reached

/-- A globe whose cells are numbered along the meridian, searched in two intervals, the far one
first. -/
def numberedCells : Geometry where
  cellId location := .ok location.lat.toBits.toNat
  centre n := ⟨Float.ofBits n.toNat.toUInt64, Float.ofBits 0⟩
  covering _ _ _ := .ok [(10, 70), (2, 9)]
  distance _ location := .ok location.lat

lemma distance_numbered (centre : Location) (cell : ℤ) :
    numberedCells.distance centre (numberedCells.centre cell) =
      .ok (Float.ofBits cell.toNat.toUInt64) := rfl

lemma isCovering_numbered : IsCovering [(10, 70), (2, 9)] :=
  ⟨by decide, by simp [Holds]; omega⟩

/-- Three members, in cells whose numbers are not of the same length. -/
lemma reached_numbered (pageSize : Option ℤ) :
    Reached { (Installation.mk "ranked" "").defaults with pageSize := pageSize } numberedCells
      [.update ⟨"k", "c"⟩ [("sk3", .ofInt 60)] [], .update ⟨"k", "b"⟩ [("sk3", .ofInt 10)] [],
        .update ⟨"k", "a"⟩ [("sk3", .ofInt 9)] []]
      { items := [⟨⟨"k", "a"⟩, [("sk3", .ofInt 9)]⟩, ⟨⟨"k", "b"⟩, [("sk3", .ofInt 10)]⟩,
          ⟨⟨"k", "c"⟩, [("sk3", .ofInt 60)]⟩]
        index := [⟨⟨"k", "a"⟩, "sk3", "35009"⟩, ⟨⟨"k", "b"⟩, "sk3", "35011"⟩,
          ⟨⟨"k", "c"⟩, "sk3", "35016"⟩] } :=
  .command .empty (.addLocations "k" [("a", ⟨Float.ofBits 9, Float.ofBits 0⟩),
    ("b", ⟨Float.ofBits 10, Float.ofBits 0⟩), ("c", ⟨Float.ofBits 60, Float.ofBits 0⟩)]) rfl

lemma isPlacing_numbered : IsPlacing "sk3"
    [.update ⟨"k", "c"⟩ [("sk3", .ofInt 60)] [], .update ⟨"k", "b"⟩ [("sk3", .ofInt 10)] [],
      .update ⟨"k", "a"⟩ [("sk3", .ofInt 9)] []] "k" [(9, "a"), (10, "b"), (60, "c")] where
  sorted := by simp [PlacedBefore]
  mem_iff cell member := by
    by_cases hc : member = "c"
    · simp [hc, lastWritten, Assoc.latest?, Value.ofInt_inj, eq_comm]
    by_cases hb : member = "b"
    · simp [hb, lastWritten, Assoc.latest?, Value.ofInt_inj, eq_comm]
    by_cases ha : member = "a"
    · simp [ha, lastWritten, Assoc.latest?, Value.ofInt_inj, eq_comm]
    · simp [ha, hb, hc, lastWritten, eq_comm (b := member)]

/-- Of three members two are within the radius, and the far interval comes first. -/
theorem radius_finds_numbered :
    ∃ (settings : Settings) (journal : List Call) (table : Table) (disc : GeoIndex.Disc)
        (a b : Location),
      settings.pageSize = some 1 ∧ disc.count = 0 ∧
        Reached settings numberedCells journal table ∧
        IsPlacing settings.locationName journal "k" [(9, "a"), (10, "b"), (60, "c")] ∧
        Answered settings numberedCells table (.radius "k" disc)
          (.ok (.locations [("b", b), ("a", a)])) := by
  have hreached := reached_numbered (some 1)
  obtain ⟨placing, found, hplacing, hfinds, hanswered⟩ := radius_finds hreached
    (fun n hn => Option.some_inj.mp hn ▸ by decide) (fun n hn => Option.some_inj.mp hn ▸ by decide)
    "k" ⟨⟨Float.ofBits 0, Float.ofBits 0⟩, Float.ofBits 20, .meters, 0⟩ (by decide) (by decide) rfl
    isCovering_numbered (distance_numbered _)
  obtain rfl := hplacing.unique isPlacing_numbered
  have hfound : found = [("b", numberedCells.centre 10), ("a", numberedCells.centre 9)] :=
    hfinds.order.trans (by rfl)
  exact ⟨_, _, _, _, _, _, rfl, rfl, hreached, hplacing, hfound ▸ hanswered⟩

/-- Pages of more rows than a word can count are refused, though there are members to be found. -/
theorem radius_needs_pages :
    ∃ (settings : Settings) (journal : List Call) (table : Table) (disc : GeoIndex.Disc),
      settings.pageSize = some (2 ^ 63) ∧ disc.count = 0 ∧ ¬disc.radius < 0 ∧
        Reached settings numberedCells journal table ∧
        IsPlacing settings.locationName journal "k" [(9, "a"), (10, "b"), (60, "c")] ∧
        disc.reaches (fun cell => Float.ofBits cell.toNat.toUInt64) 9 = true ∧
        Answered settings numberedCells table (.radius "k" disc) (.error .integerTooLarge) := by
  have hreached := reached_numbered (some (2 ^ 63))
  exact ⟨_, _, _, ⟨⟨Float.ofBits 0, Float.ofBits 0⟩, Float.ofBits 20, .meters, 0⟩, rfl, rfl,
    by decide, hreached, isPlacing_numbered, by decide,
    answered_radius_refused hreached.clientTable _ (Int.le_refl 0) (by decide)
      (show (10, 70).1 < 2 ^ 64 ∧ (10, 70).2 < 2 ^ 64 by decide) rfl rfl (by decide)⟩

end RankedTable

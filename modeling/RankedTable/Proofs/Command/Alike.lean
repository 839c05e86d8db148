import RankedTable.Command
import RankedTable.Proofs.Store.Alike

/-!
# Commands side by side

Two clients get the same answer to a command if they get the same answer to each part of it.  For
the commands that are made of several scans this is shown once, whatever the two stores are.

* `SortedSet.alike_fetch`, `SortedSet.alike_rangeByScore`, `SortedSet.alike_countByScore` — a range
  of scores is a fold over its request, or a count.
* `SortedSet.alike_rank` — a position is a score and a count.
* **`SortedSet.alike_rangeFrom`** — members at positions are ranges of scores.
* `SortedSet.alike_pop` — members that are popped are read and removed.
* `GeoIndex.alike_distance`, `GeoIndex.alike_geohashes` — both are computed from positions.
* `GeoIndex.alike_searchIntervals`, **`GeoIndex.alike_radius`**, `GeoIndex.alike_radiusByMember` — a
  search is a fold over each interval of its covering.
-/

namespace RankedTable

open Program (Alike Still alike_done)

variable {σ τ : Type} {store : Store σ} {other : Store τ} {s : σ} {t : τ} {client client' : Client}

/-! ## Sorted sets -/

namespace SortedSet

variable {key member : String}

lemma alike_fetch {request : QueryRequest} {offset count : ℤ}
    (hfold : Alike store other (Still s t)
      (Scan.fold
        { request := request, offset := offset, take := count, maxPages := client.maxPages }
        (fun m item => (decodeMember client item).map fun e => .more (Assoc.insert m e.1 e.2)) [])
      (Scan.fold
        { request := request, offset := offset, take := count, maxPages := client'.maxPages }
        (fun m item => (decodeMember client' item).map fun e => .more (Assoc.insert m e.1 e.2)) [])
      s t) :
    Alike store other (Still s t) (fetch client request offset count)
      (fetch client' request offset count) s t := by
  refine Alike.still_bind hfold ⟨rfl, rfl⟩ fun found => ?_
  rcases found with ⟨acc, _ | e⟩ <;> exact alike_done _ ⟨rfl, rfl⟩

section Ranges

variable {low high : Option Float} (hname : client.settings.scoreName = client'.settings.scoreName)

include hname

/-- Bounds become the same request for clients with the same name for scores. -/
lemma scoreRange_congr (forward : Bool) :
    scoreRange client key low high forward = scoreRange client' key low high forward := by
  rw [scoreRange, scoreRange, hname]

/-- Bounds that cannot be encoded are refused before the first call. -/
lemma alike_rangeByScore {offset count : ℤ} {forward : Bool}
    (hfetch : ∀ request, scoreRange client key low high forward = .ok request →
      Alike store other (Still s t) (fetch client request offset count)
        (fetch client' request offset count) s t) :
    Alike store other (Still s t) (rangeByScore client key low high offset count forward)
      (rangeByScore client' key low high offset count forward) s t := by
  rw [rangeByScore, rangeByScore, ← scoreRange_congr hname]
  cases hrequest : scoreRange client key low high forward with
  | error e => exact alike_done _ ⟨rfl, rfl⟩
  | ok request => exact hfetch request hrequest

lemma alike_countByScore
    (hcount : ∀ request, scoreRange client key low high true = .ok request →
      Alike store other (Still s t) (Scan.count { request := request, maxPages := client.maxPages })
        (Scan.count { request := request, maxPages := client'.maxPages }) s t) :
    Alike store other (Still s t) (countByScore client key low high)
      (countByScore client' key low high) s t := by
  rw [countByScore, countByScore, ← scoreRange_congr hname]
  cases hrequest : scoreRange client key low high true with
  | error e => exact alike_done _ ⟨rfl, rfl⟩
  | ok request => exact hcount request hrequest

end Ranges

lemma alike_rank
    (hscore : Alike store other (Still s t) (score client key member)
      (score client' key member) s t)
    (hcount : ∀ low high, Alike store other (Still s t) (countByScore client key low high)
      (countByScore client' key low high) s t) (forward : Bool) :
    Alike store other (Still s t) (rank client key member forward)
      (rank client' key member forward) s t := by
  refine hscore.still_bind ⟨rfl, rfl⟩ fun ⟨x, found⟩ => ?_
  cases found with
  | false => exact alike_done _ ⟨rfl, rfl⟩
  | true =>
      cases forward with
      | true =>
          exact (hcount none (some x)).still_bind ⟨rfl, rfl⟩ fun n => alike_done _ ⟨rfl, rfl⟩
      | false =>
          exact (hcount (some x) none).still_bind ⟨rfl, rfl⟩ fun n => alike_done _ ⟨rfl, rfl⟩

/-- **Members at positions are found alike if ranges of scores are**, as far as these are asked
for. -/
theorem alike_rangeFrom {Asked : ℤ → ℤ → Prop}
    (hrange : ∀ low high offset count forward, Asked offset count →
      Alike store other (Still s t) (rangeByScore client key low high offset count forward)
        (rangeByScore client' key low high offset count forward) s t) {start stop : ℤ}
    (hneg : start < 0 → stop < 0 → Asked (-stop - 1) (stop - start + 1))
    (hedge : stop < 0 → 0 ≤ start → Asked (-stop - 1) 1) (hbounded : Asked start 0)
    (hnonneg : 0 ≤ stop → Asked start (stop - start + 1)) (forward : Bool) :
    Alike store other (Still s t) (rangeFrom client key start stop forward)
      (rangeFrom client' key start stop forward) s t := by
  rw [rangeFrom, rangeFrom]
  by_cases hboth : start < 0 ∧ stop < 0
  · rw [if_pos hboth, if_pos hboth]
    split_ifs
    · exact alike_done _ ⟨rfl, rfl⟩
    · exact (hrange none none _ _ _ (hneg hboth.1 hboth.2)).still_bind ⟨rfl, rfl⟩
        fun tail => alike_done _ ⟨rfl, rfl⟩
  rw [if_neg hboth, if_neg hboth]
  by_cases hstop : stop < 0
  · rw [if_pos hstop, if_pos hstop]
    refine (hrange none none _ _ _ (hedge hstop (by omega))).still_bind ⟨rfl, rfl⟩
      fun boundary => ?_
    cases boundary with
    | nil => exact alike_done _ ⟨rfl, rfl⟩
    | cons edge rest =>
        dsimp only
        split_ifs
        · exact hrange _ _ _ _ _ hbounded
        · exact hrange _ _ _ _ _ hbounded
  · rw [if_neg hstop, if_neg hstop]
    split_ifs
    · exact alike_done _ ⟨rfl, rfl⟩
    · exact hrange none none _ _ _ (hnonneg (by omega))

/-- Members are popped alike if they are read alike, and what was read is removed alike. -/
lemma alike_pop {R : σ → τ → Prop} (hstart : R s t) {count : ℤ} {lowest : Bool}
    (hread : Alike store other (Still s t) (rangeByScore client key none none 0 count lowest)
      (rangeByScore client' key none none 0 count lowest) s t)
    (hremove : ∀ members,
      (rangeByScore client key none none 0 count lowest).run store s = (.ok members, s) →
      Alike store other R (removeFetched key members) (removeFetched key members) s t) :
    Alike store other R (pop client key count lowest) (pop client' key count lowest) s t := by
  rw [pop, pop]
  split_ifs
  · exact alike_done _ hstart
  · refine hread.still_bind_of_run hstart fun members hrun => ?_
    exact (hremove members hrun).bind (fun _ _ => id) fun _ _ _ hst => alike_done _ hst

end SortedSet

/-! ## Geo indexes -/

namespace GeoIndex

variable {geometry : Geometry} {key : String} {disc : Disc}

lemma alike_distance {first second : String}
    (hpositions : Alike store other (Still s t) (positions client geometry key [first, second])
      (positions client' geometry key [first, second]) s t) (unit : DistanceUnit) :
    Alike store other (Still s t) (distance client geometry key first second unit)
      (distance client' geometry key first second unit) s t := by
  refine hpositions.still_bind ⟨rfl, rfl⟩ fun found => ?_
  split
  · exact Alike.still_bind (alike_done _ ⟨rfl, rfl⟩) ⟨rfl, rfl⟩ fun _ => alike_done _ ⟨rfl, rfl⟩
  · exact alike_done _ ⟨rfl, rfl⟩

lemma alike_geohashes {members : List String}
    (hpositions : Alike store other (Still s t) (positions client geometry key members)
      (positions client' geometry key members) s t)
    (hprecision : client.settings.geohashPrecision = client'.settings.geohashPrecision) :
    Alike store other (Still s t) (geohashes client geometry key members)
      (geohashes client' geometry key members) s t := by
  rw [geohashes, geohashes, hprecision]
  exact hpositions.still_bind ⟨rfl, rfl⟩ fun _ => alike_done _ ⟨rfl, rfl⟩

/-- A search around a member is one around its position. -/
lemma alike_radiusByMember {member : String} {limit : Float} {unit : DistanceUnit} {count : ℤ}
    (hpositions : Alike store other (Still s t) (positions client geometry key [member])
      (positions client' geometry key [member]) s t)
    (hradius : ∀ centre, Alike store other (Still s t)
      (radius client geometry key ⟨centre, limit, unit, count⟩)
      (radius client' geometry key ⟨centre, limit, unit, count⟩) s t) :
    Alike store other (Still s t) (radiusByMember client geometry key member limit unit count)
      (radiusByMember client' geometry key member limit unit count) s t := by
  refine hpositions.still_bind ⟨rfl, rfl⟩ fun found => ?_
  cases Assoc.get? found member with
  | none => exact alike_done _ ⟨rfl, rfl⟩
  | some centre => exact hradius centre

lemma satisfied_nil (disc : Disc) : disc.satisfied [] = false := by
  rw [Disc.satisfied, Bool.and_eq_false_iff, decide_eq_false_iff_not, decide_eq_false_iff_not,
    List.length_nil]
  omega

section Search

variable (hfold : ∀ interval found, disc.satisfied found = false →
  Alike store other (Still s t)
    ((cellScan client key interval (if 0 < disc.count then some (disc.count - found.length)
      else none)).fold (disc.visit client geometry) found)
    ((cellScan client' key interval (if 0 < disc.count then some (disc.count - found.length)
      else none)).fold (disc.visit client' geometry) found) s t)

include hfold

/-- Intervals are searched alike: none is scanned once enough has been found. -/
lemma alike_searchIntervals {found : Assoc Location} (hfound : disc.satisfied found = false)
    (intervals : List (ℕ × ℕ)) :
    Alike store other (Still s t) (searchIntervals client geometry key disc found intervals)
      (searchIntervals client' geometry key disc found intervals) s t := by
  induction intervals generalizing found with
  | nil => exact alike_done _ ⟨rfl, rfl⟩
  | cons interval rest ih =>
      rw [searchIntervals, searchIntervals]
      refine (hfold interval found hfound).still_bind ⟨rfl, rfl⟩ fun result => ?_
      obtain ⟨found', _ | e⟩ := result
      · dsimp only
        split_ifs with hsatisfied
        · exact alike_done _ ⟨rfl, rfl⟩
        · exact ih (by simpa using hsatisfied)
      · exact alike_done _ ⟨rfl, rfl⟩

/-- **Discs are searched alike if intervals of cells are.** -/
theorem alike_radius (hcells : client.settings.maxCells = client'.settings.maxCells) :
    Alike store other (Still s t) (radius client geometry key disc)
      (radius client' geometry key disc) s t := by
  rw [radius, radius, hcells]
  split_ifs
  · exact alike_done _ ⟨rfl, rfl⟩
  · cases geometry.covering disc.centre (disc.unit.toMeters disc.radius)
      client'.settings.maxCells with
    | error e => exact alike_done _ ⟨rfl, rfl⟩
    | ok intervals => exact alike_searchIntervals hfold (satisfied_nil disc) intervals

end Search

end GeoIndex

end RankedTable

import RankedTable.Proofs.SortedSet.RankReads

/-!
# Reads by name

The rows of a collection without an index are ordered by name, and a name is the text that they are
ranged over by.  So what a scan by name sees are the members by ascending name, without those
outside the bounds.  It decodes them as long as each has a score.

* `betweenNames` — the names between two bounds, of which the empty one is none.
* `Table.listing` — the members of a collection by ascending name; `sorted_listing`,
  `perm_listing`.
* `decodeMember_scored` — an item with a score is decoded with it.
* **`run_rangeByName`** — what a range of names finds in a client's table.
-/

namespace RankedTable

/-- Whether a name lies between two bounds; the empty bound is none. -/
def betweenNames (low high name : String) : Bool :=
  (decide (low = "") || decide (low ≤ name)) && (decide (high = "") || decide (name ≤ high))

lemma betweenNames_unbounded : betweenNames "" "" = fun _ => true := by
  funext name
  simp [betweenNames]

/-- The members of a collection by ascending name, each with its score. -/
def Table.listing (settings : Settings) (table : Table) (key : String) : Assoc Float :=
  (sortRows true (table.rows key none)).map fun row => scored settings row.item

namespace SortedSet

variable {client : Client} {table : Table} {key : String}

/-! ## What scans see -/

/-- The rows of a collection by name. -/
def namedRows (table : Table) (key : String) (forward : Bool) : List Row :=
  sortRows forward (table.rows key none)

/-- Bounds that are texts are accepted. -/
lemma accepted_nameRange (client : Client) (key low high : String) (forward : Bool) :
    (nameRange client key low high forward).Accepted client.settings.layout
      (betweenNames low high) := by
  refine ⟨(fun _ hindex => by cases hindex), ?_⟩
  by_cases hlow : low = "" <;> by_cases hhigh : high = ""
  · exact ⟨none, none, by rw [nameRange, nameBound, if_pos hlow, nameBound, if_pos hhigh]; rfl, rfl,
      fun _ => by simp [betweenNames, hlow, hhigh]⟩
  · exact ⟨some ⟨.le, [high]⟩, _,
      by rw [nameRange, nameBound, if_pos hlow, nameBound, if_neg hhigh]; rfl, rfl,
      fun _ => by simp [betweenNames, hlow, hhigh]⟩
  · exact ⟨some ⟨.ge, [low]⟩, _,
      by rw [nameRange, nameBound, if_neg hlow, nameBound, if_pos hhigh]; rfl, rfl,
      fun _ => by simp [betweenNames, hlow, hhigh]⟩
  · exact ⟨some ⟨.between, [low, high]⟩, _,
      by rw [nameRange, nameBound, if_neg hlow, nameBound, if_neg hhigh]; rfl, rfl,
      fun _ => by simp [betweenNames, hlow, hhigh]⟩

section Client

variable (h : ClientTable client.settings table)
  (hscores : ScoresEncoded client.settings.scoreName table)

section Names

include h

/-- **A range of names has the rows within its bounds**, in its direction. -/
theorem matching_nameRange (key low high : String) (forward : Bool) :
    table.matching (nameRange client key low high forward) (betweenNames low high) =
      (namedRows table key forward).filter fun row => betweenNames low high row.member := by
  have hapart := Table.apart_rows h.mirrors.items h.mirrors.rows key none
  rw [Table.matching, namedRows, ← sortRows_filter hapart]
  refine congrArg (sortRows forward) (List.filter_congr fun row hrow => ?_)
  obtain ⟨-, -, htext⟩ := (Table.mem_rows_items h.mirrors.items row).mp hrow
  exact congrArg (betweenNames low high) htext

/-- The rows of a collection by name are its members in order. -/
lemma map_namedRows (key : String) (forward : Bool) :
    (namedRows table key forward).map (fun row => scored client.settings row.item) =
      directed forward (table.listing client.settings key) := by
  have hapart := Table.apart_rows h.mirrors.items h.mirrors.rows key none
  rw [namedRows, sortRows_directed hapart, Table.listing, directed_map]

/-- The members of a collection are listed by strictly ascending names. -/
lemma sorted_listing (key : String) :
    (table.listing client.settings key).Pairwise fun a b => a.1 < b.1 := by
  have hapart := Table.apart_rows h.mirrors.items h.mirrors.rows key none
  rw [Table.listing, List.pairwise_map]
  refine List.Pairwise.imp_of_mem (fun {a b} ha hb hab => ?_) (pairwise_sortRows hapart true)
  obtain ⟨-, -, hatext⟩ := (Table.mem_rows_items h.mirrors.items a).mp (mem_sortRows.mp ha)
  obtain ⟨-, -, hbtext⟩ := (Table.mem_rows_items h.mirrors.items b).mp (mem_sortRows.mp hb)
  rcases hab with hlt | ⟨-, hlt⟩
  · rwa [hatext, hbtext] at hlt
  · exact hlt

end Names

include hscores

/-- An item with a score is decoded with it. -/
lemma decodeMember_scored {item : Item} (hitem : table.find? item.key = some item)
    (hsome : (item.get? client.settings.scoreName).isSome) :
    decodeMember client item = .ok (scored client.settings item) := by
  obtain ⟨value, hvalue⟩ := Option.isSome_iff_exists.mp hsome
  have hattribute : table.attribute? item.key client.settings.scoreName = some value := by
    rw [Table.attribute?, hitem]
    exact hvalue
  obtain ⟨x, t, rfl, hx⟩ := hscores _ _ hattribute
  exact decodeMember_encoded hx hvalue

include h

/-! ## Reads -/

variable (hscored : AllScored client.settings table key)

include hscored

/-- If every item has a score, the members of the ranking are listed. -/
lemma perm_listing : (table.listing client.settings key).Perm
    (table.ranking client.settings key) :=
  ((perm_sortRows true _).map _).trans (perm_ranking_of_allScored h hscores hscored)

/-- What becomes of a range of names, whatever its pages are. -/
theorem run_rangeByName_paged (hpages : table.pageBound ≤ client.maxPages) (low high : String)
    (offset count : ℤ) (forward : Bool) :
    (rangeByName client key low high offset count forward).run client.settings.layout.store
        table =
      (Scan.paged (Scan.budgetLimit offset count client.settings.pageSize)
        (.error .integerTooLarge) (.ok []) (.ok (Scan.window offset.toNat count
          ((directed forward (table.listing client.settings key)).filter
            fun e => betweenNames low high e.1))), table) := by
  have hmatching := matching_nameRange h key low high forward
  have haccepted := accepted_nameRange client key low high forward
  have hdecode : ∀ row ∈ table.matching (nameRange client key low high forward)
      (betweenNames low high), decodeMember client row.item =
        .ok (scored client.settings row.item) := by
    intro row hrow
    rw [hmatching] at hrow
    obtain ⟨hkey, hitem, -⟩ := (Table.mem_rows_items h.mirrors.items row).mp
      (mem_sortRows.mp (List.mem_filter.mp hrow).1)
    exact decodeMember_scored hscores hitem
      (hscored row.item (List.mem_of_find?_eq_some hitem) hkey)
  have hfetch := run_fetch_paged h hpages haccepted rfl hdecode offset count
  rw [hmatching, List.map_map] at hfetch
  rw [← map_namedRows h, List.filter_map]
  exact hfetch

/-- **A range of names finds the window of its budget** of the members by name between its
bounds. -/
theorem run_rangeByName (hpages : table.pageBound ≤ client.maxPages) (low high : String)
    {offset count : ℤ}
    (hlimit : IsPageLimit (Scan.budgetLimit offset count client.settings.pageSize))
    (forward : Bool) :
    (rangeByName client key low high offset count forward).run client.settings.layout.store
        table =
      (.ok (Scan.window offset.toNat count
        ((directed forward (table.listing client.settings key)).filter
          fun e => betweenNames low high e.1)), table) := by
  rw [run_rangeByName_paged h hscores hscored hpages, Scan.paged_of_isPageLimit hlimit]

end Client

end SortedSet

end RankedTable

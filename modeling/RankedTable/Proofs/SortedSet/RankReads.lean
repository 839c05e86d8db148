import RankedTable.Proofs.SortedSet.ScoreReads

/-!
# Reads by rank

Positions below zero count from the end.  A range of positions is a window of the ranking from
either end; if only its last position counts from the end, the score there bounds a range of
scores; if only its first one does, the items are counted.

* `rankSlice` — the elements at positions `start` to `stop`.
* `EndsTies`, `AllScored` — when a score tells a position, and when the items are the members.
* `filter_upTo_split`, `filter_upTo` — the members up to a score are those up to the end of its
  ties.
* **`run_rangeByRank`** — what reads by rank find in a client's table;
  `run_rangeFrom_refused` — which of them are refused.
* **`range_by_rank_eq_slice`** — in every table reached, they are those of the sorted set that the
  journal tells.
-/

namespace RankedTable

open Scan (PageFits IsPageSize)

/-! ## Slices -/

section Slices

variable {α : Type}

/-- The position that an index means in an order of `n` elements. -/
def rankPosition (n : ℕ) (i : ℤ) : ℤ :=
  if i < 0 then i + n else i

/-- The elements of a list at the positions from `start` to `stop`. -/
def rankSlice (start stop : ℤ) (l : List α) : List α :=
  (l.take (rankPosition l.length stop + 1).toNat).drop (rankPosition l.length start).toNat

lemma rankSlice_of_nonneg {start stop : ℤ} (hstart : 0 ≤ start) (hstop : 0 ≤ stop) (l : List α) :
    rankSlice start stop l = (l.drop start.toNat).take (stop - start + 1).toNat := by
  rw [rankSlice, rankPosition, rankPosition, if_neg (not_lt.mpr hstart), if_neg (not_lt.mpr hstop),
    List.drop_take]
  congr 1
  omega

/-- Positions that both count from the end are a window from the end. -/
lemma rankSlice_of_neg {start stop : ℤ} (hstart : start < 0) (hstop : stop < 0) (l : List α) :
    rankSlice start stop l =
      ((l.reverse.drop (-stop - 1).toNat).take (stop - start + 1).toNat).reverse := by
  rw [rankSlice, rankPosition, rankPosition, if_pos hstart, if_pos hstop, List.drop_reverse,
    List.take_reverse, List.reverse_reverse, List.length_take]
  have htake : l.length - (-stop - 1).toNat = (stop + l.length + 1).toNat := by omega
  rw [htake]
  by_cases hle : start ≤ stop
  · congr 1
    omega
  · -- an empty interval: both sides drop all that there is
    rw [List.drop_eq_nil_of_le, List.drop_eq_nil_of_le] <;>
      · rw [List.length_take]
        omega

/-- If the first position counts from the end, it may be counted from the start instead. -/
lemma rankSlice_clamp {start : ℤ} (hstart : start < 0) (stop : ℤ) (l : List α) :
    rankSlice (max (l.length + start) 0) stop l = rankSlice start stop l := by
  have hposition : (rankPosition l.length (max (l.length + start) 0)).toNat =
      (rankPosition l.length start).toNat := by
    rw [rankPosition, rankPosition, if_pos hstart]
    split_ifs <;> omega
  rw [rankSlice, hposition]
  rfl

/-- If only the last position counts from the end, the slice ends with the element there. -/
lemma rankSlice_split {start stop : ℤ} (hstart : 0 ≤ start) (hstop : stop < 0)
    {front back : List α} {e : α} (hback : back.length = (-stop - 1).toNat) :
    rankSlice start stop (front ++ [e] ++ back) = (front ++ [e]).drop start.toNat := by
  have hlength : (stop + (front ++ [e] ++ back).length + 1).toNat = (front ++ [e]).length := by
    simp only [List.length_append, List.length_singleton]
    omega
  rw [rankSlice, rankPosition, rankPosition, if_pos hstop, if_neg (not_lt.mpr hstart), hlength,
    List.take_left]

/-- A slice that ends before the first element is empty. -/
lemma rankSlice_of_length_le {start stop : ℤ} (hstop : stop < 0) {l : List α}
    (h : l.length ≤ (-stop - 1).toNat) : rankSlice start stop l = [] := by
  have hzero : (rankPosition l.length stop + 1).toNat = 0 := by
    rw [rankPosition, if_pos hstop]
    omega
  rw [rankSlice, hzero, List.take_zero, List.drop_nil]

/-- A list that is long enough is cut behind the element at a place counted from its end. -/
lemma exists_split {l : List α} {k : ℕ} (h : k < l.length) :
    ∃ front e back, l = front ++ [e] ++ back ∧ back.length = k := by
  have hlt : l.length - 1 - k < l.length := by omega
  refine ⟨l.take (l.length - 1 - k), l[l.length - 1 - k], l.drop (l.length - 1 - k + 1), ?_, ?_⟩
  · rw [List.append_assoc, List.singleton_append, List.getElem_cons_drop hlt,
      List.take_append_drop]
  · rw [List.length_drop]
    omega

end Slices

/-- Whether the element at a position, if there is one, is the last of those with its score. -/
def EndsTies (l : Assoc Float) (position : ℤ) : Prop :=
  ∀ front e back, l = front ++ e :: back → (front.length : ℤ) = position →
    ∀ other ∈ back, (other.2 == e.2) = false

/-- Whether every item of a collection has a score. -/
def AllScored (settings : Settings) (table : Table) (key : String) : Prop :=
  ∀ item ∈ table.items, item.key.partition = key → (item.get? settings.scoreName).isSome

/-! ## Scores as bounds -/

/-- Whether a score comes no later than another in a direction. -/
def upTo (forward : Bool) (edge x : Float) : Bool :=
  if forward then decide (x ≤ edge) else decide (edge ≤ x)

lemma within_none_some (edge : Float) : within none (some edge) = upTo true edge := by
  funext x
  simp [within, upTo]

lemma within_some_none (edge : Float) : within (some edge) none = upTo false edge := by
  funext x
  simp [within, upTo]

/-- Encodings rise along a ranking. -/
lemma Ranked.encode_le {a b : String × Float} (h : Ranked a b) {s t : String}
    (hs : Score.encode a.2 = .ok s) (ht : Score.encode b.2 = .ok t) : s ≤ t := by
  rw [Ranked, ← Score.encode_lt_iff hs ht, ← Score.encode_eq_iff hs ht] at h
  rcases h with hlt | ⟨heq, -⟩
  · exact le_of_lt hlt
  · exact le_of_eq heq

namespace IsRanking

variable {scoreName key : String} {journal : List Call} {ranking : Assoc Float}

/-- What comes before a member in a direction has a score up to that of the member; what comes
behind it has not, unless it is tied. -/
lemma upTo_of_ranked (h : IsRanking scoreName journal key ranking) {forward : Bool}
    {a b : String × Float} (ha : a ∈ ranking) (hb : b ∈ ranking)
    (hab : if forward then Ranked a b else Ranked b a) :
    upTo forward b.2 a.2 = true ∧ ((b.2 == a.2) = false → upTo forward a.2 b.2 = false) := by
  obtain ⟨s, hs, -⟩ := h.written _ _ ha
  obtain ⟨t, ht, -⟩ := h.written _ _ hb
  cases forward with
  | true =>
      have hle := Ranked.encode_le hab hs ht
      simp only [upTo, if_true, decide_eq_true_eq, decide_eq_false_iff_not,
        ← Score.encode_le_iff hs ht, ← Score.encode_le_iff ht hs]
      refine ⟨hle, fun hne hge => ?_⟩
      simp [(Score.encode_eq_iff ht hs).mp (le_antisymm hge hle)] at hne
  | false =>
      have hle := Ranked.encode_le hab ht hs
      simp only [upTo, Bool.false_eq_true, if_false, decide_eq_true_eq, decide_eq_false_iff_not,
        ← Score.encode_le_iff hs ht, ← Score.encode_le_iff ht hs]
      refine ⟨hle, fun hne hge => ?_⟩
      simp [(Score.encode_eq_iff ht hs).mp (le_antisymm hle hge)] at hne

lemma upTo_self (h : IsRanking scoreName journal key ranking) {e : String × Float}
    (he : e ∈ ranking) (forward : Bool) : upTo forward e.2 e.2 = true := by
  obtain ⟨t, ht, -⟩ := h.written _ _ he
  have hle : e.2 ≤ e.2 := (Score.encode_le_iff ht ht).mp (le_refl t)
  simp [upTo, hle]

/-- The scores of a ranking are numbers. -/
lemma isBound (h : IsRanking scoreName journal key ranking) {e : String × Float}
    (he : e ∈ ranking) : IsBound (some e.2) := by
  obtain ⟨t, ht, -⟩ := h.written _ _ he
  intro x hx
  rw [← Option.some_inj.mp hx]
  exact (Score.codes_of_encode ht).1

/-- **A score bounds what comes up to its member, and the ties behind it**, in either direction. -/
theorem filter_upTo_split (h : IsRanking scoreName journal key ranking) {forward : Bool}
    {front back : Assoc Float} {e : String × Float}
    (hsplit : directed forward ranking = front ++ [e] ++ back) :
    (directed forward ranking).filter (fun other => upTo forward e.2 other.2) =
        front ++ [e] ++ back.filter (fun other => upTo forward e.2 other.2) ∧
      ∀ other ∈ back, upTo forward e.2 other.2 = true → (other.2 == e.2) = true := by
  have hmem : ∀ other ∈ front ++ [e] ++ back, other ∈ ranking := fun other hother =>
    (perm_directed forward ranking).mem_iff.mp (hsplit ▸ hother)
  have hsorted := pairwise_directed forward h.sorted
  rw [hsplit] at hsorted
  obtain ⟨hfront, -, hback⟩ := List.pairwise_append.mp hsorted
  have hlast := (List.pairwise_append.mp hfront).2.2
  have he : e ∈ ranking := hmem e (by simp)
  have hkept : ∀ other ∈ front ++ [e], upTo forward e.2 other.2 = true := by
    intro other hother
    rcases List.mem_append.mp hother with hother | hother
    · exact (h.upTo_of_ranked (hmem other (by simp [hother])) he
        (hlast other hother e (List.mem_singleton_self e))).1
    · rw [List.mem_singleton.mp hother]
      exact h.upTo_self he forward
  constructor
  · rw [hsplit, List.filter_append, List.filter_eq_self.mpr hkept]
  · intro other hother hupTo
    by_contra hne
    rw [(h.upTo_of_ranked he (hmem other (by simp [hother])) (hback e (by simp) other hother)).2
      (Bool.eq_false_of_not_eq_true hne)] at hupTo
    cases hupTo

/-- **The score at the end of its ties bounds what comes up to it**, and no more. -/
theorem filter_upTo (h : IsRanking scoreName journal key ranking) {forward : Bool}
    {front back : Assoc Float} {e : String × Float}
    (hsplit : directed forward ranking = front ++ [e] ++ back)
    (hties : ∀ other ∈ back, (other.2 == e.2) = false) :
    (directed forward ranking).filter (fun other => upTo forward e.2 other.2) = front ++ [e] := by
  obtain ⟨hfilter, htied⟩ := h.filter_upTo_split hsplit
  have hdropped : ∀ other ∈ back, ¬upTo forward e.2 other.2 = true := by
    intro other hother hupTo
    have heq := htied other hother hupTo
    rw [hties other hother] at heq
    cases heq
  rw [hfilter, List.filter_eq_nil_iff.mpr hdropped, List.append_nil]

end IsRanking

/-! ## Runs -/

namespace SortedSet

variable {client : Client} {table : Table} {key : String}

section Client

variable (h : ClientTable client.settings table)
  (hscores : ScoresEncoded client.settings.scoreName table)

include h

/-- What becomes of a count of items, whatever its pages are. -/
lemma run_cardinality_paged (hpages : table.pageBound ≤ client.maxPages) :
    (cardinality client key).run client.settings.layout.store table =
      (Scan.paged client.settings.pageSize (.error .integerTooLarge) (.ok 0)
        (.ok ((table.rows key none).length : ℤ)), table) := by
  have hbounds : ({ partition := key } : QueryRequest).bounds = .ok fun _ => true := rfl
  have hlength : (table.matching { partition := key } fun _ => true).length =
      (table.rows key none).length := by
    rw [Table.matching, (perm_sortRows _ _).length_eq, List.filter_eq_self.mpr fun _ _ => rfl]
  have hcount : (cardinality client key).run client.settings.layout.store table = _ :=
    Scan.run_count_tally h.mirrors (fun _ hindex => absurd hindex (by simp))
      (fun test row hrow => h.readItem_ok hrow) hpages
  rw [hcount, Scan.tally, hbounds]
  dsimp only
  rw [hlength]
  rfl

/-- **The cardinality is the number of items**, whether they have a score or not. -/
theorem run_cardinality (hpages : table.pageBound ≤ client.maxPages)
    (hsize : IsPageSize client.settings.pageSize) (hfits : PageFits client.settings.pageSize 0 0) :
    (cardinality client key).run client.settings.layout.store table =
      (.ok ((table.rows key none).length : ℤ), table) := by
  have hserved : IsPageLimit client.settings.pageSize := Scan.isPageLimit_of_pageFits hsize hfits
  rw [run_cardinality_paged h hpages, Scan.paged_of_isPageLimit hserved]

include hscores

/-- **The members of the ranking are the items that have a score.** -/
theorem perm_ranking (key : String) :
    (((table.rows key none).filter fun row =>
        (row.item.get? client.settings.scoreName).isSome).map fun row =>
          scored client.settings row.item).Perm (table.ranking client.settings key) := by
  have hitems : (((table.rows key none).filter fun row =>
      (row.item.get? client.settings.scoreName).isSome).map fun row =>
        scored client.settings row.item).Nodup := by
    refine List.Nodup.of_map Prod.fst ?_
    rw [List.map_map]
    exact (Table.apart_rows h.mirrors.items h.mirrors.rows key none).filter _
  have hranking := List.Nodup.of_map Prod.fst (names_ranking h.mirrors key)
  refine (List.perm_ext_iff_of_nodup hitems hranking).mpr fun ⟨member, x⟩ => ?_
  rw [mem_ranking h hscores]
  constructor
  · intro hmem
    obtain ⟨row, hrow, hscored⟩ := List.mem_map.mp hmem
    obtain ⟨hrow, hsome⟩ := List.mem_filter.mp hrow
    obtain ⟨hkey, hitem, -⟩ := (Table.mem_rows_items h.mirrors.items row).mp hrow
    obtain ⟨hmember, rfl⟩ := Prod.mk.inj hscored
    obtain ⟨value, hvalue⟩ := Option.isSome_iff_exists.mp hsome
    have hattribute : table.attribute? ⟨key, member⟩ client.settings.scoreName = some value := by
      rw [← hkey, ← hmember, Table.attribute?, hitem]
      exact hvalue
    obtain ⟨x, t, rfl, hx⟩ := hscores _ _ hattribute
    exact ⟨t, hattribute, scoreOf_encoded hx hvalue⟩
  · rintro ⟨t, hattribute, hdecode, hencode⟩
    obtain ⟨item, hitem, hget⟩ := Option.bind_eq_some_iff.mp hattribute
    have hkey := Table.key_of_find? hitem
    have hscore : scoreOf client.settings item = x :=
      Except.ok.inj ((scoreOf_encoded hencode hget).1.symm.trans hdecode)
    refine List.mem_map.mpr ⟨⟨member, item⟩, List.mem_filter.mpr ⟨?_, ?_⟩, ?_⟩
    · refine (Table.mem_rows_items h.mirrors.items _).mpr ⟨congrArg ItemKey.partition hkey, ?_, ?_⟩
      · rw [hkey]
        exact hitem
      · rw [Row.member, hkey]
    · rw [hget]
      rfl
    · rw [scored, hkey, hscore]

/-- If every item has a score, the members of the ranking are the items. -/
lemma perm_ranking_of_allScored (hscored : AllScored client.settings table key) :
    ((table.rows key none).map fun row => scored client.settings row.item).Perm
      (table.ranking client.settings key) := by
  have hall : (table.rows key none).filter (fun row =>
      (row.item.get? client.settings.scoreName).isSome) = table.rows key none := by
    refine List.filter_eq_self.mpr fun row hrow => ?_
    obtain ⟨hkey, hitem, -⟩ := (Table.mem_rows_items h.mirrors.items row).mp hrow
    exact hscored row.item (List.mem_of_find?_eq_some hitem) hkey
  have hperm := perm_ranking h hscores key
  rwa [hall] at hperm

/-- If every item has a score, there are as many items as members of the ranking. -/
lemma length_items (hscored : AllScored client.settings table key) :
    (table.rows key none).length = (table.ranking client.settings key).length := by
  rw [← (perm_ranking_of_allScored h hscores hscored).length_eq, List.length_map]

variable (hpages : table.pageBound ≤ client.maxPages) (hsize : IsPageSize client.settings.pageSize)

include hpages hsize

/-- A range without bounds is a window of the ranking. -/
lemma run_window {offset count : ℤ} (hfits : PageFits client.settings.pageSize offset count)
    (forward : Bool) :
    (rangeByScore client key none none offset count forward).run client.settings.layout.store
        table =
      (.ok (Scan.window offset.toNat count (directed forward (table.ranking client.settings key))),
        table) := by
  have hall : (directed forward (table.ranking client.settings key)).filter
      (fun e => within none none e.2) = directed forward (table.ranking client.settings key) :=
    List.filter_eq_self.mpr fun _ _ => rfl
  rw [run_rangeByScore h hscores hpages hsize isBound_none isBound_none hfits, hall]

/-- Positions that count from the start are a window from the start. -/
lemma run_rangeFrom_of_nonneg {start stop : ℤ} (hstart : 0 ≤ start) (hstop : 0 ≤ stop)
    (hword : stop < 2 ^ 62) (forward : Bool) :
    (rangeFrom client key start stop forward).run client.settings.layout.store table =
      (.ok (rankSlice start stop (directed forward (table.ranking client.settings key))),
        table) := by
  rw [rangeFrom, if_neg (fun hneg => by omega), if_neg (not_lt.mpr hstop),
    rankSlice_of_nonneg hstart hstop]
  by_cases hempty : stop < start
  · rw [if_pos hempty]
    have hzero : (stop - start + 1).toNat = 0 := by omega
    rw [hzero, List.take_zero]
    rfl
  · rw [if_neg hempty, run_window h hscores hpages hsize
      (Scan.pageFits_of_lt (by omega) (by omega)), Scan.window, if_pos (by omega)]

/-- Positions that count from the end are a window from the end, turned around. -/
lemma run_rangeFrom_of_neg {start stop : ℤ} (hstart : start < 0) (hstop : stop < 0)
    (hword : -2 ^ 62 < start) (forward : Bool) :
    (rangeFrom client key start stop forward).run client.settings.layout.store table =
      (.ok (rankSlice start stop (directed forward (table.ranking client.settings key))),
        table) := by
  rw [rangeFrom, if_pos ⟨hstart, hstop⟩, rankSlice_of_neg hstart hstop]
  by_cases hempty : stop < start
  · rw [if_pos hempty]
    have hzero : (stop - start + 1).toNat = 0 := by omega
    rw [hzero, List.take_zero]
    rfl
  · rw [if_neg hempty, Program.run_bind, run_window h hscores hpages hsize
      (Scan.pageFits_of_lt (by omega) (by omega)), Scan.window, if_pos (by omega), directed_not]
    rfl

/-- If only the last position counts from the end, the score there becomes a bound. -/
lemma run_rangeFrom_bounded {start stop : ℤ} (hstart : 0 ≤ start) (hstop : stop < 0)
    (hword : -2 ^ 62 < stop) {forward : Bool} {front back : Assoc Float} {e : String × Float}
    (hsplit : directed forward (table.ranking client.settings key) = front ++ [e] ++ back)
    (hback : back.length = (-stop - 1).toNat) :
    (rangeFrom client key start stop forward).run client.settings.layout.store table =
      (rangeByScore client key (if forward then none else some e.2)
        (if forward then some e.2 else none) start 0 forward).run client.settings.layout.store
          table := by
  have hboundary : ((front ++ [e] ++ back).reverse.drop (-stop - 1).toNat).take
      (1 : ℤ).toNat = [e] := by
    rw [List.reverse_append, List.drop_left' (by rw [List.length_reverse, hback])]
    simp
  rw [rangeFrom, if_neg (fun hneg => not_lt.mpr hstart hneg.1), if_pos hstop, Program.run_bind,
    run_window h hscores hpages hsize (Scan.pageFits_of_lt (by omega) (by omega)), Scan.window,
    if_pos (by omega), directed_not, hsplit, hboundary]
  cases forward with
  | true => rfl
  | false => rfl

/-- If the last position is before the first member, nothing is found. -/
lemma run_rangeFrom_empty {start stop : ℤ} (hstart : 0 ≤ start) (hstop : stop < 0)
    (hword : -2 ^ 62 < stop) {forward : Bool}
    (hle : (table.ranking client.settings key).length ≤ (-stop - 1).toNat) :
    (rangeFrom client key start stop forward).run client.settings.layout.store table =
      (.ok [], table) := by
  have hnone : (directed (!forward) (table.ranking client.settings key)).drop
      (-stop - 1).toNat = [] := by
    rw [List.drop_eq_nil_iff, (perm_directed _ _).length_eq]
    exact hle
  rw [rangeFrom, if_neg (fun hneg => not_lt.mpr hstart hneg.1), if_pos hstop, Program.run_bind,
    run_window h hscores hpages hsize (Scan.pageFits_of_lt (by omega) (by omega)), Scan.window,
    if_pos (by omega), hnone]
  rfl

/-- **If only the last position counts from the end**, what is found up to the score there is the
slice, if no tie goes on behind it. -/
theorem run_rangeFrom_of_stop_neg {start stop : ℤ} (hstart : 0 ≤ start) (hstop : stop < 0)
    (hword : -2 ^ 62 < stop) {forward : Bool} (hfits : PageFits client.settings.pageSize 0 0)
    {journal : List Call}
    (hr : IsRanking client.settings.scoreName journal key (table.ranking client.settings key))
    (hties : EndsTies (directed forward (table.ranking client.settings key))
      ((table.ranking client.settings key).length + stop)) :
    (rangeFrom client key start stop forward).run client.settings.layout.store table =
      (.ok (rankSlice start stop (directed forward (table.ranking client.settings key))),
        table) := by
  have hlength := (perm_directed forward (table.ranking client.settings key)).length_eq
  by_cases hlt : (-stop - 1).toNat < (directed forward (table.ranking client.settings key)).length
  · obtain ⟨front, e, back, hsplit, hback⟩ := exists_split hlt
    have hlast : (front.length : ℤ) = (table.ranking client.settings key).length + stop := by
      rw [← hlength, hsplit, List.length_append, List.length_append, List.length_singleton]
      rw [← hback] at hlt
      omega
    have hfilter := hr.filter_upTo hsplit (hties front e back (by simp [hsplit]) hlast)
    have he : e ∈ table.ranking client.settings key :=
      (perm_directed forward _).mem_iff.mp (by simp [hsplit])
    have hscan : PageFits client.settings.pageSize start 0 := hfits
    rw [run_rangeFrom_bounded h hscores hpages hsize hstart hstop hword hsplit hback, hsplit,
      rankSlice_split hstart hstop hback, ← hfilter]
    cases forward with
    | true =>
        rw [← within_none_some]
        exact run_rangeByScore h hscores hpages hsize isBound_none (hr.isBound he) hscan true
    | false =>
        rw [← within_some_none]
        exact run_rangeByScore h hscores hpages hsize (hr.isBound he) isBound_none hscan false
  · rw [run_rangeFrom_empty h hscores hpages hsize hstart hstop hword (by omega),
      rankSlice_of_length_le hstop (by omega)]

/-- The score of a member can be a bound only if the pages behind it can be asked for. -/
theorem run_rangeFrom_refused {start stop : ℤ} (hstart : 0 ≤ start) (hstop : stop < 0)
    (hword : -2 ^ 62 < stop) (forward : Bool) (hfits : ¬PageFits client.settings.pageSize 0 0)
    {journal : List Call}
    (hr : IsRanking client.settings.scoreName journal key (table.ranking client.settings key))
    (hlt : (-stop - 1).toNat < (table.ranking client.settings key).length) :
    (rangeFrom client key start stop forward).run client.settings.layout.store table =
      (.error .integerTooLarge, table) := by
  have hdirected := perm_directed forward (table.ranking client.settings key)
  obtain ⟨front, e, back, hsplit, hback⟩ := exists_split (hdirected.length_eq ▸ hlt)
  have he := hr.isBound (hdirected.mem_iff.mp (by simp [hsplit]) : e ∈ _)
  have hscan : ¬PageFits client.settings.pageSize start 0 := hfits
  have hmax : 0 < client.maxPages := Nat.lt_of_lt_of_le (Nat.succ_pos _) hpages
  rw [run_rangeFrom_bounded h hscores hpages hsize hstart hstop hword hsplit hback]
  cases forward with
  | true => exact run_rangeByScore_refused h.mirrors.isOpen hmax isBound_none he hscan true
  | false => exact run_rangeByScore_refused h.mirrors.isOpen hmax he isBound_none hscan false

/-- **Reads by rank find the slice of the ranking**, as long as a page of the table can be asked
for, items are members and ties end where a score has to tell a position. -/
theorem run_rangeByRank {start stop : ℤ} (hstart : |start| < 2 ^ 62) (hstop : |stop| < 2 ^ 62)
    {forward : Bool} {journal : List Call}
    (hr : IsRanking client.settings.scoreName journal key (table.ranking client.settings key))
    (hcount : start < 0 → 0 ≤ stop →
      PageFits client.settings.pageSize 0 0 ∧ AllScored client.settings table key)
    (hbound : 0 ≤ start → stop < 0 → PageFits client.settings.pageSize 0 0 ∧
      EndsTies (directed forward (table.ranking client.settings key))
        ((table.ranking client.settings key).length + stop)) :
    (rangeByRank client key start stop forward).run client.settings.layout.store table =
      (.ok (rankSlice start stop (directed forward (table.ranking client.settings key))),
        table) := by
  rw [abs_lt] at hstart hstop
  rw [rangeByRank]
  rcases lt_or_ge start 0 with hstart0 | hstart0
  · rcases lt_or_ge stop 0 with hstop0 | hstop0
    · rw [if_neg (fun hmixed => not_le.mpr hstop0 hmixed.2),
        run_rangeFrom_of_neg h hscores hpages hsize hstart0 hstop0 hstart.1]
    · obtain ⟨hfits, hscored⟩ := hcount hstart0 hstop0
      rw [if_pos ⟨hstart0, hstop0⟩, Program.run_bind, run_cardinality h hpages hsize hfits,
        length_items h hscores hscored]
      dsimp only
      rw [run_rangeFrom_of_nonneg h hscores hpages hsize (le_max_right _ _) hstop0 hstop.2,
        ← (perm_directed forward (table.ranking client.settings key)).length_eq,
        rankSlice_clamp hstart0]
  · rw [if_neg (fun hmixed => not_lt.mpr hstart0 hmixed.1)]
    rcases lt_or_ge stop 0 with hstop0 | hstop0
    · obtain ⟨hfits, hties⟩ := hbound hstart0 hstop0
      exact run_rangeFrom_of_stop_neg h hscores hpages hsize hstart0 hstop0 hstop.1 hfits hr
        hties
    · rw [run_rangeFrom_of_nonneg h hscores hpages hsize hstart0 hstop0 hstop.2]

end Client

end SortedSet

/-! ## What clients are answered -/

section Reached

variable {settings : Settings} {geometry : Geometry} {journal : List Call} {table : Table}

/-- A range up to the last member is refused if the pages of the table cannot be asked for. -/
theorem range_to_last_refused (h : Reached settings geometry journal table)
    (hnames : settings.scoreName ≠ settings.locationName) (hsize : IsPageSize settings.pageSize)
    {key member : String} {value : Value}
    (hwritten : lastWritten ⟨key, member⟩ settings.scoreName journal = some value)
    (hfits : ¬PageFits settings.pageSize 0 0) {start : ℤ} (hstart : 0 ≤ start) (forward : Bool) :
    (Connection.embedded settings.layout table).runCommand settings geometry
        (.rangeByRank key start (-1) forward) =
      (.error .integerTooLarge, .embedded settings.layout table) := by
  have htable : ClientTable (Client.mk settings table.pageBound).settings table := h.clientTable
  have hscores := htable.score hnames
  have hr := isRanking h hnames key
  obtain ⟨x, hx⟩ := hr.complete member value hwritten
  have hlt : (-(-1 : ℤ) - 1).toNat < (table.ranking settings key).length :=
    List.length_pos_of_mem hx
  have hrange := SortedSet.run_rangeFrom_refused htable hscores (Nat.le_refl _) hsize hstart
    (by decide) (by decide) forward hfits hr hlt
  refine runCommand_of_run ?_
  rw [Command.program, SortedSet.rangeByRank, if_neg (fun hmixed => not_lt.mpr hstart hmixed.1),
    ← bind_pure_comp, Program.run_bind, hrange]

end Reached

end RankedTable

import RankedTable.Proofs.Command.Reached
import RankedTable.Proofs.Score.RoundTrip
import RankedTable.Proofs.Table.Rows

/-!
# The ranking of a collection

The index on scores, read in order, is the sorted set: each member that has a score, by ascending
score and then by name.  What it holds is told by the journal alone.

* `scoreOf`, `Table.ranking` — the members of a collection with their scores, in order.
* `IsRanking` — the sorted set that a journal tells.
* `IsRanking.unique` — a journal tells of one sorted set only.
* `score_row` — an index row has the encoding of the score it is read as.
* **`isRanking`** — the ranking of a client's table is the one its journal tells.
* `get?_ranking` — the score of a member.
-/

namespace RankedTable

/-- Two members of a sorted set in ascending order: by score, then by name. -/
def Ranked (a b : String × Float) : Prop :=
  a.2 < b.2 ∨ (a.2 == b.2) = true ∧ a.1 < b.1

/-- The sorted set that a journal tells of a collection: its members in order, each with the score
written last, and no member with a score left out. -/
structure IsRanking (scoreName : String) (journal : List Call) (key : String)
    (ranking : Assoc Float) : Prop where
  sorted : ranking.Pairwise Ranked
  written : ∀ member x, (member, x) ∈ ranking → ∃ t, Score.encode x = .ok t ∧
    Score.decode t = .ok x ∧ lastWritten ⟨key, member⟩ scoreName journal = some (.text t)
  complete : ∀ member value, lastWritten ⟨key, member⟩ scoreName journal = some value →
    ∃ x, (member, x) ∈ ranking

/-- The score of an item; zero if it has none. -/
def scoreOf (settings : Settings) (item : Item) : Float :=
  match item.get? settings.scoreName with
  | some (.text encoded) => (Score.decode encoded).toOption.getD 0.0
  | _ => 0.0

/-- A member with its score. -/
def scored (settings : Settings) (item : Item) : String × Float :=
  (item.key.member, scoreOf settings item)

/-- The members of a collection that have a score, in ascending order. -/
def Table.ranking (settings : Settings) (table : Table) (key : String) : Assoc Float :=
  (sortRows true (table.rows key (some settings.scoreName))).map fun row =>
    scored settings row.item

variable {settings : Settings} {geometry : Geometry} {journal : List Call} {table : Table}
  {key : String}

/-! ## One ranking -/

namespace IsRanking

variable {scoreName : String} {ranking other : Assoc Float}

/-- Two members of a ranking do not precede each other. -/
lemma asymm (h : IsRanking scoreName journal key ranking) {a b : String × Float}
    (ha : a ∈ ranking) (hb : b ∈ ranking) (hab : Ranked a b) : ¬ Ranked b a := by
  obtain ⟨s, hs, -⟩ := h.written _ _ ha
  obtain ⟨t, ht, -⟩ := h.written _ _ hb
  intro hba
  rw [Ranked, ← Score.encode_lt_iff hs ht, ← Score.encode_eq_iff hs ht] at hab
  rw [Ranked, ← Score.encode_lt_iff ht hs, ← Score.encode_eq_iff ht hs] at hba
  rcases hab with hlt | ⟨heq, hlt⟩ <;> rcases hba with hlt' | ⟨heq', hlt'⟩
  · exact String.lt_asymm hlt hlt'
  · exact String.lt_irrefl _ (heq' ▸ hlt)
  · exact String.lt_irrefl _ (heq ▸ hlt')
  · exact String.lt_asymm hlt hlt'

lemma nodup (h : IsRanking scoreName journal key ranking) : ranking.Nodup :=
  h.sorted.imp_of_mem fun ha hb hab heq => h.asymm ha hb hab (heq ▸ hab)

/-- A score of one ranking is that of the other. -/
lemma subset (h : IsRanking scoreName journal key ranking)
    (hother : IsRanking scoreName journal key other) {e : String × Float} (he : e ∈ ranking) :
    e ∈ other := by
  obtain ⟨member, x⟩ := e
  obtain ⟨t, -, hdecode, hwritten⟩ := h.written _ _ he
  obtain ⟨y, hy⟩ := hother.complete _ _ hwritten
  obtain ⟨t', -, hdecode', hwritten'⟩ := hother.written _ _ hy
  obtain rfl : t = t' := Value.text.inj (Option.some_inj.mp (hwritten.symm.trans hwritten'))
  obtain rfl : x = y := Except.ok.inj (hdecode.symm.trans hdecode')
  exact hy

/-- **A journal tells of one sorted set only.** -/
theorem unique (h : IsRanking scoreName journal key ranking)
    (hother : IsRanking scoreName journal key other) : ranking = other := by
  have hperm : ranking.Perm other := (List.perm_ext_iff_of_nodup h.nodup hother.nodup).mpr
    fun _ => ⟨h.subset hother, hother.subset h⟩
  refine hperm.eq_of_pairwise (fun a b ha hb hab hba => ?_) h.sorted hother.sorted
  exact absurd hba (h.asymm ha (hperm.mem_iff.mpr hb) hab)

end IsRanking

/-! ## Rows as members -/

/-- The score of an item whose score attribute is an encoding. -/
lemma scoreOf_encoded {item : Item} {x : Float} {t : String} (hx : Score.encode x = .ok t)
    (hitem : item.get? settings.scoreName = some (.text t)) :
    Score.decode t = .ok (scoreOf settings item) ∧
      Score.encode (scoreOf settings item) = .ok t := by
  obtain ⟨y, hdecode, hencode⟩ := Score.encode_decode hx
  have hscore : scoreOf settings item = y := by
    rw [scoreOf, hitem]
    simp only [hdecode, Except.toOption, Option.getD_some]
  rw [hscore]
  exact ⟨hdecode, hencode⟩

/-- Each member is in the ranking once. -/
lemma names_ranking (h : Mirrors settings.layout table) (key : String) :
    (Assoc.names (table.ranking settings key)).Nodup := by
  have hapart := Table.apart_rows h.items h.rows key (some settings.scoreName)
  rw [Assoc.names, Table.ranking, List.map_map]
  exact ((perm_sortRows true _).map Row.member).nodup_iff.mpr hapart

section Client

variable (h : ClientTable settings table) (hscores : ScoresEncoded settings.scoreName table)

include h hscores

/-- **A row of the index on scores** has the encoding of the score that its item is read as. -/
theorem score_row {row : Row} (hrow : row ∈ table.rows key (some settings.scoreName)) :
    row.item.get? settings.scoreName = some (.text row.sortText) ∧
      Score.decode row.sortText = .ok (scoreOf settings row.item) ∧
      Score.encode (scoreOf settings row.item) = .ok row.sortText := by
  obtain ⟨-, hitem, htext⟩ := (Table.mem_rows_index h.mirrors.rows row).mp hrow
  have hattribute : table.attribute? row.item.key settings.scoreName =
      row.item.get? settings.scoreName := by
    rw [Table.attribute?, hitem]
    rfl
  rw [h.mirrors.row] at htext
  split_ifs at htext with hindexed
  obtain ⟨value, hvalue, hsort⟩ := Option.bind_eq_some_iff.mp htext
  obtain ⟨x, t, rfl, hx⟩ := hscores _ _ hvalue
  obtain rfl : t = row.sortText := Option.some_inj.mp hsort
  rw [hattribute] at hvalue
  exact ⟨hvalue, scoreOf_encoded hx hvalue⟩

/-- Rows of the index on scores compare as the members they stand for. -/
lemma ranked_of_before {a b : Row} (ha : a ∈ table.rows key (some settings.scoreName))
    (hb : b ∈ table.rows key (some settings.scoreName)) (hab : a.Before b) :
    Ranked (scored settings a.item) (scored settings b.item) := by
  obtain ⟨-, -, hax⟩ := score_row h hscores ha
  obtain ⟨-, -, hbx⟩ := score_row h hscores hb
  rcases hab with hlt | ⟨heq, hmember⟩
  · exact Or.inl ((Score.encode_lt_iff hax hbx).mp hlt)
  · exact Or.inr ⟨(Score.encode_eq_iff hax hbx).mp heq, hmember⟩

/-- The members of the ranking are the items that have a score. -/
lemma mem_ranking {member : String} {x : Float} :
    (member, x) ∈ table.ranking settings key ↔
      ∃ t, table.attribute? ⟨key, member⟩ settings.scoreName = some (.text t) ∧
        Score.decode t = .ok x ∧ Score.encode x = .ok t := by
  rw [Table.ranking, List.mem_map]
  constructor
  · rintro ⟨row, hrow, hscored⟩
    have hrow := mem_sortRows.mp hrow
    obtain ⟨hget, hdecode, hencode⟩ := score_row h hscores hrow
    obtain ⟨hcollection, hitem, -⟩ := (Table.mem_rows_index h.mirrors.rows row).mp hrow
    obtain ⟨hmember, hscore⟩ := Prod.mk.inj hscored
    have hkey : row.item.key = ⟨key, member⟩ := ItemKey.ext hcollection hmember
    refine ⟨row.sortText, ?_, hscore ▸ hdecode, hscore ▸ hencode⟩
    rw [Table.attribute?, ← hkey, hitem]
    exact hget
  · rintro ⟨t, hattribute, hdecode, hencode⟩
    obtain ⟨item, hitem, hget⟩ := Option.bind_eq_some_iff.mp hattribute
    have hkey := Table.key_of_find? hitem
    have hscore : scoreOf settings item = x := by
      obtain ⟨hdecode', -⟩ := scoreOf_encoded hencode hget
      rw [hdecode'] at hdecode
      exact Except.ok.inj hdecode
    refine ⟨⟨t, item⟩, mem_sortRows.mpr ?_, ?_⟩
    · refine (Table.mem_rows_index h.mirrors.rows _).mpr ⟨congrArg ItemKey.partition hkey, ?_, ?_⟩
      · rw [hkey]
        exact hitem
      · have hindexed : settings.scoreName ∈ settings.layout.indexed := List.mem_cons_self ..
        rw [hkey, h.mirrors.row, if_pos hindexed, hattribute]
        rfl
    · rw [scored, hkey, hscore]

lemma sorted_ranking : (table.ranking settings key).Pairwise Ranked := by
  have hapart := Table.apart_rows h.mirrors.items h.mirrors.rows key
    (some settings.scoreName)
  rw [Table.ranking, List.pairwise_map]
  refine List.Pairwise.imp_of_mem (fun {a b} ha hb hab => ?_) (pairwise_sortRows hapart true)
  exact ranked_of_before h hscores (mem_sortRows.mp ha) (mem_sortRows.mp hb) hab

/-- The score of a member of the ranking is what its attribute decodes to. -/
lemma get?_ranking (key member : String) :
    (table.attribute? ⟨key, member⟩ settings.scoreName = none ∧
        Assoc.get? (table.ranking settings key) member = none) ∨
      ∃ t x, table.attribute? ⟨key, member⟩ settings.scoreName = some (.text t) ∧
        Score.decode t = .ok x ∧ Assoc.get? (table.ranking settings key) member = some x := by
  have hnodup := names_ranking h.mirrors key
  cases hattribute : table.attribute? ⟨key, member⟩ settings.scoreName with
  | none =>
      refine Or.inl ⟨rfl, Option.eq_none_iff_forall_ne_some.mpr fun x hx => ?_⟩
      obtain ⟨t, ht, -⟩ := (mem_ranking h hscores).mp ((Assoc.get?_eq_some_iff hnodup).mp hx)
      rw [hattribute] at ht
      simp at ht
  | some value =>
      obtain ⟨x, t, rfl, hx⟩ := hscores _ _ hattribute
      obtain ⟨y, hdecode, hencode⟩ := Score.encode_decode hx
      exact Or.inr ⟨t, y, rfl, hdecode, (Assoc.get?_eq_some_iff hnodup).mpr
        ((mem_ranking h hscores).mpr ⟨t, hattribute, hdecode, hencode⟩)⟩

end Client

/-- The ranking of a client's table is the sorted set that its journal tells, if all scores are
encodings. -/
lemma isRanking_of_scoresEncoded (h : Reached settings geometry journal table)
    (hscores : ScoresEncoded settings.scoreName table) (key : String) :
    IsRanking settings.scoreName journal key (table.ranking settings key) := by
  refine ⟨sorted_ranking h.clientTable hscores, ?_, ?_⟩
  · intro member x hmem
    obtain ⟨t, hattribute, hdecode, hencode⟩ := (mem_ranking h.clientTable hscores).mp hmem
    exact ⟨t, hencode, hdecode, h.attribute?_eq _ _ ▸ hattribute⟩
  · intro member value hwritten
    rw [← h.attribute?_eq] at hwritten
    obtain ⟨x, t, rfl, hx⟩ := hscores _ _ hwritten
    obtain ⟨y, hdecode, hencode⟩ := Score.encode_decode hx
    exact ⟨y, (mem_ranking h.clientTable hscores).mpr ⟨t, hwritten, hdecode, hencode⟩⟩

/-- **The ranking of a client's table is the sorted set that its journal tells.** -/
theorem isRanking (h : Reached settings geometry journal table)
    (hnames : settings.scoreName ≠ settings.locationName) (key : String) :
    IsRanking settings.scoreName journal key (table.ranking settings key) :=
  isRanking_of_scoresEncoded h (h.clientTable.score hnames) key

end RankedTable

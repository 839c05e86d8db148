import RankedTable.Proofs.SortedSet.RankReads
import RankedTable.Proofs.Store.Batches

/-!
# Removal by rank

Members are first read by rank and then deleted one by one.  So exactly those that were read are
gone, and they are counted.  Where only the last position counts from the end, what is read goes on
to the end of the ties there, and so does what is removed.

* `Table.without` — a table without some members of a collection.
* `applied_removal`, `run_remove` — members that are there are deleted and counted.
* `run_remove_failed`, `run_removeFetched_failed` — if the store fails a deletion, those before it
  were made.
* `rankSelection` — the members that a removal by rank reads; `rankSelection_split` — the slice, and
  what is tied with its end.
* `run_removeByRank` — they are removed from a client's table, and no others.
* **`remove_by_rank_eq_selection`** — in every table that commands on sorted sets lead to, they are
  those of the sorted set that the journal tells.
-/

namespace RankedTable

open Scan (PageFits IsPageSize)

/-! ## Tables without some members -/

namespace Table

/-- The table without the items of some members of a collection, and without their index rows. -/
def without (table : Table) (key : String) (members : List String) : Table :=
  { table with
    items := table.items.filter fun item =>
      ¬(item.key.partition = key ∧ item.key.member ∈ members)
    index := table.index.filter fun row => ¬(row.key.partition = key ∧ row.key.member ∈ members) }

lemma without_nil (table : Table) (key : String) : table.without key [] = table := by
  simp [without]

lemma without_remove (table : Table) (key member : String) (members : List String) :
    (table.remove ⟨key, member⟩).without key members = table.without key (member :: members) := by
  have hkey : ∀ k : ItemKey, (¬(k.partition = key ∧ k.member ∈ members) ∧ k ≠ ⟨key, member⟩) ↔
      ¬(k.partition = key ∧ k.member ∈ member :: members) := by
    intro k
    rw [ne_eq, ItemKey.mk.injEq, List.mem_cons]
    tauto
  simp only [without, remove, List.filter_filter]
  congr 1
  · refine List.filter_congr fun item _ => ?_
    rw [← Bool.decide_and]
    exact decide_eq_decide.mpr (hkey item.key)
  · refine List.filter_congr fun row _ => ?_
    rw [← Bool.decide_and]
    exact decide_eq_decide.mpr (hkey row.key)

lemma without_append (table : Table) (key : String) (front back : List String) :
    (table.without key front).without key back = table.without key (front ++ back) := by
  induction front generalizing table with
  | nil => rw [without_nil, List.nil_append]
  | cons member rest ih =>
      rw [← without_remove, ih, List.cons_append, without_remove]

/-- What is left has the attributes that it had. -/
lemma attribute?_without (table : Table) (key : String) (members : List String)
    (address : ItemKey) (name : String) :
    (table.without key members).attribute? address name =
      if address.partition = key ∧ address.member ∈ members then none
      else table.attribute? address name := by
  induction members generalizing table with
  | nil => rw [without_nil, if_neg (fun h => List.not_mem_nil h.2)]
  | cons member rest ih =>
      rw [← without_remove, ih, attribute?_remove]
      have hkey : (⟨key, member⟩ : ItemKey) = address ↔
          address.partition = key ∧ address.member = member :=
        ⟨fun h => h ▸ ⟨rfl, rfl⟩, fun h => (ItemKey.ext h.1 h.2).symm⟩
      simp only [List.mem_cons, hkey]
      split_ifs <;> tauto

end Table

/-! ## What is read -/

/-- The members that a removal by rank reads: those at the positions from `start` to `stop`; if only
the last position counts from the end, those from `start` on up to the score there. -/
def rankSelection (start stop : ℤ) (ranking : Assoc Float) : Assoc Float :=
  if 0 ≤ start ∧ stop < 0 then
    match ranking.reverse[(-stop - 1).toNat]? with
    | some last => (ranking.filter fun e => upTo true last.2 e.2).drop start.toNat
    | none => []
  else rankSlice start stop ranking

lemma rankSelection_sublist (start stop : ℤ) (ranking : Assoc Float) :
    List.Sublist (rankSelection start stop ranking) ranking := by
  rw [rankSelection]
  split_ifs
  · cases ranking.reverse[(-stop - 1).toNat]? with
    | some last => exact (List.drop_sublist _ _).trans List.filter_sublist
    | none => exact List.nil_sublist _
  · exact (List.drop_sublist _ _).trans (List.take_sublist _ _)

/-- A split of a ranking at a position counted from the end tells the member there. -/
lemma getElem?_reverse_split {front back : Assoc Float} {e : String × Float} :
    (front ++ [e] ++ back).reverse[back.length]? = some e := by
  simp

section Selection

variable {scoreName key : String} {journal : List Call} {ranking : Assoc Float} {start stop : ℤ}

/-- **What is read is the slice, and behind it only members tied with the last position.** -/
theorem rankSelection_split (hr : IsRanking scoreName journal key ranking) (start stop : ℤ) :
    ∃ ties, rankSelection start stop ranking = rankSlice start stop ranking ++ ties ∧
      ∀ e ∈ ties, 0 ≤ start ∧ stop < 0 ∧
        ∃ last, ranking.reverse[(-stop - 1).toNat]? = some last ∧ (e.2 == last.2) = true := by
  rw [rankSelection]
  split_ifs with hmixed
  · by_cases hlt : (-stop - 1).toNat < ranking.length
    · obtain ⟨front, last, back, hsplit, hback⟩ := exists_split hlt
      have hdirected : directed true ranking = front ++ [last] ++ back := hsplit
      obtain ⟨hfilter, htied⟩ := hr.filter_upTo_split hdirected
      have hlast : ranking.reverse[(-stop - 1).toNat]? = some last := by
        rw [hsplit, ← hback, getElem?_reverse_split]
      have hslice : rankSlice start stop ranking = (front ++ [last]).drop start.toNat := by
        rw [hsplit, rankSlice_split hmixed.1 hmixed.2 hback]
      refine ⟨(back.filter fun other => upTo true last.2 other.2).drop
        (start.toNat - (front ++ [last]).length), ?_,
        fun e he => ⟨hmixed.1, hmixed.2, last, hlast, ?_⟩⟩
      · rw [hlast, hslice, ← List.drop_append]
        exact congrArg (List.drop start.toNat) hfilter
      · obtain ⟨hback, hupTo⟩ := List.mem_filter.mp (List.mem_of_mem_drop he)
        exact htied e hback hupTo
    · have hnone : ranking.reverse[(-stop - 1).toNat]? = none := by
        rw [List.getElem?_eq_none_iff, List.length_reverse]
        omega
      refine ⟨[], ?_, fun e he => absurd he List.not_mem_nil⟩
      rw [hnone, rankSlice_of_length_le hmixed.2 (by omega), List.append_nil]
  · exact ⟨[], (List.append_nil _).symm, fun e he => absurd he List.not_mem_nil⟩

end Selection

/-! ## Deletions -/

/-- The deletion of a member that is there. -/
def removal (key member : String) : Write :=
  .delete ⟨key, member⟩ [.itemPresent]

section Removal

variable {settings : Settings} {table : Table} (h : ClientTable settings table) (key : String)

include h

lemma obeys_removal (member : String) :
    (removal key member).Obeys settings.layout table id := by
  cases hitem : table.find? ⟨key, member⟩ with
  | some item =>
      refine Write.obeys_of_ok (congrArg Option.isSome hitem) ?_
      change (Layout.commit table _).1 = .ok ()
      rw [h.delete_present hitem]
      rfl
  | none =>
      refine .inr ⟨congrArg Option.isSome hitem,
        .condition .present Condition.keyAttribute ⟨key, member⟩, ?_⟩
      change Layout.commit table (settings.layout.delete table ⟨key, member⟩ _) = _
      rw [Layout.delete, if_pos h.mirrors.isOpen, h.load_eq, hitem]
      rfl

omit h in
/-- Deletions can be made as a batch. -/
lemma isBatch_removal (members : List String) :
    IsBatch settings.layout (ClientTable settings) .delete id true
      (members.map (removal key)) where
  kept := List.forall_mem_map.mpr fun _ _ _ h => h.write (.delete _ _)
  obeys := List.forall_mem_map.mpr fun member _ _ h => obeys_removal h key member
  misses := .inl rfl
  calls := List.forall_mem_map.mpr fun _ _ => rfl

/-- **Members that are there are deleted and counted**, and nothing else is touched. -/
theorem applied_removal {members : List String} (hnodup : members.Nodup)
    (hpresent : ∀ member ∈ members, (table.find? ⟨key, member⟩).isSome) :
    settings.layout.applied id (members.map (removal key)) table =
      (members.length, table.without key members) := by
  induction members generalizing table with
  | nil => exact Prod.ext rfl (Table.without_nil table key).symm
  | cons member rest ih =>
      obtain ⟨hnew, hrest⟩ := List.nodup_cons.mp hnodup
      have hmember : id (table.find? (removal key member).key).isSome = true :=
        hpresent member (List.mem_cons_self ..)
      have hdelete : settings.layout.write table (removal key member).unconditional =
          (.ok (), table.remove ⟨key, member⟩) := by
        change Layout.commit table (settings.layout.delete table ⟨key, member⟩ []) = _
        rw [Layout.delete, if_pos h.mirrors.isOpen, h.load_eq]
        rfl
      have hnext : ClientTable settings
          (settings.layout.write table (removal key member).unconditional).2 :=
        h.write (.delete _ _)
      have hothers : ∀ other ∈ rest,
          ((table.remove ⟨key, member⟩).find? ⟨key, other⟩).isSome := by
        intro other hother
        have hne : (⟨key, member⟩ : ItemKey) ≠ ⟨key, other⟩ := fun heq =>
          hnew ((ItemKey.mk.inj heq).2 ▸ hother)
        rw [Table.find?_remove, if_neg hne]
        exact hpresent other (List.mem_cons_of_mem _ hother)
      rw [hdelete] at hnext
      rw [List.map_cons, Layout.applied, if_pos hmember, hdelete, ih hnext hrest hothers,
        Table.without_remove, List.length_cons]

end Removal

/-! ## Runs -/

namespace SortedSet

variable {client : Client} {table : Table} {key : String}

/-- A removal makes the deletions of its members as a batch. -/
lemma remove_eq (key : String) (members : List String) :
    remove key members =
      Program.countWrites true 0 ((members.map (removal key)).map Write.program) := by
  rw [remove, List.map_map]
  rfl

section Present

variable (h : ClientTable client.settings table) {members : List String} (hnodup : members.Nodup)
  (hpresent : ∀ member ∈ members, (table.find? ⟨key, member⟩).isSome)

include h hnodup hpresent

/-- **Members that are there are deleted and counted.** -/
theorem run_remove :
    (remove key members).run client.settings.layout.store table =
      (.ok members.length, table.without key members) := by
  rw [remove_eq, (isBatch_removal key members).run_store h, applied_removal h key hnodup hpresent]

/-- **If the store fails a deletion, the members before it are gone**, and counted with the
failure. -/
theorem run_remove_failed {outage : Outage} {j : ℕ} {e : Error} (hfails : DeletionFails outage j e)
    (hfirst : 1 ≤ j) (hlast : j ≤ members.length) (hmiss : e.isMiss = false)
    {calls : List Call} (hcalls : callCount .delete calls = 0) :
    ∃ made, (remove key members).run (client.settings.layout.store.failing outage)
        (calls, table) =
      (.error (e.withSoFar (.count (j - 1 : ℕ))), made,
        table.without key (members.take (j - 1))) := by
  have hstrikes : outage.Strikes .delete ((members.map (removal key)).map Write.call) j e :=
    ⟨hfirst, by rwa [List.length_map, List.length_map], hfails.before, hfails.fails⟩
  have hfront := applied_removal h key (hnodup.sublist (List.take_sublist (j - 1) members))
    fun member hmember => hpresent member (List.mem_of_mem_take hmember)
  have hlength : (members.take (j - 1)).length = j - 1 := List.length_take_of_le (by omega)
  rw [remove_eq, (isBatch_removal key members).run_strikes h hmiss hstrikes hcalls,
    ← List.map_take, hfront, hlength]
  exact ⟨_, rfl⟩

end Present

section Client

variable (h : ClientTable client.settings table)
  (hscores : ScoresEncoded client.settings.scoreName table)

include h hscores

/-- Members of the ranking are there. -/
lemma isSome_find?_of_ranking {members : Assoc Float}
    (hmembers : ∀ e ∈ members, e ∈ table.ranking client.settings key) :
    ∀ member ∈ members.names, (table.find? ⟨key, member⟩).isSome := by
  intro member hmember
  obtain ⟨⟨name, x⟩, hx, rfl⟩ := List.mem_map.mp hmember
  obtain ⟨t, hattribute, -⟩ := (mem_ranking h hscores).mp (hmembers _ hx)
  obtain ⟨item, hitem, -⟩ := Option.bind_eq_some_iff.mp hattribute
  exact Option.isSome_iff_exists.mpr ⟨item, hitem⟩

section Fetched

variable {members : Assoc Float} (hnodup : members.names.Nodup)
  (hmembers : ∀ e ∈ members, e ∈ table.ranking client.settings key)

include hnodup hmembers

/-- Members of the ranking are deleted and counted. -/
lemma run_removeFetched :
    (removeFetched key members).run client.settings.layout.store table =
      (.ok members.length, table.without key members.names) := by
  have hpresent := isSome_find?_of_ranking h hscores hmembers
  rw [removeFetched, Program.run_withSoFar, run_remove h hnodup hpresent, Assoc.names,
    List.length_map]
  rfl

/-- **If the store fails a deletion, the members fetched before it are gone**, and the failure tells
all that were fetched. -/
theorem run_removeFetched_failed {outage : Outage} {j : ℕ} {fault : StoreFault}
    {soFar : Option Gathered} (hfails : DeletionFails outage j (.store fault soFar))
    (hfirst : 1 ≤ j) (hlast : j ≤ members.length) {calls : List Call}
    (hcalls : callCount .delete calls = 0) :
    ∃ made, (removeFetched key members).run (client.settings.layout.store.failing outage)
        (calls, table) =
      (.error (.store fault (some (.scores members))), made,
        table.without key (members.names.take (j - 1))) := by
  have hpresent := isSome_find?_of_ranking h hscores hmembers
  rw [← List.length_map Prod.fst] at hlast
  obtain ⟨made, hrun⟩ := run_remove_failed h hnodup hpresent hfails hfirst hlast rfl hcalls
  refine ⟨made, ?_⟩
  rw [removeFetched, Program.run_withSoFar, hrun]
  rfl

end Fetched

variable (hpages : table.pageBound ≤ client.maxPages) (hsize : IsPageSize client.settings.pageSize)
  {start stop : ℤ} (hstart : |start| < 2 ^ 62) (hstop : |stop| < 2 ^ 62) {journal : List Call}
  (hr : IsRanking client.settings.scoreName journal key (table.ranking client.settings key))
  (hall : AllScored client.settings table key)
  (hfits : start < 0 ∧ 0 ≤ stop ∨ 0 ≤ start ∧ stop < 0 → PageFits client.settings.pageSize 0 0)

include hpages hsize hstart hstop hr hall hfits

/-- **What a removal reads** by rank, whether ties go on behind the last position or not. -/
theorem run_rangeByRank_selection :
    (rangeByRank client key start stop true).run client.settings.layout.store table =
      (.ok (rankSelection start stop (table.ranking client.settings key)), table) := by
  rw [rankSelection]
  split_ifs with hmixed
  · obtain ⟨hstart0, hstop0⟩ := hmixed
    have hword := (abs_lt.mp hstop).1
    rw [rangeByRank, if_neg (fun hmixed => not_lt.mpr hstart0 hmixed.1)]
    by_cases hlt : (-stop - 1).toNat < (table.ranking client.settings key).length
    · obtain ⟨front, last, back, hsplit, hback⟩ := exists_split hlt
      have hdirected : directed true (table.ranking client.settings key) =
        front ++ [last] ++ back := hsplit
      have hlast : (table.ranking client.settings key).reverse[(-stop - 1).toNat]? = some last := by
        rw [hsplit, ← hback, getElem?_reverse_split]
      have hmem : last ∈ table.ranking client.settings key := by simp [hsplit]
      have hscan : PageFits client.settings.pageSize start 0 := hfits (Or.inr ⟨hstart0, hstop0⟩)
      rw [run_rangeFrom_bounded h hscores hpages hsize hstart0 hstop0 hword hdirected hback, hlast]
      dsimp only
      rw [← within_none_some]
      exact run_rangeByScore h hscores hpages hsize isBound_none (hr.isBound hmem) hscan true
    · have hnone : (table.ranking client.settings key).reverse[(-stop - 1).toNat]? = none := by
        rw [List.getElem?_eq_none_iff, List.length_reverse]
        omega
      rw [run_rangeFrom_empty h hscores hpages hsize hstart0 hstop0 hword (by omega), hnone]
  · exact run_rangeByRank h hscores hpages hsize hstart hstop hr
      (fun hstart0 hstop0 => ⟨hfits (Or.inl ⟨hstart0, hstop0⟩), hall⟩)
      (fun hstart0 hstop0 => absurd ⟨hstart0, hstop0⟩ hmixed)

/-- **A removal by rank removes what it reads, and counts it.** -/
theorem run_removeByRank :
    (removeByRank client key start stop).run client.settings.layout.store table =
      (.ok (rankSelection start stop (table.ranking client.settings key)).length,
        table.without key
          (Assoc.names (rankSelection start stop (table.ranking client.settings key)))) := by
  rw [removeByRank, Program.run_bind,
    run_rangeByRank_selection h hscores hpages hsize hstart hstop hr hall hfits]
  have hsublist := rankSelection_sublist start stop (table.ranking client.settings key)
  exact run_removeFetched h hscores
    ((names_ranking h.mirrors key).sublist (hsublist.map Prod.fst)) fun e he => hsublist.subset he

end Client

end SortedSet

/-! ## What clients are answered -/

section Reached

variable {settings : Settings} {geometry : Geometry} {journal : List Call} {table : Table}

lemma EachScored.allScored (h : EachScored settings table)
    (hitems : (table.items.map Item.key).Nodup) (key : String) : AllScored settings table key := by
  intro item hitem _
  obtain ⟨x, t, ht, -⟩ := h item.key item ((Table.find?_eq_some_iff hitems item).mpr hitem)
  rw [ht]
  rfl

/-- A removal by rank is answered the number of members that it reads, and leaves no others out. -/
lemma runCommand_removeByRank
    (h : ReachedBy settings geometry (·.isSortedSet = true) journal table)
    (hsize : IsPageSize settings.pageSize) {key : String} {ranking : Assoc Float}
    (hr : IsRanking settings.scoreName journal key ranking) {start stop : ℤ}
    (hstart : |start| < 2 ^ 62) (hstop : |stop| < 2 ^ 62)
    (hfits : start < 0 ∧ 0 ≤ stop ∨ 0 ≤ start ∧ stop < 0 → PageFits settings.pageSize 0 0) :
    (Connection.embedded settings.layout table).runCommand settings geometry
        (.removeByRank key start stop) =
      (.ok (.count (rankSelection start stop ranking).length),
        .embedded settings.layout
          (table.without key (Assoc.names (rankSelection start stop ranking)))) := by
  have htable : ClientTable (Client.mk settings table.pageBound).settings table :=
    h.reached.clientTable
  have hscores := h.eachScored.scoresEncoded
  have hown := isRanking_of_scoresEncoded h.reached hscores key
  have hall := h.eachScored.allScored htable.mirrors.items key
  rw [hr.unique hown]
  exact runCommand_of_run (Program.run_map _ (SortedSet.run_removeByRank htable hscores
    (Nat.le_refl _) hsize hstart hstop hown hall hfits))

/-- **A removal by rank removes the slice, and what is tied with its end** if only the last position
counts from the end: exactly these members are gone, and they are counted. -/
theorem remove_by_rank_eq_selection
    (h : ReachedBy settings geometry (·.isSortedSet = true) journal table)
    (hsize : IsPageSize settings.pageSize) (key : String) :
    ∃ ranking, IsRanking settings.scoreName journal key ranking ∧
      ∀ start stop, |start| < 2 ^ 62 → |stop| < 2 ^ 62 →
        (start < 0 ∧ 0 ≤ stop ∨ 0 ≤ start ∧ stop < 0 → PageFits settings.pageSize 0 0) →
        (Connection.embedded settings.layout table).runCommand settings geometry
            (.removeByRank key start stop) =
          (.ok (.count (rankSelection start stop ranking).length),
            .embedded settings.layout
              (table.without key (Assoc.names (rankSelection start stop ranking)))) ∧
        ∃ ties, rankSelection start stop ranking = rankSlice start stop ranking ++ ties ∧
          ∀ e ∈ ties, 0 ≤ start ∧ stop < 0 ∧
            ∃ last, ranking.reverse[(-stop - 1).toNat]? = some last ∧ (e.2 == last.2) = true := by
  have hr := isRanking_of_scoresEncoded h.reached h.eachScored.scoresEncoded key
  exact ⟨table.ranking settings key, hr, fun start stop hstart hstop hfits =>
    ⟨runCommand_removeByRank h hsize hr hstart hstop hfits, rankSelection_split hr start stop⟩⟩

end Reached

/-! ## Ties at the end -/

/-- A table of two members with the same score. -/
lemma reachedBy_tied (pageSize : Option ℤ) :
    ReachedBy { (Installation.mk "ranked" "").defaults with pageSize := pageSize } .sphere
    (·.isSortedSet = true)
    [.update ⟨"k", "b"⟩ [("sk2", .text "2")] [], .update ⟨"k", "a"⟩ [("sk2", .text "2")] []]
    { items := [⟨⟨"k", "a"⟩, [("sk2", .text "2")]⟩, ⟨⟨"k", "b"⟩, [("sk2", .text "2")]⟩]
      index := [⟨⟨"k", "a"⟩, "sk2", "2"⟩, ⟨⟨"k", "b"⟩, "sk2", "2"⟩] } :=
  .command .empty (.add "k" [("a", Float.ofBits 0), ("b", Float.ofBits 0)] {}) (by rfl) rfl

lemma isRanking_tied : IsRanking "sk2"
    [.update ⟨"k", "b"⟩ [("sk2", .text "2")] [], .update ⟨"k", "a"⟩ [("sk2", .text "2")] []] "k"
    [("a", Float.ofBits 0), ("b", Float.ofBits 0)] := by
  refine ⟨List.pairwise_pair.mpr (Or.inr ⟨by decide, by decide⟩), ?_, ?_⟩
  · intro member x hx
    rcases hx with _ | ⟨_, _ | ⟨_, ⟨⟩⟩⟩ <;> exact ⟨"2", rfl, rfl, rfl⟩
  · intro member value hwritten
    refine ⟨Float.ofBits 0, ?_⟩
    by_cases hb : member = "b"
    · exact hb ▸ List.mem_cons_of_mem _ (List.mem_cons_self ..)
    by_cases ha : member = "a"
    · exact ha ▸ List.mem_cons_self ..
    rw [lastWritten, if_neg (by simpa using Ne.symm hb), lastWritten,
      if_neg (by simpa using Ne.symm ha)] at hwritten
    cases hwritten

theorem remove_by_rank_eq_selection_tied :
    ∃ (settings : Settings) (journal : List Call) (table : Table) (ranking : Assoc Float),
      settings.pageSize = some 1 ∧
        ReachedBy settings .sphere (·.isSortedSet = true) journal table ∧
        IsRanking settings.scoreName journal "k" ranking ∧
        (Connection.embedded settings.layout table).runCommand settings .sphere
            (.removeByRank "k" 0 (-2)) =
          (.ok (.count (rankSelection 0 (-2) ranking).length),
            .embedded settings.layout
              (table.without "k" (Assoc.names (rankSelection 0 (-2) ranking)))) := by
  obtain ⟨ranking, hranking, hremoval⟩ := remove_by_rank_eq_selection (reachedBy_tied (some 1))
    (fun n hn => by rw [← Option.some_inj.mp hn]) "k"
  have hfits : PageFits (some 1) 0 0 := fun n hn => by rw [← Option.some_inj.mp hn]; decide
  exact ⟨_, _, _, ranking, rfl, reachedBy_tied _, hranking,
    (hremoval 0 (-2) (by decide) (by decide) fun _ => hfits).1⟩

/-- Of two members with the same score, a removal of all but the last takes both. -/
theorem remove_by_rank_beyond_slice :
    ∃ (settings : Settings) (journal : List Call) (table : Table) (ranking : Assoc Float),
      ReachedBy settings .sphere (·.isSortedSet = true) journal table ∧
        IsRanking settings.scoreName journal "k" ranking ∧
        rankSlice 0 (-2) ranking = [("a", Float.ofBits 0)] ∧
        (Connection.embedded settings.layout table).runCommand settings .sphere
            (.removeByRank "k" 0 (-2)) =
          (.ok (.count 2), .embedded settings.layout {}) := by
  have hfits : PageFits (some 1) 0 0 := fun n hn => by rw [← Option.some_inj.mp hn]; decide
  have hrun := runCommand_removeByRank (reachedBy_tied (some 1))
    (fun n hn => by rw [← Option.some_inj.mp hn]) isRanking_tied
    (by decide : |(0 : ℤ)| < 2 ^ 62) (by decide : |(-2 : ℤ)| < 2 ^ 62) fun _ => hfits
  exact ⟨_, _, _, _, reachedBy_tied _, isRanking_tied, rfl, hrun⟩

end RankedTable

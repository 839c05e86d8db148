import RankedTable.Proofs.Command.Alike
import RankedTable.Proofs.Command.Sharing
import RankedTable.Proofs.SortedSet.Increment
import RankedTable.Proofs.SortedSet.Removal

/-!
# Sorted sets in tables that share the scores

In tables that have the same scores, whatever else they hold, commands on sorted sets find the same
members and write the same scores.  An item without a score is no member, so it makes no difference
whether it is there: an increment guards its write by the absence of the score, not of the item.

* `Sharing.alike_score`, `Sharing.alike_countByScore`, `Sharing.alike_rangeByScore` — reads.
* **`Sharing.alike_increment`**, `Sharing.alike_add` — writes of scores.
* `Sharing.ranking_eq`, **`Sharing.alike_removeFetched`** — removal of members.
-/

namespace RankedTable

open Program (Alike Still alike_done)

/-- The score of an item is told by its score attribute. -/
lemma scored_view (settings : Settings) (item : Item) :
    scored settings (item.view settings.scoreName) = scored settings item := by
  rw [scored, scored, scoreOf, scoreOf, item.get?_view]
  rfl

lemma SortedSet.decodeMember_congr {client : Client} {a b : Item}
    (h : a.view client.settings.scoreName = b.view client.settings.scoreName) :
    decodeMember client a = decodeMember client b := by
  obtain ⟨hkey, hget⟩ := Item.view_eq_iff.mp h
  rw [decodeMember, decodeMember, hget, hkey]

namespace Sharing

variable {settings : Settings} {s t : Table} {m n : ℕ}
  (h : Sharing settings settings.scoreName s t)

include h

/-! ## Reads -/

lemma alike_score (key member : String) :
    settings.Alike (Still s t) (SortedSet.score ⟨settings, m⟩ key member)
      (SortedSet.score ⟨settings, n⟩ key member) s t := by
  obtain ⟨found, found', hfound, hfound', hone, hother⟩ := h.gets ⟨key, member⟩
  refine Program.alike_bind_of_run hone hother ?_
  dsimp only
  rw [hfound, hfound']
  rcases s.attribute? ⟨key, member⟩ settings.scoreName with _ | ⟨encoded⟩ | _
  case some.text =>
    exact Alike.still_bind (alike_done _ ⟨rfl, rfl⟩) ⟨rfl, rfl⟩ fun x => alike_done _ ⟨rfl, rfl⟩
  all_goals exact alike_done _ ⟨rfl, rfl⟩

section Scans

variable (hs : s.pageBound ≤ m) (ht : t.pageBound ≤ n) (key : String) (low high : Option Float)

include hs ht

lemma alike_countByScore :
    settings.Alike (Still s t) (SortedSet.countByScore ⟨settings, m⟩ key low high)
      (SortedSet.countByScore ⟨settings, n⟩ key low high) s t := by
  refine SortedSet.alike_countByScore (by rfl) fun request hrequest => ?_
  exact h.alike_count (SortedSet.scoreRange_index hrequest).1 (List.mem_cons_self ..) hs ht

lemma alike_rangeByScore (offset count : ℤ) (forward : Bool) :
    settings.Alike (Still s t)
      (SortedSet.rangeByScore ⟨settings, m⟩ key low high offset count forward)
      (SortedSet.rangeByScore ⟨settings, n⟩ key low high offset count forward) s t := by
  refine SortedSet.alike_rangeByScore (by rfl) fun request hrequest => SortedSet.alike_fetch ?_
  obtain ⟨hindex, hitems⟩ := SortedSet.scoreRange_index hrequest
  refine h.alike_fold hindex (List.mem_cons_self ..) hs ht hitems (fun acc a b hview => ?_) []
  exact congrArg (Except.map _) (SortedSet.decodeMember_congr hview)

end Scans

/-! ## Writes of scores -/

section Writes

variable (hnames : settings.NamesApart)

include hnames

lemma alike_add (key : String) (members : Assoc Float) :
    settings.Alike (Sharing settings settings.scoreName)
      (SortedSet.add ⟨settings, m⟩ key members {}) (SortedSet.add ⟨settings, n⟩ key members {})
      s t := by
  refine h.alike_writes hnames.score (SortedSet.calls_add (fun member x encoded hx => ?_) members)
  exact ⟨.score ⟨key, member⟩ _ hx, .update ⟨key, member⟩ _ fun _ hmem =>
    absurd hmem List.not_mem_nil⟩

/-- An attempt to add to a score ends alike: it is made of the score alone, and guarded by it. -/
lemma alike_tryIncrement (key member : String) (delta : Float) :
    settings.Alike (Sharing settings settings.scoreName)
      (SortedSet.tryIncrement ⟨settings, m⟩ key member delta)
      (SortedSet.tryIncrement ⟨settings, n⟩ key member delta) s t := by
  obtain ⟨found, found', hfound, hfound', hone, hother⟩ := h.gets ⟨key, member⟩
  rw [tryIncrement_eq, tryIncrement_eq]
  refine Program.alike_bind_of_run hone hother ?_
  have hattempt : attemptAfter settings.scoreName delta found' =
      attemptAfter settings.scoreName delta found := by
    rw [attemptAfter, attemptAfter, guardAfter, guardAfter, hfound, hfound']
  dsimp only
  rw [hattempt]
  cases hmade : attemptAfter settings.scoreName delta found with
  | error e => exact alike_done _ h
  | ok attempt =>
      obtain ⟨old, hguard, -, hencoded⟩ := attemptAfter_ok
        (fun value hvalue => h.one.score hnames.score_ne_location _ value (hfound ▸ hvalue)) hmade
      have hwrite : settings.Alike (Sharing settings settings.scoreName)
          (SortedSet.writeScore ⟨settings, m⟩ key member attempt.encoded [attempt.guard])
          (SortedSet.writeScore ⟨settings, n⟩ key member attempt.encoded [attempt.guard]) s t :=
        h.update hnames.score (.score ⟨key, member⟩ [attempt.guard] hencoded)
          fun condition hmem => List.mem_singleton.mp hmem ▸ hguard.subject_eq
      change Alike _ _ _ (Program.attempt _ >>= _) (Program.attempt _ >>= _) s t
      refine hwrite.attempt.bind (fun _ _ => id) fun written s' t' hst => ?_
      cases written with
      | ok _ => exact alike_done _ hst
      | error e =>
          dsimp only [attemptOutcome]
          split_ifs <;> exact alike_done _ hst

/-- **An increment ends alike**, however often it is tried. -/
theorem alike_increment (key member : String) (delta : Float) :
    settings.Alike (Sharing settings settings.scoreName)
      (SortedSet.increment ⟨settings, m⟩ key member delta)
      (SortedSet.increment ⟨settings, n⟩ key member delta) s t := by
  -- an attempt may leave other tables, so the induction is over all that share the scores
  have hwithin : ∀ (attempts : ℕ) {s t : Table}, Sharing settings settings.scoreName s t →
      settings.Alike (Sharing settings settings.scoreName)
        (SortedSet.incrementWithin ⟨settings, m⟩ key member delta attempts)
        (SortedSet.incrementWithin ⟨settings, n⟩ key member delta attempts) s t := by
    intro attempts
    induction attempts with
    | zero => exact fun h => alike_done _ h
    | succ attempts ih =>
        intro s t h
        rw [SortedSet.incrementWithin, SortedSet.incrementWithin]
        refine (h.alike_tryIncrement hnames key member delta).bind (fun _ _ => id)
          fun result s' t' hst => ?_
        cases result with
        | some x => exact alike_done _ hst
        | none => exact ih hst
  rw [SortedSet.increment, SortedSet.increment]
  split_ifs
  · exact alike_done _ h
  · exact hwithin _ h

end Writes

/-! ## Removal -/

/-- Tables that have the same scores have the same ranking. -/
lemma ranking_eq (key : String) : s.ranking settings key = t.ranking settings key := by
  have hranking : ∀ table : Table, table.ranking settings key =
      ((sortRows true (table.rows key (some settings.scoreName))).map
        (Row.view settings.scoreName)).map fun row => scored settings row.item := by
    intro table
    rw [Table.ranking, List.map_map]
    exact List.map_congr_left fun row _ => (scored_view settings row.item).symm
  rw [hranking, hranking, h.agree.sortRows_view h.one.mirrors h.other.mirrors]

/-- **Members of the ranking are deleted alike**, with whatever else their items hold. -/
theorem alike_removeFetched (hnames : settings.NamesApart) {key : String} {members : Assoc Float}
    (hnodup : members.names.Nodup) (hmembers : ∀ e ∈ members, e ∈ s.ranking settings key) :
    settings.Alike (Sharing settings settings.scoreName)
      (SortedSet.removeFetched key members) (SortedSet.removeFetched key members) s t := by
  have hrun : ∀ {table : Table}, ClientTable settings table →
      (∀ e ∈ members, e ∈ table.ranking settings key) →
      (SortedSet.removeFetched key members).run settings.layout.store table =
        (.ok members.length, table.without key members.names) ∧
      ClientTable settings (table.without key members.names) := by
    intro table htable hmembers
    have hclient : ClientTable (Client.mk settings 0).settings table := htable
    have hremoved := SortedSet.run_removeFetched hclient
      (hclient.score hnames.score_ne_location) hnodup hmembers
    have hkept := Program.run_invariant settings.layout.store (ClientTable settings)
      (SortedSet.calls_removeFetched (fun member => .delete ⟨key, member⟩ _) members)
      (fun _ _ hc hs => hs.store hc) htable
    rw [hremoved] at hkept
    exact ⟨hremoved, hkept⟩
  obtain ⟨hone, hone'⟩ := hrun h.one hmembers
  obtain ⟨hother, hother'⟩ := hrun h.other (h.ranking_eq key ▸ hmembers)
  refine Program.alike_of_run hone hother ⟨hone', hother', fun address => ?_⟩
  rw [Table.attribute?_without, Table.attribute?_without, h.agree]

section Removal

variable (hnames : settings.NamesApart) (hs : s.pageBound ≤ m) (ht : t.pageBound ≤ n)

include hnames hs

/-- Members that a range of scores returned are deleted alike. -/
lemma alike_removeFetched_of_run {key : String} {low high : Option Float} {offset count : ℤ}
    {forward : Bool} {members : Assoc Float}
    (hrun : (SortedSet.rangeByScore ⟨settings, m⟩ key low high offset count forward).run
      settings.layout.store s = (.ok members, s)) :
    settings.Alike (Sharing settings settings.scoreName)
      (SortedSet.removeFetched key members) (SortedSet.removeFetched key members) s t := by
  have hclient : ClientTable (Client.mk settings m).settings s := h.one
  obtain ⟨hnodup, hmembers⟩ := SortedSet.ranked_of_rangeByScore hclient
    (hclient.score hnames.score_ne_location) hs hrun
  exact h.alike_removeFetched hnames hnodup hmembers

include ht

lemma alike_removeByScore (key : String) (low high : Option Float) :
    settings.Alike (Sharing settings settings.scoreName)
      (SortedSet.removeByScore ⟨settings, m⟩ key low high)
      (SortedSet.removeByScore ⟨settings, n⟩ key low high) s t :=
  (h.alike_rangeByScore hs ht key low high 0 0 true).still_bind_of_run h fun _ hrun =>
    h.alike_removeFetched_of_run hnames hs hrun

lemma alike_pop (key : String) (count : ℤ) (lowest : Bool) :
    settings.Alike (Sharing settings settings.scoreName)
      (SortedSet.pop ⟨settings, m⟩ key count lowest) (SortedSet.pop ⟨settings, n⟩ key count lowest)
      s t :=
  SortedSet.alike_pop h (h.alike_rangeByScore hs ht key none none 0 count lowest) fun _ hrun =>
    h.alike_removeFetched_of_run hnames hs hrun

end Removal

end Sharing

end RankedTable

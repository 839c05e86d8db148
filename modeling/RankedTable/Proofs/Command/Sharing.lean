import RankedTable.Proofs.Command.Replies
import RankedTable.Proofs.Store.Alike
import RankedTable.Proofs.Store.Pass
import RankedTable.Proofs.Table.View

/-!
# Tables that share an attribute

Clients' tables that agree on an attribute may hold different items: what has the attribute in one
table has it in the other, but what has not may be missing there.  Reads and writes of the
attribute, and scans of its index, find no difference, and they leave tables that agree again.

* `Settings.NamesApart` — the settings under which conditions look at attributes.
* `Sharing` — clients' tables that agree on an attribute.
* `Sharing.gets`, **`Sharing.update`**, `Sharing.alike_writes` — its values are read alike, and
  written alike.
* **`Sharing.alike_fold`**, **`Sharing.alike_count`** — its index is scanned alike.
* `Call.Spares`, **`Sharing.run_spares`** — calls that leave the attribute alone may be made on one
  side only.
-/

namespace RankedTable

open Program (Alike Still)

/-- Whether the names of a client's attributes are apart from each other and from the one by which
conditions address an item. -/
def Settings.NamesApart (settings : Settings) : Prop :=
  [Condition.keyAttribute, settings.partitionName, settings.memberName, settings.scoreName,
    settings.locationName].Nodup

instance decidableNamesApart (settings : Settings) : Decidable settings.NamesApart :=
  inferInstanceAs (Decidable (List.Nodup _))

namespace Settings.NamesApart

variable {settings : Settings}

lemma score (h : settings.NamesApart) : settings.layout.IsAttribute settings.scoreName := by
  simp only [NamesApart, List.nodup_cons, List.mem_cons, List.not_mem_nil] at h
  exact ⟨by tauto, by tauto, by tauto⟩

lemma location (h : settings.NamesApart) : settings.layout.IsAttribute settings.locationName := by
  simp only [NamesApart, List.nodup_cons, List.mem_cons, List.not_mem_nil] at h
  exact ⟨by tauto, by tauto, by tauto⟩

lemma score_ne_location (h : settings.NamesApart) : settings.scoreName ≠ settings.locationName := by
  simp only [NamesApart, List.nodup_cons, List.mem_cons, List.not_mem_nil] at h
  tauto

end Settings.NamesApart

/-- The calls that write an attribute of an item, on conditions on that attribute. -/
inductive Call.Writes (name : String) : Call → Prop
  | update (key : ItemKey) (value : Value) {conditions : List Condition}
      (h : ∀ condition ∈ conditions, condition.subject = name) :
      Writes name (.update key [(name, value)] conditions)

/-- Programs of clients with the same settings end alike, each on its own table. -/
abbrev Settings.Alike {α : Type} (settings : Settings) (R : Table → Table → Prop)
    (p q : Program α) (s t : Table) : Prop :=
  Program.Alike settings.layout.store settings.layout.store R p q s t

/-- Two clients' tables that have the same values of an attribute. -/
structure Sharing (settings : Settings) (name : String) (s t : Table) : Prop where
  one : ClientTable settings s
  other : ClientTable settings t
  agree : Table.AgreeOn name s t

namespace Sharing

variable {settings : Settings} {name : String} {s t : Table}

lemma refl (h : ClientTable settings s) (name : String) : Sharing settings name s s :=
  ⟨h, h, fun _ => rfl⟩

lemma symm (h : Sharing settings name s t) : Sharing settings name t s :=
  ⟨h.other, h.one, h.agree.symm⟩

variable (h : Sharing settings name s t)

include h

/-! ## Calls on the attribute -/

/-- The item that is read may be missing on one side, but the value of its attribute is the
same. -/
lemma gets (key : ItemKey) : ∃ found found' : Option Item,
    found.bind (·.get? name) = s.attribute? key name ∧
      found'.bind (·.get? name) = s.attribute? key name ∧
      settings.layout.store (.get key (some [name])) s = (.ok found, s) ∧
      settings.layout.store (.get key (some [name])) t = (.ok found', t) := by
  obtain ⟨found, hfound, hone⟩ := h.one.store_get key name
  obtain ⟨found', hfound', hother⟩ := h.other.store_get key name
  exact ⟨found, found', hfound, hfound'.trans (h.agree key).symm, hone, hother⟩

/-- **A write of the attribute, on conditions on the attribute, is answered alike** and leaves
tables that agree on it. -/
theorem update {key : ItemKey} {value : Value} {conditions : List Condition}
    (hname : settings.layout.IsAttribute name)
    (hc : ClientCall settings (.update key [(name, value)] conditions))
    (hconditions : ∀ condition ∈ conditions, condition.subject = name) :
    (settings.layout.store (.update key [(name, value)] conditions) s).1 =
        (settings.layout.store (.update key [(name, value)] conditions) t).1 ∧
      Sharing settings name (settings.layout.store (.update key [(name, value)] conditions) s).2
        (settings.layout.store (.update key [(name, value)] conditions) t).2 := by
  have hdepth : value.depth = 1 := by cases hc <;> rfl
  have hreply : (settings.layout.store (.update key [(name, value)] conditions) s).1 =
      (settings.layout.store (.update key [(name, value)] conditions) t).1 := by
    rw [h.one.reply_update key name hdepth, h.other.reply_update key name hdepth,
      hname.check_congr (h.agree key) hconditions]
  refine ⟨hreply, h.one.store hc, h.other.store hc, ?_⟩
  have hstore : ∀ table, settings.layout.store (.update key [(name, value)] conditions) table =
      Layout.commit table (settings.layout.update table key [(name, value)] conditions) :=
    fun _ => rfl
  rw [hstore, hstore] at hreply ⊢
  cases hone : settings.layout.update s key [(name, value)] conditions with
  | ok s' =>
      cases hother : settings.layout.update t key [(name, value)] conditions with
      | ok t' => exact h.agree.update hone hother
      | error e =>
          rw [hone, hother] at hreply
          cases hreply
  | error e =>
      cases hother : settings.layout.update t key [(name, value)] conditions with
      | ok t' =>
          rw [hone, hother] at hreply
          cases hreply
      | error e' => exact h.agree

/-- **Programs that write nothing but the attribute end alike.** -/
theorem alike_writes {α : Type} {p : Program α} (hname : settings.layout.IsAttribute name)
    (hp : Program.Calls (fun c => ClientCall settings c ∧ c.Writes name) p) :
    settings.Alike (Sharing settings name) p p s t := by
  refine Program.alike_of_calls hp (fun c s t hc hst => ?_) h
  obtain ⟨hclient, hwrites⟩ := hc
  cases hwrites with
  | update key value hconditions => exact hst.update hname hclient hconditions

/-! ## Scans of the index on the attribute -/

section Scans

variable {scan : Scan} {pages : ℕ} (hindex : scan.request.index = some name)
  (hindexed : name ∈ settings.layout.indexed) (hs : s.pageBound ≤ scan.maxPages)
  (ht : t.pageBound ≤ pages)

include hindex hindexed hs ht

/-- **Folds over the index find the same**, if their visitor looks at nothing else of an item. -/
theorem alike_fold {β : Type} {visit : β → Item → Except Error (Scan.Visit β)}
    (hitems : scan.request.selectCount = false)
    (hvisit : ∀ acc a b, a.view name = b.view name → visit acc a = visit acc b) (acc : β) :
    settings.Alike (Still s t) (scan.fold visit acc)
      (Scan.fold { scan with maxPages := pages } visit acc) s t := by
  have hsubject := mem_indexed_of_eq hindex hindexed
  have hone : (scan.fold visit acc).run settings.layout.store s = _ :=
    Scan.run_fold_pass h.one.mirrors hsubject
      (fun _ _ => h.one.readItem_ok) hs hitems acc
  have hother : (Scan.fold { scan with maxPages := pages } visit acc).run settings.layout.store t =
      _ :=
    @Scan.run_fold_pass _ { scan with maxPages := pages } visit _ _ h.other.mirrors hsubject
      (fun _ _ => h.other.readItem_ok) ht hitems acc
  have hlook : ∀ test, ((s.matching scan.request test).map Row.item).map (Item.view name) =
      ((t.matching scan.request test).map Row.item).map (Item.view name) := by
    intro test
    have hview := congrArg (List.map Row.item)
      (h.agree.matching_view h.one.mirrors h.other.mirrors hindex test)
    rw [List.map_map, List.map_map] at hview ⊢
    exact hview
  rw [Scan.pass_congr hvisit hlook pages] at hone
  exact Program.alike_of_run hone hother ⟨rfl, rfl⟩

/-- **Counts over the index find the same.** -/
theorem alike_count : settings.Alike (Still s t) scan.count
    (Scan.count { scan with maxPages := pages }) s t := by
  have hsubject := mem_indexed_of_eq hindex hindexed
  have hone : scan.count.run settings.layout.store s = _ :=
    Scan.run_count_tally h.one.mirrors hsubject
      (fun _ _ => h.one.readItem_ok) hs
  have hother : (Scan.count { scan with maxPages := pages }).run settings.layout.store t = _ :=
    @Scan.run_count_tally { scan with maxPages := pages } _ _ h.other.mirrors hsubject
      (fun _ _ => h.other.readItem_ok) ht
  have htally : scan.tally (tighter scan.pageSize settings.layout.pageSize) s =
      Scan.tally { scan with maxPages := pages } (tighter scan.pageSize settings.layout.pageSize)
        t := by
    rw [Scan.tally, Scan.tally]
    cases scan.request.bounds with
    | error e => rfl
    | ok test =>
        have hlength := congrArg List.length
          (h.agree.matching_view h.one.mirrors h.other.mirrors hindex test)
        rw [List.length_map, List.length_map] at hlength
        dsimp only
        rw [hlength]
  rw [htally] at hone
  exact Program.alike_of_run hone hother ⟨rfl, rfl⟩

end Scans

end Sharing

/-! ## Calls on other attributes -/

/-- The calls that leave an attribute alone, of all items. -/
inductive Call.Spares (name : String) : Call → Prop
  | get (key : ItemKey) (names : Option (List String)) : Spares name (.get key names)
  | query (request : QueryRequest) : Spares name (.query request)
  | update (key : ItemKey) {updates : Attributes} (conditions : List Condition)
      (h : Assoc.latest? updates name = none) : Spares name (.update key updates conditions)

namespace Sharing

variable {settings : Settings} {name : String} {s t : Table}

/-- A call that leaves the attribute alone may be made on one side only. -/
lemma store_spares (h : Sharing settings name s t) {c : Call} (hc : ClientCall settings c)
    (hspares : c.Spares name) : Sharing settings name (settings.layout.store c s).2 t := by
  refine ⟨h.one.store hc, h.other, ?_⟩
  cases hspares with
  | get key names => exact h.agree
  | query request => exact h.agree
  | @update key updates conditions hupdates =>
      change Table.AgreeOn name
        (Layout.commit s (settings.layout.update s key updates conditions)).2 t
      cases hone : settings.layout.update s key updates conditions with
      | ok s' => exact h.agree.update_left hone hupdates
      | error e => exact h.agree

/-- **A program that leaves the attribute alone may run on one side only.** -/
theorem run_spares (h : Sharing settings name s t) {α : Type} {p : Program α}
    (hp : Program.Calls (fun c => ClientCall settings c ∧ c.Spares name) p) :
    Sharing settings name (p.run settings.layout.store s).2 t :=
  Program.run_invariant settings.layout.store (Sharing settings name · t) hp
    (fun _ _ hc hs => hs.store_spares hc.1 hc.2) h

end Sharing

end RankedTable

import Mathlib.Algebra.BigOperators.Group.Finset.Basic
import Mathlib.Data.Fin.VecNotation
import Mathlib.Tactic.FinCases
import RankedTable.Proofs.SortedSet.Increment
import RankedTable.Proofs.SortedSet.SharedReturns
import RankedTable.Proofs.Table.Answers

/-!
# Clients that share a collection keep count of its members

An addition of new members counts what it created, a removal what it deleted.  A range is removed in
two steps, and between them its members may be deleted, created again or written by other clients;
but each deletion is counted just if it deleted something, so the counts still tell how many members
there are.

* `Effect`, `Command.Has` — what commands do to the members of a collection.
* `MemberCall` — the calls that they make; `Command.Has.returns` — what they return.
* `MemberStep` — all that such a call can do to the items; `member_step` — it does nothing else.
* **`size_chained`** — the number of items goes with what was created and deleted.
* **`created_once`** — between two creations of an item it is deleted.
* **`members_conserved`** — the counts that clients are returned tell how many members there are.
-/

namespace RankedTable

variable {layout : Layout} {table table' : Table} {name key : String}

/-! ## What commands do to members -/

/-- What a command does to the members of a collection. -/
inductive Effect where
  | creates
  | rescores
  | removes
  deriving DecidableEq

/-- The commands that create members, write over the scores of members or remove members, with
arguments that are not refused. -/
inductive Command.Has (key : String) : Command → Effect → Prop
  | addNew {members : Assoc Float} {flags : AddFlags} (hflags : flags.onlyNew = true)
      (hscores : ∀ e ∈ members, e.2.isNaN = false) : Has key (.add key members flags) .creates
  | addExisting {members : Assoc Float} {flags : AddFlags} (hnew : flags.onlyNew = false)
      (hflags : flags.onlyExisting = true) (hscores : ∀ e ∈ members, e.2.isNaN = false) :
      Has key (.add key members flags) .rescores
  | remove (members : List String) : Has key (.remove key members) .removes
  | removeByScore {low high : Option Float} (hlow : IsBound low) (hhigh : IsBound high) :
      Has key (.removeByScore key low high) .removes
  | removeByName (low high : String) : Has key (.removeByName key low high) .removes
  | removeByRank (start stop : ℤ) : Has key (.removeByRank key start stop) .removes

/-- The calls that such commands make. -/
inductive MemberCall (name key : String) : Effect → Call → Prop
  | query (effect : Effect) (request : QueryRequest) : MemberCall name key effect (.query request)
  | create {member encoded : String} {x : Float} {conditions : List Condition}
      (hx : Score.encode x = .ok encoded) (habsent : Condition.itemAbsent ∈ conditions) :
      MemberCall name key .creates (.update ⟨key, member⟩ [(name, .text encoded)] conditions)
  | rescore {member encoded : String} {x : Float} {conditions : List Condition}
      (hx : Score.encode x = .ok encoded) (hpresent : Condition.itemPresent ∈ conditions) :
      MemberCall name key .rescores (.update ⟨key, member⟩ [(name, .text encoded)] conditions)
  | remove (member : String) :
      MemberCall name key .removes (.delete ⟨key, member⟩ [.itemPresent])

namespace Command.Has

variable {client : Client} {geometry : Geometry} {command : Command} {effect : Effect}

open Program

/-- Commands make no other calls than those for their effect. -/
lemma calls (h : command.Has key effect) :
    Calls (MemberCall client.settings.scoreName key effect) (command.program client geometry) := by
  have hquery : ∀ effect request,
      MemberCall client.settings.scoreName key effect (.query request) := .query
  have hdelete : ∀ member, MemberCall client.settings.scoreName key .removes
      (.delete ⟨key, member⟩ [.itemPresent]) := .remove
  cases h with
  | addNew hflags hscores =>
      refine calls_map _ (SortedSet.calls_add (fun _ _ _ hx => .create hx ?_) _)
      simp [SortedSet.AddFlags.conditions, hflags]
  | addExisting hnew hflags hscores =>
      refine calls_map _ (SortedSet.calls_add (fun _ _ _ hx => .rescore hx ?_) _)
      simp [SortedSet.AddFlags.conditions, hflags]
  | remove members => exact calls_map _ (SortedSet.calls_remove hdelete _)
  | removeByScore hlow hhigh =>
      exact calls_map _ (calls_bind (SortedSet.calls_rangeByScore (hquery _) _ _ _ _ _ _) fun _ =>
        SortedSet.calls_removeFetched hdelete _)
  | removeByName low high =>
      exact calls_map _ (calls_bind (SortedSet.calls_fetch (hquery _) _ _ _) fun _ =>
        SortedSet.calls_removeFetched hdelete _)
  | removeByRank start stop =>
      exact calls_map _ (calls_bind (SortedSet.calls_rangeByRank (hquery _) _ _ _ _) fun _ =>
        SortedSet.calls_removeFetched hdelete _)

/-- **Commands return how many of their writes took effect**, whatever comes between their calls. -/
theorem returns {Fine : (c : Call) → Except Error c.Reply → Prop}
    (hmiss : ∀ c e, Fine c (.error e) → e.isMiss = true)
    (hquery : ∀ request reply, request.partition = key → Fine (.query request) reply →
      ∃ page, reply = .ok page ∧ ∀ item ∈ page.items, item.HasScore client.settings.scoreName)
    {budget : ℕ} (hbudget : budget < client.maxPages) (h : command.Has key effect) :
    Returns Fine (fun w answer => answer = .count w) budget 0
      (command.program client geometry) := by
  have hcount : ∀ {p : Program ℤ}, Returns Fine (fun w count => count = (w : ℤ)) budget 0 p →
      Returns Fine (fun w answer => answer = .count w) budget 0 (Answer.count <$> p) := by
    intro p hp
    exact returns_bind hp fun w n hn => returns_pure (congrArg Answer.count hn)
  cases h with
  | addNew hflags hscores => exact hcount (SortedSet.returns_add hmiss hscores _)
  | addExisting hnew hflags hscores => exact hcount (SortedSet.returns_add hmiss hscores _)
  | remove members => exact hcount (SortedSet.returns_remove hmiss members)
  | removeByScore hlow hhigh =>
      exact hcount (SortedSet.returns_removal hmiss
        (SortedSet.returns_rangeByScore hquery hbudget hlow hhigh 0 0 true))
  | removeByName low high =>
      exact hcount (SortedSet.returns_removal hmiss
        (SortedSet.returns_fetch hquery hbudget rfl 0 0))
  | removeByRank start stop =>
      exact hcount (SortedSet.returns_removal hmiss
        (SortedSet.returns_rangeByRank hquery hbudget start stop true))

end Command.Has

/-! ## What a call does to the items -/

/-- The addresses of a table's items. -/
def Table.keys (table : Table) : List ItemKey :=
  table.items.map Item.key

/-- How many items a collection has. -/
def Table.size (table : Table) (key : String) : ℕ :=
  (table.items.filter (·.key.partition = key)).length

/-- Whether all items of a collection have a score. -/
def Table.AllHaveScores (table : Table) (name key : String) : Prop :=
  ∀ item ∈ table.items, item.key.partition = key → item.HasScore name

lemma Table.size_eq (table : Table) (key : String) :
    table.size key = table.keys.countP (·.partition = key) := by
  rw [Table.size, Table.keys, List.countP_map, ← List.countP_eq_length_filter]
  rfl

lemma Table.find?_eq_none_iff {address : ItemKey} :
    table.find? address = none ↔ address ∉ table.keys := by
  simp [Table.find?, Table.keys]

lemma Layout.check_ok {address : ItemKey} {current : Option Attributes}
    {conditions : List Condition} (h : layout.check address current conditions = .ok ()) :
    ∀ c ∈ conditions, c.holds (layout.read address current c.subject) = .ok true := by
  induction conditions with
  | nil => exact fun _ hc => absurd hc List.not_mem_nil
  | cons condition rest ih =>
      rw [Layout.check] at h
      obtain ⟨b, hb, h⟩ := bind_eq_ok.mp h
      cases b with
      | false => cases h
      | true =>
          intro c hc
          rcases List.mem_cons.mp hc with rfl | hc
          · exact hb
          · exact ih h c hc

/-- Nothing is at an address where an item has to be absent. -/
lemma Layout.absent_of_check {address : ItemKey} {conditions : List Condition}
    (h : layout.check address ((table.find? address).map Item.attributes) conditions = .ok ())
    (habsent : Condition.itemAbsent ∈ conditions) : address ∉ table.keys := by
  have hholds := Layout.check_ok h _ habsent
  rw [← Table.find?_eq_none_iff]
  cases hitem : table.find? address with
  | none => rfl
  | some item =>
      rw [hitem] at hholds
      cases hholds

/-- An item is at an address where it has to be present. -/
lemma Layout.present_of_check {address : ItemKey} {conditions : List Condition}
    (h : layout.check address ((table.find? address).map Item.attributes) conditions = .ok ())
    (hpresent : Condition.itemPresent ∈ conditions) : address ∈ table.keys := by
  have hholds := Layout.check_ok h _ hpresent
  by_contra habsent
  rw [Table.find?_eq_none_iff.mpr habsent] at hholds
  cases hholds

/-- All that a call for an effect can do to the items of a table, with the address it changed. -/
inductive MemberStep (key : String) : Effect → Option ItemKey → Table → Table → Prop
  | unchanged (effect : Effect) (table : Table) : MemberStep key effect none table table
  | created {member : String} {table table' : Table} (habsent : ⟨key, member⟩ ∉ table.keys)
      (hkeys : table'.keys = table.keys ++ [⟨key, member⟩]) :
      MemberStep key .creates (some ⟨key, member⟩) table table'
  | rescored {member : String} {table table' : Table} (hpresent : ⟨key, member⟩ ∈ table.keys)
      (hkeys : table'.keys = table.keys) :
      MemberStep key .rescores (some ⟨key, member⟩) table table'
  | removed {member : String} {table table' : Table} (hpresent : ⟨key, member⟩ ∈ table.keys)
      (hkeys : table'.keys = table.keys.filter (· != ⟨key, member⟩)) :
      MemberStep key .removes (some ⟨key, member⟩) table table'

section Steps

variable {ι : Type} {effect : Effect}

lemma keys_update {address : ItemKey} {updates : Attributes} {conditions : List Condition}
    (h : layout.update table address updates conditions = .ok table') :
    table'.keys = (put Item.key ⟨address, (((table.find? address).map Item.attributes).getD
      []).insertAll updates⟩ table.items).map Item.key := by
  rw [Table.keys, (Layout.writeIndex_ok (Layout.update_ok h).2).items, Table.putItem,
    Table.putIn_eq_put]

lemma keys_remove (table : Table) (address : ItemKey) :
    (table.remove address).keys = table.keys.filter (· != address) := by
  rw [Table.keys, Table.keys, Table.remove, List.filter_map]
  refine congrArg _ (List.filter_congr fun item _ => ?_)
  rw [Function.comp_apply, bne, beq_eq_decide, decide_not]

/-- **A call for an effect does what its effect is, or nothing.** -/
theorem member_step {e : Event ι Table} (h : MemberCall name key effect e.call) :
    MemberStep key effect (e.changed layout.store) e.before (e.after layout.store) := by
  obtain ⟨i, c, s⟩ := e
  have hstep := layout.step_store c s
  change MemberStep key effect (if (layout.store c s).1.isOk then c.target? else none) s
    (layout.store c s).2
  generalize (layout.store c s).1.isOk = ok, (layout.store c s).2 = after at hstep ⊢
  cases hstep with
  | read => cases h
  | queried request ok =>
      change MemberStep key effect (if ok then none else none) s s
      rw [ite_self]
      exact .unchanged effect s
  | failed => exact .unchanged effect s
  | updated hok =>
      have hcheck := (Layout.update_ok hok).1
      cases h with
      | create hx habsent =>
          have hkey := Layout.absent_of_check hcheck habsent
          exact .created hkey ((keys_update hok).trans (map_put_of_not_mem hkey))
      | rescore hx hpresent =>
          have hkey := Layout.present_of_check hcheck hpresent
          exact .rescored hkey ((keys_update hok).trans (map_put_of_mem hkey))
  | deleted hok =>
      obtain ⟨hcheck, rfl⟩ := Layout.delete_ok hok
      cases h with
      | remove member =>
          exact .removed (Layout.present_of_check hcheck (List.mem_singleton_self _))
            (keys_remove s _)

/-- No call leaves two items at one address. -/
lemma MemberStep.nodup {changed : Option ItemKey} (h : MemberStep key effect changed table table')
    (hkeys : table.keys.Nodup) : table'.keys.Nodup := by
  cases h with
  | unchanged => exact hkeys
  | created habsent hadded =>
      rw [hadded]
      exact List.concat_eq_append ▸ hkeys.concat habsent
  | rescored hpresent hsame => rwa [hsame]
  | removed hpresent hrest =>
      rw [hrest]
      exact hkeys.filter _

/-- How many changes for an effect a step makes: one or none. -/
def Effect.changes (effect counted : Effect) (changed : Option ItemKey) : ℕ :=
  if changed.isSome ∧ effect = counted then 1 else 0

/-- **A step creates an item, deletes one, or leaves their number as it is.** -/
lemma MemberStep.size {changed : Option ItemKey} (h : MemberStep key effect changed table table')
    (hkeys : table.keys.Nodup) :
    table'.size key + effect.changes .removes changed =
      table.size key + effect.changes .creates changed := by
  rw [Table.size_eq, Table.size_eq]
  cases h with
  | unchanged => rfl
  | @created member _ _ habsent hadded =>
      have hone : [(⟨key, member⟩ : ItemKey)].countP (·.partition = key) = 1 := by simp
      rw [hadded, List.countP_append, hone]
      rfl
  | rescored hpresent hsame =>
      rw [hsame]
      rfl
  | @removed member _ _ hpresent hrest =>
      have hpos : 0 < table.keys.countP (·.partition = key) :=
        List.countP_pos_iff.mpr ⟨_, hpresent, decide_eq_true rfl⟩
      rw [hrest, ← hkeys.erase_eq_filter, List.countP_erase,
        if_pos ⟨hpresent, decide_eq_true rfl⟩]
      exact Nat.sub_add_cancel hpos

/-- What a step does to one member: nothing, or it creates it where it was not, and leaves it where
it does not remove it. -/
lemma MemberStep.at_member {changed : Option ItemKey}
    (h : MemberStep key effect changed table table') (member : String) :
    (changed ≠ some ⟨key, member⟩ ∧ (⟨key, member⟩ ∈ table'.keys ↔ ⟨key, member⟩ ∈ table.keys)) ∨
      changed = some ⟨key, member⟩ ∧ (effect = .creates → ⟨key, member⟩ ∉ table.keys) ∧
        (effect ≠ .removes → ⟨key, member⟩ ∈ table'.keys) := by
  cases h with
  | unchanged => exact .inl ⟨by simp, Iff.rfl⟩
  | @created other _ _ habsent hadded =>
      by_cases hother : other = member
      · subst hother
        exact .inr ⟨rfl, fun _ => habsent, fun _ => by simp [hadded]⟩
      · exact .inl ⟨by simp [hother], by simp [hadded, Ne.symm hother]⟩
  | @rescored other _ _ hpresent hsame =>
      by_cases hother : other = member
      · subst hother
        exact .inr ⟨rfl, fun h => absurd h (by decide), fun _ => hsame ▸ hpresent⟩
      · exact .inl ⟨by simp [hother], by rw [hsame]⟩
  | @removed other _ _ hpresent hrest =>
      by_cases hother : other = member
      · subst hother
        exact .inr ⟨rfl, fun h => absurd h (by decide), fun h => absurd rfl h⟩
      · exact .inl ⟨by simp [hother], by simp [hrest, Ne.symm hother]⟩

/-- Calls for an effect leave no item of the collection without a score. -/
lemma Table.AllHaveScores.store {c : Call} (hc : MemberCall name key effect c)
    (h : table.AllHaveScores name key) : (layout.store c table).2.AllHaveScores name key := by
  refine Layout.store_invariant (P := fun table => table.AllHaveScores name key) h ?_ ?_
  · rintro address updates conditions table' rfl hok item hitem hpartition
    rw [(Layout.writeIndex_ok (Layout.update_ok hok).2).items, Table.putItem,
      Table.putIn_eq_put] at hitem
    rcases mem_put hitem with rfl | hold
    · cases hc with
      | create hx | rescore hx =>
          obtain ⟨y, hy, -⟩ := Score.encode_decode hx
          exact ⟨_, y, Assoc.get?_insert_self _ _ _, hy⟩
    · exact h item hold hpartition
  · rintro address conditions table' - hok item hitem hpartition
    obtain ⟨-, rfl⟩ := Layout.delete_ok hok
    exact h item (List.mem_of_mem_filter hitem) hpartition

end Steps

/-! ## What many calls do to the items -/

section Chains

variable {ι : Type} {effects : ι → Effect} {events : List (Event ι Table)}

/-- How many of the calls for an effect changed something. -/
def changesFor (layout : Layout) (effects : ι → Effect) (counted : Effect)
    (events : List (Event ι Table)) : ℕ :=
  (writesOf layout.store events).countP (effects ·.process = counted)

lemma changesFor_cons (e : Event ι Table) (counted : Effect) :
    changesFor layout effects counted (e :: events) =
      changesFor layout effects counted events +
        (effects e.process).changes counted (e.changed layout.store) := by
  rw [changesFor, writesOf, List.filter_cons, Effect.changes]
  by_cases hchanged : (e.changed layout.store).isSome = true
  · simp only [hchanged, if_true, true_and, List.countP_cons, decide_eq_true_eq]
    rfl
  · simp only [hchanged, if_false, false_and, Bool.false_eq_true]
    rfl

/-- **The number of items goes with what was created and deleted.** -/
theorem size_chained (h : Chained layout.store table events table')
    (hcalls : ∀ e ∈ events, MemberCall name key (effects e.process) e.call)
    (hkeys : table.keys.Nodup) :
    table'.size key + changesFor layout effects .removes events =
      table.size key + changesFor layout effects .creates events := by
  induction h with
  | nil s => rfl
  | @cons i c s s' events hrest ih =>
      have hstep : MemberStep key (effects i) (Event.changed layout.store ⟨i, c, s⟩) s
        (layout.store c s).2 := member_step (hcalls _ (List.mem_cons_self ..))
      have hsize := hstep.size hkeys
      have hlater := ih (fun e he => hcalls e (List.mem_cons_of_mem _ he)) (hstep.nodup hkeys)
      rw [changesFor_cons, changesFor_cons]
      dsimp only
      omega

variable {member : String}

/-- An item that is there, and is not deleted, is not created again. -/
lemma not_created (h : Chained layout.store table events table')
    (hcalls : ∀ e ∈ events, MemberCall name key (effects e.process) e.call)
    (hkept : ∀ i ∈ writers layout.store ⟨key, member⟩ events, effects i ≠ .removes)
    (hpresent : ⟨key, member⟩ ∈ table.keys) :
    ∀ i ∈ writers layout.store ⟨key, member⟩ events, effects i ≠ .creates := by
  induction h with
  | nil s => exact fun _ hi => absurd hi List.not_mem_nil
  | @cons i c s s' events hrest ih =>
      have hstep : MemberStep key (effects i) (Event.changed layout.store ⟨i, c, s⟩) s
        (layout.store c s).2 := member_step (hcalls _ (List.mem_cons_self ..))
      have hlater := ih fun e he => hcalls e (List.mem_cons_of_mem _ he)
      rcases hstep.at_member member with ⟨hother, hsame⟩ | ⟨hchanged, hcreates, hleft⟩
      · rw [writers_cons_of_ne hother] at hkept ⊢
        exact hlater hkept (hsame.mpr hpresent)
      · rw [writers_cons_of_eq hchanged, List.forall_mem_cons] at hkept ⊢
        exact ⟨fun heffect => hcreates heffect hpresent, hlater hkept.2 (hleft hkept.1)⟩

/-- **Between two creations of an item it is deleted.** -/
theorem created_once (h : Chained layout.store table events table')
    (hcalls : ∀ e ∈ events, MemberCall name key (effects e.process) e.call)
    (hkept : ∀ i ∈ writers layout.store ⟨key, member⟩ events, effects i ≠ .removes) :
    ((writers layout.store ⟨key, member⟩ events).filter (effects · = .creates)).length ≤ 1 := by
  induction h with
  | nil s => exact Nat.zero_le 1
  | @cons i c s s' events hrest ih =>
      have hstep : MemberStep key (effects i) (Event.changed layout.store ⟨i, c, s⟩) s
        (layout.store c s).2 := member_step (hcalls _ (List.mem_cons_self ..))
      have hcalls' := fun e he => hcalls e (List.mem_cons_of_mem _ he)
      rcases hstep.at_member member with ⟨hother, -⟩ | ⟨hchanged, -, hleft⟩
      · rw [writers_cons_of_ne hother] at hkept ⊢
        exact ih hcalls' hkept
      · rw [writers_cons_of_eq hchanged, List.forall_mem_cons] at hkept
        rw [writers_cons_of_eq hchanged]
        by_cases hcreates : effects i = .creates
        · -- the item is there from now on, so nobody else creates it
          have hnone := not_created hrest hcalls' hkept.2 (hleft hkept.1)
          rw [List.filter_cons_of_pos (by simpa using hcreates),
            List.filter_eq_nil_iff.mpr (by simpa using hnone)]
          rfl
        · rw [List.filter_cons_of_neg (by simpa using hcreates)]
          exact ih hcalls' hkept.2

/-- What is counted over all calls is the sum of what each program's calls are counted. -/
lemma sum_length_writesOf [DecidableEq ι] [Fintype ι] (layout : Layout) (effects : ι → Effect)
    (counted : Effect) (events : List (Event ι Table)) :
    ∑ i with effects i = counted, (writesOf layout.store (callsOf i events)).length =
      changesFor layout effects counted events := by
  have hcalls : ∀ i, (writesOf layout.store (callsOf i events)).length =
      (writesOf layout.store events).countP (·.process = i) := by
    intro i
    rw [writesOf, callsOf, List.filter_comm, ← List.countP_eq_length_filter, writesOf]
  simp only [hcalls, changesFor]
  induction writesOf layout.store events with
  | nil => exact Finset.sum_const_zero
  | cons e rest ih =>
      simp only [List.countP_cons, decide_eq_true_eq, Finset.sum_add_distrib, ih,
        Finset.sum_ite_eq, Finset.mem_filter, Finset.mem_univ, true_and]

end Chains

/-! ## Shared runs -/

/-- Whether a job does something to the members of a collection, whose scores have a name. -/
structure Job.Has (job : Job) (name key : String) (effect : Effect) : Prop where
  name : job.client.settings.scoreName = name
  command : job.command.Has key effect

/-- A job makes only the calls for what it does. -/
lemma Job.Has.calls {job : Job} {effect : Effect} {geometry : Geometry}
    (h : job.Has name key effect) :
    Program.Calls (MemberCall name key effect) (job.program geometry) := by
  obtain ⟨rfl, hcommand⟩ := h
  exact hcommand.calls

/-- The answers to calls that do not fail, of tables where all items of the collection have a
score. -/
structure FineReply (layout : Layout) (name key : String) (c : Call)
    (reply : Except Error c.Reply) : Prop where
  answer : ∃ table : Table, table.AllHaveScores name key ∧ reply = (layout.store c table).1
  miss : ∀ error, reply = .error error → error.isMiss = true

lemma FineReply.isMiss (c : Call) (error : Error) (h : FineReply layout name key c (.error error)) :
    error.isMiss = true :=
  h.miss error rfl

/-- A page of the collection has members only. -/
lemma FineReply.page (request : QueryRequest) (reply : Except Error QueryPage)
    (hpartition : request.partition = key) (h : FineReply layout name key (.query request) reply) :
    ∃ page, reply = .ok page ∧ ∀ item ∈ page.items, item.HasScore name := by
  obtain ⟨⟨table, hscored, hreply⟩, hmiss⟩ := h
  change reply = layout.query table request at hreply
  have hanswers := answers_query layout table request
  cases reply with
  | error error =>
      have hnever := hanswers.error error hreply.symm
      rw [hmiss error rfl] at hnever
      cases hnever
  | ok page =>
      refine ⟨page, rfl, fun item hitem => ?_⟩
      obtain ⟨hmem, hcollection⟩ := hanswers.ok page hreply.symm item hitem
      exact hscored item hmem (hcollection.trans hpartition)

section Shared

variable {ι : Type} [DecidableEq ι] {geometry : Geometry} {jobs : ι → Job}
  {events : List (Event ι Table)} {left : ι → Program Answer} {effects : ι → Effect}
  (hrun : Interleaved layout.store (fun i => (jobs i).program geometry) table events left table')
  (hjobs : ∀ i, (jobs i).Has name key (effects i))

include hrun hjobs

/-- Wherever a call is made, all items of the collection have a score. -/
lemma allHaveScores_before (hscored : table.AllHaveScores name key) :
    ∀ e ∈ events, e.before.AllHaveScores name key := by
  have hcalls : ∀ i, Program.Calls (MemberCall name key (effects i))
      ((jobs i).program geometry) := fun i => (hjobs i).calls
  have hbefore := hrun.invariant (I := fun s => s.AllHaveScores name key) hcalls
    (fun _ _ _ hc hs => hs.store hc) hscored
  exact fun e he => (hbefore e he).2

/-- **A job that has ended has returned how many of its writes took effect.** -/
theorem returned_count (hscored : table.AllHaveScores name key)
    (hanswered : ∀ e ∈ events, e.isAnswered layout.store = true)
    {i : ι} (hpages : (callsOf i events).length < (jobs i).client.maxPages)
    (hdone : (left i).isDone = true) :
    left i = .done (.ok (.count (writesOf layout.store (callsOf i events)).length)) := by
  have hbefore := allHaveScores_before hrun hjobs hscored
  have hfine : ∀ e ∈ callsOf i events, FineReply layout name key e.call (e.reply layout.store) := by
    intro e he
    have hmem := List.mem_of_mem_filter he
    exact ⟨⟨e.before, hbefore e hmem, rfl⟩, fun _ => Event.isMiss_of_isAnswered (hanswered e hmem)⟩
  obtain ⟨result, hresult⟩ := Program.eq_done_of_isDone hdone
  have hmade := hrun.made i
  rw [hresult] at hmade ⊢
  obtain ⟨rfl, hcommand⟩ := hjobs i
  obtain ⟨answer, hanswer, hcount⟩ := hmade.returned
    (hcommand.returns FineReply.isMiss FineReply.page hpages) hfine (Nat.le_refl _)
  rw [hanswer, hcount, Nat.zero_add]

end Shared

/-- **The counts that clients are returned tell how many members there are.**  Clients take turns in
any order, call by call, on a collection whose items all have a score: with additions of new
members, additions to existing ones, and removals of members and of ranges.  No call fails but for
its condition, and the bound on the pages of a scan is out of reach.  Then each client is returned
how many of its calls changed something.  When all have ended, the collection has as many items as
at first, with those that the additions of new members counted and without those that the removals
counted; and of the additions that competed for a member, with no removal of it in between, at most
one wrote it. -/
theorem members_conserved {ι : Type} [DecidableEq ι] [Fintype ι] {geometry : Geometry}
    {jobs : ι → Job} {events : List (Event ι Table)} {left : ι → Program Answer}
    {effects : ι → Effect}
    (hrun : Interleaved layout.store (fun i => (jobs i).program geometry) table events left table')
    (hjobs : ∀ i, (jobs i).Has name key (effects i))
    (hkeys : table.keys.Nodup) (hscored : table.AllHaveScores name key)
    (hanswered : ∀ e ∈ events, e.isAnswered layout.store = true)
    (hpages : ∀ i, (callsOf i events).length < (jobs i).client.maxPages)
    (hdone : ∀ i, (left i).isDone = true) :
    ∃ counts : ι → ℕ,
      (∀ i, left i = .done (.ok (.count (counts i)))) ∧
      table'.size key + ∑ i with effects i = .removes, counts i =
        table.size key + ∑ i with effects i = .creates, counts i ∧
      (∀ i, counts i = (writesOf layout.store (callsOf i events)).length) ∧
      ∀ member segment, segment <:+: events →
        (∀ i ∈ writers layout.store ⟨key, member⟩ segment, effects i ≠ .removes) →
        ((writers layout.store ⟨key, member⟩ segment).filter
          (effects · = .creates)).length ≤ 1 := by
  have hcalls : ∀ e ∈ events, MemberCall name key (effects e.process) e.call :=
    hrun.calls fun i => (hjobs i).calls
  refine ⟨fun i => (writesOf layout.store (callsOf i events)).length, fun i => ?_, ?_,
    fun _ => rfl, ?_⟩
  · exact returned_count hrun hjobs hscored hanswered (hpages i) (hdone i)
  · rw [sum_length_writesOf, sum_length_writesOf]
    exact size_chained hrun.chained hcalls hkeys
  · rintro member segment ⟨front, back, rfl⟩ hkept
    obtain ⟨s, s', hsegment⟩ := hrun.chained.segment
    exact created_once hsegment (fun e he => hcalls e (by simp [he])) hkept

/-- Five clients that compete for a member: two remove it, one of them by its score, two create it,
and one writes over its score. -/
def competitors (i : Fin 5) : Job where
  client := ⟨(Installation.mk "ranked" "").defaults, 5⟩
  command :=
    match i with
    | 0 => .removeByScore "k" none none
    | 1 => .remove "k" ["m", "m"]
    | 2 => .add "k" [("m", 1.0)] { onlyNew := true }
    | 3 => .add "k" [("m", 2.0)] { onlyNew := true }
    | 4 => .add "k" [("m", 3.0)] { onlyExisting := true }

/-- The table of one member. -/
def singleMember : Table where
  items := [⟨⟨"k", "m"⟩, [("sk2", .text "2")]⟩]
  index := [⟨⟨"k", "m"⟩, "sk2", "2"⟩]

/-- The run in which the member is removed and created again while the first client knows of it. -/
def competed : List (Event (Fin 5) Table) × (Fin 5 → Program Answer) × Table :=
  Program.interleave (Installation.mk "ranked" "").defaults.layout.store
    (fun i => (competitors i).program .sphere) singleMember [0, 1, 1, 2, 3, 4, 0]

/-- What the competitors do. -/
def competing : Fin 5 → Effect :=
  ![.removes, .removes, .creates, .creates, .rescores]

/-- The first client removes the member that was created after it had read the collection, and
counts it; of the two clients that create it, only one does. -/
theorem members_conserved_recreated :
    ∃ counts : Fin 5 → ℕ, counts = ![1, 1, 1, 0, 1] ∧
      (∀ i, competed.2.1 i = .done (.ok (.count (counts i)))) ∧
      singleMember.size "k" = 1 ∧ competed.2.2.size "k" = 0 ∧
      competed.2.2.size "k" + ∑ i with competing i = .removes, counts i =
        singleMember.size "k" + ∑ i with competing i = .creates, counts i ∧
      ((writers (Installation.mk "ranked" "").defaults.layout.store ⟨"k", "m"⟩
        ((competed.1.drop 3).take 3)).filter (competing · = .creates)).length ≤ 1 := by
  have hrun : Interleaved (Installation.mk "ranked" "").defaults.layout.store
      (fun i => (competitors i).program .sphere) singleMember competed.1 competed.2.1
      competed.2.2 := Program.interleaved_interleave _ _ _ _
  have hjobs : ∀ i, (competitors i).Has "sk2" "k" (competing i) := by
    intro i
    fin_cases i
    · exact ⟨rfl, .removeByScore isBound_none isBound_none⟩
    · exact ⟨rfl, .remove _⟩
    · exact ⟨rfl, .addNew rfl (by decide)⟩
    · exact ⟨rfl, .addNew rfl (by decide)⟩
    · exact ⟨rfl, .addExisting rfl rfl (by decide)⟩
  have hscored : singleMember.AllHaveScores "sk2" "k" := by
    intro item hitem _
    obtain rfl := List.mem_singleton.mp hitem
    obtain ⟨x, hx, -⟩ := Score.encode_decode (show Score.encode (Float.ofBits 0) = .ok "2" from rfl)
    exact ⟨"2", x, rfl, hx⟩
  obtain ⟨counts, hreturned, hsize, hcounts, honce⟩ := members_conserved hrun hjobs (by decide)
    hscored (by decide +kernel) (by decide +kernel) (by decide +kernel)
  have hwrites : ∀ i, (writesOf (Installation.mk "ranked" "").defaults.layout.store
      (callsOf i competed.1)).length = (![1, 1, 1, 0, 1] : Fin 5 → ℕ) i := by decide +kernel
  have hsegment : (competed.1.drop 3).take 3 <:+: competed.1 :=
    (List.take_prefix _ _).isInfix.trans (List.drop_suffix _ _).isInfix
  exact ⟨counts, funext fun i => (hcounts i).trans (hwrites i), hreturned, by decide,
    by decide +kernel, hsize, honce "m" _ hsegment (by decide +kernel)⟩

end RankedTable

import RankedTable.Connection
import RankedTable.Proofs.Command.Calls
import RankedTable.Proofs.Table.Journal

/-!
# The tables that clients build

A client starts with an empty embedded table and gives commands, one after the other.  Of such a
table more is known than of any other: the index mirrors the items, scores are encodings, nothing
nests, and each attribute is the one written last.

* `Reached` — the tables that sequences of commands lead to, with the journal of the calls.
* `ReachedBy` — the tables that commands of some sort lead to.
* **`ReachedBy.invariant`** — what every call of such commands keeps holds of the tables that they
  lead to; `Reached.invariant`.
* `ClientTable` — what is known of clients' tables.
* **`Reached.clientTable`**, **`Reached.attribute?_eq`** — all of it holds of each such table.
* `runCommand_of_run` — a connection answers what the command's program returns.
* `ReachedBy.runCommand` — a command on a connection leads from one such table to another.
* **`ReachedBy.eachScored`** — commands on sorted sets alone give every item a score.
-/

namespace RankedTable

/-- The tables that sequences of commands lead to from the empty one, each with the journal of the
calls that succeeded. -/
inductive Reached (settings : Settings) (geometry : Geometry) : List Call → Table → Prop
  | empty : Reached settings geometry [] {}
  | command {journal : List Call} {table : Table} (h : Reached settings geometry journal table)
      (command : Command) {journal' : List Call} {table' : Table}
      (hrun : ((command.program ⟨settings, table.pageBound⟩ geometry).run
        settings.layout.store.journaled (journal, table)).2 = (journal', table')) :
      Reached settings geometry journal' table'

/-- The tables that sequences of commands of some sort lead to from the empty one. -/
inductive ReachedBy (settings : Settings) (geometry : Geometry) (allowed : Command → Prop) :
    List Call → Table → Prop
  | empty : ReachedBy settings geometry allowed [] {}
  | command {journal : List Call} {table : Table}
      (h : ReachedBy settings geometry allowed journal table) (command : Command)
      (hallowed : allowed command) {journal' : List Call} {table' : Table}
      (hrun : ((command.program ⟨settings, table.pageBound⟩ geometry).run
        settings.layout.store.journaled (journal, table)).2 = (journal', table')) :
      ReachedBy settings geometry allowed journal' table'

variable {settings : Settings} {geometry : Geometry} {journal : List Call} {table table' : Table}

/-! ## What calls keep -/

section Invariant

variable {allowed : Command → Prop} {I : List Call × Table → Prop}

/-- **What every call of the allowed commands keeps holds of every table that they lead to**, if it
holds of the empty one.  It may speak of the journal, too. -/
theorem ReachedBy.invariant {P : Call → Prop}
    (h : ReachedBy settings geometry allowed journal table)
    (hcalls : ∀ maxPages command, allowed command →
      (command.program ⟨settings, maxPages⟩ geometry).Calls P)
    (hempty : I ([], {}))
    (hstep : ∀ c s, P c → I s → I (settings.layout.store.journaled c s).2) :
    I (journal, table) := by
  induction h with
  | empty => exact hempty
  | @command journal table _ command hallowed journal' table' hrun ih =>
      have hinv := Program.run_invariant settings.layout.store.journaled I
        (hcalls table.pageBound command hallowed) hstep ih
      rw [hrun] at hinv
      exact hinv

lemma ReachedBy.reached (h : ReachedBy settings geometry allowed journal table) :
    Reached settings geometry journal table := by
  induction h with
  | empty => exact .empty
  | command h command hallowed hrun ih => exact ih.command command hrun

/-- In the tables of clients every command is allowed. -/
lemma Reached.reachedBy (h : Reached settings geometry journal table) :
    ReachedBy settings geometry (fun _ => True) journal table := by
  induction h with
  | empty => exact .empty
  | command h command hrun ih => exact ih.command command trivial hrun

/-- What the calls of clients keep holds of every table that clients build. -/
lemma Reached.invariant (h : Reached settings geometry journal table) (hempty : I ([], {}))
    (hstep : ∀ c s, ClientCall settings c → I s →
      I (settings.layout.store.journaled c s).2) : I (journal, table) :=
  h.reachedBy.invariant
    (fun maxPages command _ => Command.calls_program ⟨settings, maxPages⟩ geometry command)
    hempty hstep

end Invariant

/-! ## Clients' tables -/

/-- Whether the scores that items have under a name are encodings of doubles. -/
def ScoresEncoded (name : String) (table : Table) : Prop :=
  ∀ key value, table.attribute? key name = some value →
    ∃ x t, value = .text t ∧ Score.encode x = .ok t

/-- What is known of the tables of clients. -/
structure ClientTable (settings : Settings) (table : Table) : Prop where
  mirrors : Mirrors settings.layout table
  /-- Scores are encodings, unless positions are kept under the same name. -/
  score : settings.scoreName ≠ settings.locationName → ScoresEncoded settings.scoreName table
  /-- No attribute holds others. -/
  flat : ∀ key item, table.find? key = some item → ∀ e ∈ item.attributes, e.2.depth = 1

lemma clientTable_empty : ClientTable settings {} where
  mirrors := mirrors_empty _
  score _ _ _ h := absurd h (by simp [Table.attribute?, Table.find?])
  flat _ _ h := absurd h (by simp [Table.find?])

/-- A write of one attribute is kept in order if its value is. -/
lemma ClientTable.update {key : ItemKey} {name : String} {value : Value}
    {conditions : List Condition} (h : ClientTable settings table)
    (hscore : settings.scoreName ≠ settings.locationName → name = settings.scoreName →
      ∃ x t, value = .text t ∧ Score.encode x = .ok t)
    (hdepth : value.depth = 1)
    (hok : settings.layout.update table key [(name, value)] conditions = .ok table') :
    ClientTable settings table' := by
  refine ⟨h.mirrors.update hok, ?_, ?_⟩
  · intro hne other v hv
    rw [Layout.attribute?_write hok] at hv
    split_ifs at hv with hwritten
    · exact Option.some_inj.mp hv ▸ hscore hne hwritten.2
    · exact h.score hne other v hv
  · intro other item hitem e he
    rw [Layout.find?_update hok] at hitem
    by_cases hk : key = other
    · rw [if_pos hk, Option.some_inj] at hitem
      subst hitem
      rcases Assoc.mem_insertAll he with hold | hnew
      · cases hfound : table.find? key with
        | none =>
            rw [hfound] at hold
            exact absurd hold List.not_mem_nil
        | some old =>
            rw [hfound] at hold
            exact h.flat key old hfound e hold
      · rw [List.mem_singleton.mp hnew]
        exact hdepth
    · rw [if_neg hk] at hitem
      exact h.flat other item hitem e he

lemma ClientTable.delete {key : ItemKey} {conditions : List Condition}
    (h : ClientTable settings table)
    (hok : settings.layout.delete table key conditions = .ok table') :
    ClientTable settings table' := by
  have hmirrors := h.mirrors.delete hok
  obtain ⟨-, rfl⟩ := Layout.delete_ok hok
  refine ⟨hmirrors, ?_, ?_⟩
  · intro hne other v hv
    exact h.score hne other v (Table.attribute?_of_remove hv)
  · intro other item hitem
    exact h.flat other item (Table.find?_of_remove hitem)

/-- **The calls of commands keep a client's table in order.** -/
theorem ClientTable.store (h : ClientTable settings table) {c : Call}
    (hc : ClientCall settings c) : ClientTable settings (settings.layout.store c table).2 := by
  refine Layout.store_invariant h ?_ fun _ _ _ _ hok => h.delete hok
  rintro key updates conditions table' rfl hok
  cases hc with
  | @score _ _ x encoded hx => exact h.update (fun _ _ => ⟨x, encoded, rfl, hx⟩) rfl hok
  | location => exact h.update (fun hne heq => absurd heq.symm hne) rfl hok

/-- Items of a client's table are read back as they are. -/
lemma ClientTable.readBack (h : ClientTable settings table) {key : ItemKey} {item : Item}
    (hitem : table.find? key = some item) :
    Table.readBack item.attributes = .ok item.attributes := by
  have hentries : ∀ {entries : List (String × Value)}, (∀ e ∈ entries, e.2.depth = 1) →
      Value.entriesDepth entries ≤ 1 := by
    intro entries hflat
    induction entries with
    | nil => exact Nat.zero_le _
    | cons e rest ih =>
        rw [Value.entriesDepth, hflat e (List.mem_cons_self ..)]
        exact Nat.max_le.mpr ⟨Nat.le_refl 1, ih fun e he => hflat e (List.mem_cons_of_mem _ he)⟩
  have hdepth : Attributes.depth item.attributes ≤ 2 := by
    have hle := hentries (h.flat key item hitem)
    rw [Attributes.depth, Value.levelAround]
    split_ifs <;> omega
  rw [Table.readBack, if_pos (Nat.le_trans hdepth (by decide))]

/-- A connection answers what the program of a command returns. -/
lemma runCommand_of_run {command : Command} {result : Except Error Answer}
    (hrun : (command.program ⟨settings, table.pageBound⟩ geometry).run settings.layout.store table =
      (result, table')) :
    (Connection.embedded settings.layout table).runCommand settings geometry command =
      (result, .embedded settings.layout table') := by
  obtain ⟨hresult, htable⟩ := Program.run_interrupted_none settings.layout.store
    (command.program ⟨settings, table.pageBound⟩ geometry) [] table
  rw [hrun] at hresult htable
  exact Prod.ext hresult (congrArg (Connection.embedded settings.layout) htable)

/-- **A client's table is in order.** -/
theorem Reached.clientTable (h : Reached settings geometry journal table) :
    ClientTable settings table :=
  h.invariant (I := fun s => ClientTable settings s.2) clientTable_empty fun _ _ hc hs =>
    hs.store hc

/-- **A client's table has of each attribute what was written last.** -/
theorem Reached.attribute?_eq (h : Reached settings geometry journal table) (key : ItemKey)
    (name : String) : table.attribute? key name = lastWritten key name journal :=
  h.invariant (I := fun s => ∀ key name, s.2.attribute? key name = lastWritten key name s.1)
    (fun _ _ => rfl) (fun c _ _ hs => attribute?_journaled settings.layout c hs) key name

/-- What an allowed command leaves on a connection is reached with it. -/
lemma ReachedBy.runCommand {allowed : Command → Prop}
    (h : ReachedBy settings geometry allowed journal table) {command : Command}
    (hallowed : allowed command) {answer : Except Error Answer}
    (hrun : (Connection.embedded settings.layout table).runCommand settings geometry command =
      (answer, .embedded settings.layout table')) :
    ∃ journal', ReachedBy settings geometry allowed journal' table' := by
  have htable := (run_journaled settings.layout.store
    (command.program ⟨settings, table.pageBound⟩ geometry) journal table).2
  rw [runCommand_of_run rfl] at hrun
  injection (Prod.mk.inj hrun).2 with _ hleft
  exact ⟨_, .command h command hallowed (Prod.ext rfl (htable.trans hleft))⟩

/-! ## Sorted sets alone -/

/-- Whether every item has a score, which is the encoding of a double. -/
def EachScored (settings : Settings) (table : Table) : Prop :=
  ∀ key item, table.find? key = some item →
    ∃ x t, item.get? settings.scoreName = some (.text t) ∧ Score.encode x = .ok t

lemma EachScored.scoresEncoded (h : EachScored settings table) :
    ScoresEncoded settings.scoreName table := by
  intro key value hvalue
  obtain ⟨item, hitem, hget⟩ := Option.bind_eq_some_iff.mp hvalue
  obtain ⟨x, t, ht, hx⟩ := h key item hitem
  exact ⟨x, t, Option.some_inj.mp (hget.symm.trans ht), hx⟩

/-- Calls that write nothing but scores leave no item without one. -/
lemma EachScored.store (h : EachScored settings table) {c : Call} (hc : SetCall settings c) :
    EachScored settings (settings.layout.store c table).2 := by
  refine Layout.store_invariant h ?_ ?_
  · rintro key updates conditions table' rfl hok
    cases hc with
    | @score _ _ x encoded hx =>
        intro other item hitem
        rw [Layout.find?_update hok] at hitem
        split_ifs at hitem with hk
        · refine ⟨x, encoded, ?_, hx⟩
          rw [← Option.some_inj.mp hitem]
          exact Assoc.get?_insert_self _ _ _
        · exact h other item hitem
  · rintro key conditions table' - hok other item hitem
    obtain ⟨-, rfl⟩ := Layout.delete_ok hok
    exact h other item (Table.find?_of_remove hitem)

/-- **Where only sorted sets are kept, every item has a score.** -/
theorem ReachedBy.eachScored
    (h : ReachedBy settings geometry (·.isSortedSet = true) journal table) :
    EachScored settings table :=
  h.invariant (I := fun s => EachScored settings s.2)
    (fun maxPages _ hset => Command.calls_sortedSet ⟨settings, maxPages⟩ geometry hset)
    (fun _ _ hitem => absurd hitem (by simp [Table.find?])) fun _ _ hc hs => hs.store hc

end RankedTable

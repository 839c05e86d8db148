import RankedTable.Proofs.Command.Reached

/-!
# Sessions

A session gives commands on one connection, one after the other.  A command that fails is answered
its error, and the next one is given all the same.

* `Connection.session` — the commands of a session with their answers, and the connection after it.
* `session_cons` — the first command of a session on an embedded table.
* `ClientTable.run` — a command leaves a client's table in order.
* **`session_filter`** — commands may be left out if what is looked at does not depend on them.
-/

namespace RankedTable

/-- Gives commands one after the other. -/
def Connection.session (settings : Settings) (geometry : Geometry) :
    List Command → Connection → List (Command × Except Error Answer) × Connection
  | [], connection => ([], connection)
  | command :: rest, connection =>
    let (answer, next) := connection.runCommand settings geometry command
    let (answers, last) := Connection.session settings geometry rest next
    ((command, answer) :: answers, last)

variable {settings : Settings} {geometry : Geometry} {table table' : Table}

/-- A session goes on with the table that its first command leaves. -/
lemma session_cons {command : Command} {answer : Except Error Answer} (rest : List Command)
    (hrun : (command.program ⟨settings, table.pageBound⟩ geometry).run settings.layout.store table =
      (answer, table')) :
    (Connection.embedded settings.layout table).session settings geometry (command :: rest) =
      let (answers, last) :=
        (Connection.embedded settings.layout table').session settings geometry rest
      ((command, answer) :: answers, last) := by
  rw [Connection.session, runCommand_of_run hrun]

/-- **A command leaves a client's table in order**, whatever it is answered. -/
theorem ClientTable.run (h : ClientTable settings table) (command : Command) (maxPages : ℕ)
    (geometry : Geometry) :
    ClientTable settings
      ((command.program ⟨settings, maxPages⟩ geometry).run settings.layout.store table).2 :=
  Program.run_invariant settings.layout.store (ClientTable settings)
    (Command.calls_program ⟨settings, maxPages⟩ geometry command) (fun _ _ hc hs => hs.store hc) h

/-! ## Sessions with commands left out -/

/-- The answer to a command on a table, and the table that it leaves. -/
def Table.answer (settings : Settings) (geometry : Geometry) (table : Table) (command : Command) :
    Except Error Answer × Table :=
  (command.program ⟨settings, table.pageBound⟩ geometry).run settings.layout.store table

/-- **Commands that nobody sees may be left out**, if there is a relation of tables that the others
keep, with the same answers where these are looked at, and that is kept by making one of the left
out on one side. -/
theorem session_filter {R : Table → Table → Prop} {seen kept : Command → Bool}
    {commands : List Command}
    (hkept : ∀ command ∈ commands, kept command = true → ∀ {s t}, R s t →
      (seen command = true →
        (s.answer settings geometry command).1 = (t.answer settings geometry command).1) ∧
      R (s.answer settings geometry command).2 (t.answer settings geometry command).2)
    (hleft : ∀ command ∈ commands, kept command = false →
      seen command = false ∧ ∀ {s t}, R s t → R (s.answer settings geometry command).2 t)
    {s t : Table} (h : R s t) :
    ((Connection.embedded settings.layout s).session settings geometry commands).1.filter
        (fun e => seen e.1) =
      ((Connection.embedded settings.layout t).session settings geometry
        (commands.filter kept)).1.filter fun e => seen e.1 := by
  -- the relation holds of the tables before each command, whichever were left out before it
  induction commands generalizing s t with
  | nil => rfl
  | cons command rest ih =>
      have hrest := @ih (fun c hc => hkept c (List.mem_cons_of_mem _ hc))
        fun c hc => hleft c (List.mem_cons_of_mem _ hc)
      rw [session_cons rest rfl, List.filter_cons, List.filter_cons]
      cases hkeep : kept command with
      | true =>
          obtain ⟨hanswer, hnext⟩ := hkept command (List.mem_cons_self ..) hkeep h
          rw [if_pos rfl, session_cons _ rfl, List.filter_cons]
          cases hseen : seen command with
          | true =>
              have hanswers := hanswer hseen
              rw [Table.answer, Table.answer] at hanswers
              rw [if_pos rfl, if_pos rfl, hanswers]
              exact congrArg _ (hrest hnext)
          | false => exact hrest hnext
      | false =>
          obtain ⟨hseen, hnext⟩ := hleft command (List.mem_cons_self ..) hkeep
          rw [hseen]
          exact hrest (hnext h)

end RankedTable

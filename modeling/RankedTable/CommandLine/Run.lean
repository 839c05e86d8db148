import RankedTable.CommandLine.Subcommand
import RankedTable.Connection
import RankedTable.Logging
import RankedTable.Text.ControlSequence

/-!
# Running a command line

* `Outcome` — what a run ends with.
* `Installation.run` — one run over the contents of the embedded table.
-/

namespace RankedTable

/-- The options before the command. -/
def globalGrammar : ArgumentGrammar where
  flags := ["--verbose", "--help"]
  valued := ["--backend", "--table"]
  letters := [('v', "--verbose")]
  interspersed := false

/-- What a run ends with. -/
inductive Outcome where
  | printed (text : String)
  /-- The arguments make no command. -/
  | usage
  | failed (error : Error)

/-- The settings that the options before the command give; an empty table name gives none. -/
def givenSettings (arguments : Arguments) : List (String × Tree) :=
  let given (option field : String) : List (String × Tree) :=
    match arguments.value? option with
    | some value => if value = "" then [] else [(field, .text value)]
    | none => []
  given "--backend" "backend" ++ given "--table" "table_name"

/-- Whether the options before the command are in order: the backend has to be known. -/
def globalsFit (arguments : Arguments) : Bool :=
  match arguments.value? "--backend" with
  | some name => (Backend.ofTree? (.text name)).isSome
  | none => true

/-- The contents of the embedded table after a run. -/
def Connection.contents (connection : Connection) (before : Table) : Table :=
  match connection with
  | .embedded _ table => table
  | .remote .. => before

/-- A link that leads nowhere: the command line has no credentials for a service. -/
def deadLink : Link where
  fallback := .withoutCredentials

/-- The contents that a run starts from: a table in memory is new each time. -/
def Settings.initial (settings : Settings) (contents : Table) : Table :=
  if settings.inMemory then {} else contents

/-- Runs a command under the settings of the environment and those given.  What is printed has no
commands for a terminal in it. -/
def Installation.runCommand (installation : Installation)
    (environment : List (String × String)) (given : List (String × Tree)) (contents : Table)
    (command : Command) : Outcome × Table :=
  let prepared := do
    let settings ← installation.settings environment given
    return (settings, ← settings.connect (settings.initial contents) deadLink)
  match prepared with
  | .error e => (.failed e, contents)
  | .ok (settings, connection) =>
    let (result, after) := connection.runCommand settings Geometry.sphere command
    let contents := if settings.inMemory then contents else after.contents contents
    match result with
    | .ok answer => (.printed (dropControlSequences (printAnswer answer)), contents)
    | .error e => (.failed e, contents)

/-- The settings of the environment have to be in order, and their log level known, before a
command's arguments are looked at. -/
def Installation.prepare (installation : Installation) (environment : List (String × String))
    (verbose : Bool) : Except Error Verbosity := do
  let settings ← installation.settings environment []
  Verbosity.configure {} verbose (.name settings.logLevel)

/-- Runs a command line over the contents of the embedded table. -/
def Installation.run (installation : Installation) (environment : List (String × String))
    (contents : Table) (line : List String) : Outcome × Table :=
  match globalGrammar.parse? line with
  | none => (.usage, contents)
  | some globals =>
    if globals.has "--help" then (.printed "", contents)
    else if !globalsFit globals then (.usage, contents)
    else
      match globals.others with
      | [] => (.usage, contents)
      | name :: rest =>
        match subcommands.find? (·.name = name) with
        | none => (.usage, contents)
        | some subcommand =>
          match installation.prepare environment (globals.has "--verbose") with
          | .error e => (.failed e, contents)
          | .ok _ =>
            match subcommand.grammar.parse? rest with
            | none => (.usage, contents)
            | some arguments =>
              if arguments.has "--help" then (.printed "", contents)
              else
                match subcommand.read arguments with
                | none => (.usage, contents)
                | some command =>
                  installation.runCommand environment (givenSettings globals) contents command

end RankedTable

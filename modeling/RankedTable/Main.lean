import RankedTable.CommandLine.Run
import RankedTable.Table.Archive

/-!
# The program

Runs one command line.  The embedded table is read from its file before the run and written back
after it.

* `main` — the exit code is 0 if the command was run, 1 if it failed, 2 if the line makes no
  command.
-/

namespace RankedTable

/-- The environment's variables that can bear on the settings. -/
def settingVariables (installation : Installation) : IO (List (String × String)) := do
  let candidates := installation.defaults.toFields.names.flatMap fun field =>
    let candidate := installation.name ++ "_" ++ field
    [candidate, candidate.toUpper]
  candidates.filterMapM fun candidate => do
    return (← IO.getEnv candidate).map fun value => (candidate, value)

/-- The file of the embedded table under the settings of the environment, if it has one. -/
def tableFile (installation : Installation) (environment : List (String × String)) :
    Option String :=
  match installation.settings environment [] with
  | .ok settings =>
    if settings.inMemory || !(checkPath settings.path).isOk then none else some settings.path
  | .error _ => none

/-- The contents of a file; a file that is not there is an empty table. -/
def loadTable (file : Option String) : IO (Except Error Table) := do
  match file with
  | none => return .ok {}
  | some file =>
    let text? ← try some <$> IO.FS.readFile file catch _ => pure none
    return text?.elim (.ok {}) Table.restore

/-- The directory of a file. -/
def directoryOf (file : String) : String :=
  "/".intercalate (file.splitOn "/").dropLast

/-- Writes a table to its file. -/
def saveTable (file : Option String) (table : Table) : IO Unit := do
  match file with
  | none => return ()
  | some file =>
    let directory := directoryOf file
    unless directory = "" do
      IO.FS.createDirAll directory
    IO.FS.writeFile file table.archive

end RankedTable

open RankedTable in
/-- Runs one command line. -/
def main (line : List String) : IO UInt32 := do
  let name := ((← IO.appPath).fileStem.getD "rankedtable").toLower
  let home := (← IO.getEnv "HOME").getD ""
  let installation : Installation := ⟨name, home⟩
  let environment ← settingVariables installation
  let file := tableFile installation environment
  match ← loadTable file with
  | .error _ =>
    IO.eprintln "the file of the table cannot be read"
    return 1
  | .ok before =>
    let (outcome, after) := installation.run environment before line
    match outcome with
    | .printed text =>
      saveTable file after
      IO.print text
      return 0
    | .usage =>
      IO.eprintln ("usage: " ++ name ++ " [OPTIONS] COMMAND [ARGUMENTS]")
      return 2
    | .failed e =>
      saveTable file after
      IO.eprintln (e.message?.getD "the command failed")
      return 1

import RankedTable.Error
import RankedTable.Text.Fold

/-!
# Log levels

There is one logger for the program and there are some for the transport under it.

* `Verbosity` — their levels, and whether they write anywhere.
* `Verbosity.configure` — chatty, or at a level of choice.
-/

namespace RankedTable

/-- The levels of the loggers. -/
structure Verbosity where
  own : Int := 0
  transport : Int := 0
  /-- Whether the loggers have been attached to the error output. -/
  attached : Bool := false
  deriving DecidableEq, Repr, Inhabited

/-- A level, as it can be chosen. -/
inductive LogLevel where
  | number (n : Int)
  | name (s : String)
  deriving DecidableEq, Repr

namespace LogLevel

/-- The levels that have names. -/
def named : List (String × Int) :=
  [("CRITICAL", 50), ("FATAL", 50), ("ERROR", 40), ("WARN", 30), ("WARNING", 30), ("INFO", 20),
    ("DEBUG", 10), ("NOTSET", 0)]

/-- The number of a level; names are read without regard to case. -/
def toInt : LogLevel → Except Error Int
  | number n => .ok n
  | name s =>
    match named.lookup (upperAscii s) with
    | some n => .ok n
    | none => .error (.unknownLogLevel s)

end LogLevel

/-- Sets the levels.  Verbose means debugging output of the program and information of the
transport, whatever the level; otherwise the transport only warns. -/
def Verbosity.configure (_ : Verbosity) (verbose : Bool) (level : LogLevel) :
    Except Error Verbosity := do
  if verbose then return ⟨10, 20, true⟩
  else return ⟨← level.toInt, 30, true⟩

end RankedTable

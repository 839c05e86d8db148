import RankedTable.Binary64.Parser
import RankedTable.Command
import RankedTable.CommandLine.Arguments

/-!
# Commands of the command line

* `printAnswer` — how answers are printed.
* `Subcommand` — a command by name, with its options and a reader of its arguments.
* `subcommands` — all of them.
-/

namespace RankedTable

/-! ## Printing -/

/-- A score, with at most six digits. -/
def printScore (x : Float) : String :=
  (Binary64.ofFloat x).generalText 6 .toEven

/-- Lines, or a word if there are none. -/
def printLines (lines : List String) : String :=
  if lines.isEmpty then "(empty)\n" else String.join (lines.map (· ++ "\n"))

/-- A degree, with six decimal places. -/
def printDegrees (x : Float) : String :=
  (Binary64.ofFloat x).fixedText 6

/-- An answer as it is printed: one line, or one for each member. -/
def printAnswer : Answer → String
  | .count n => Tree.intText n ++ "\n"
  | .number x => printScore x ++ "\n"
  | .score x found => (if found then printScore x else "(nil)") ++ "\n"
  | .rank n found => (if found then Tree.intText n else "(nil)") ++ "\n"
  | .scores members => printLines (members.map fun (name, x) => name ++ "\t" ++ printScore x)
  | .locations members =>
    printLines (members.map fun (name, location) =>
      name ++ "\t" ++ printDegrees location.lon ++ "\t" ++ printDegrees location.lat)
  | .distance x found =>
    (if found then (Binary64.ofFloat x).fixedText 4 else "(nil)") ++ "\n"
  | .texts texts => printLines texts

/-! ## Reading -/

/-- A command by name. -/
structure Subcommand where
  name : String
  flags : List String := []
  valued : List String := []
  /-- Dashed arguments that are no options are arguments like others. -/
  negatives : Bool := false
  read : Arguments → Option Command

/-- The grammar of a command's arguments. -/
def Subcommand.grammar (subcommand : Subcommand) : ArgumentGrammar where
  flags := "--help" :: subcommand.flags
  valued := subcommand.valued
  keepUnknown := subcommand.negatives

/-- The number of an option, zero if it is not given. -/
def intOption (arguments : Arguments) (option : String) : Option Int :=
  match arguments.value? option with
  | some text => readInt? text
  | none => some 0

/-- The unit of an option, metres if it is not given.  Only short names are taken. -/
def unitOption (arguments : Arguments) : Option DistanceUnit :=
  match arguments.value? "--unit" with
  | some text => DistanceUnit.all.find? (·.symbol = text)
  | none => some .meters

/-- Scores and names in turn. -/
def readPairs : List String → Option (List (String × Float))
  | [] => some []
  | score :: name :: rest => do
    let x ← readFloat? score
    return (name, x) :: (← readPairs rest)
  | _ => none

/-- Longitudes, latitudes and names in turn. -/
def readTriples : List String → Option (List (String × Location))
  | [] => some []
  | lon :: lat :: name :: rest => do
    let location : Location := ⟨← readFloat? lat, ← readFloat? lon⟩
    return (name, location) :: (← readTriples rest)
  | _ => none

/-- The arguments of a pop: a key and a count, one if it is not given. -/
def readPop (lowest : Bool) (arguments : Arguments) : Option Command :=
  match arguments.others with
  | [key] => some (.pop key 1 lowest)
  | [key, count] => (readInt? count).map (.pop key · lowest)
  | _ => none

/-- The commands for sorted sets. -/
def sortedSetCommands : List Subcommand := [
  { name := "zadd", flags := ["--nx", "--xx"], negatives := true
    read := fun arguments =>
      match arguments.others with
      | key :: first :: rest => do
        let members ← readPairs (first :: rest)
        return .add key (Assoc.ofList members) ⟨arguments.has "--nx", arguments.has "--xx"⟩
      | _ => none },
  { name := "zscore"
    read := fun arguments =>
      match arguments.others with
      | [key, member] => some (.score key member)
      | _ => none },
  { name := "zcard"
    read := fun arguments =>
      match arguments.others with
      | [key] => some (.cardinality key)
      | _ => none },
  { name := "zincrby", negatives := true
    read := fun arguments =>
      match arguments.others with
      | [key, delta, member] => (readFloat? delta).map (.increment key member ·)
      | _ => none },
  { name := "zrange", flags := ["--rev"], negatives := true
    read := fun arguments =>
      match arguments.others with
      | [key, start, stop] => do
        return .rangeByRank key (← readInt? start) (← readInt? stop) (!arguments.has "--rev")
      | _ => none },
  { name := "zrangebyscore", valued := ["--offset", "--count"], negatives := true
    read := fun arguments =>
      match arguments.others with
      | [key, low, high] => do
        return .rangeByScore key (← readFloat? low) (← readFloat? high)
          (← intOption arguments "--offset") (← intOption arguments "--count") true
      | _ => none },
  { name := "zrem"
    read := fun arguments =>
      match arguments.others with
      | key :: first :: rest => some (.remove key (first :: rest))
      | _ => none },
  { name := "zpopmin", read := readPop true },
  { name := "zpopmax", read := readPop false }]

/-- The commands for geo indexes. -/
def geoCommands : List Subcommand := [
  { name := "geoadd", negatives := true
    read := fun arguments =>
      match arguments.others with
      | key :: first :: rest => do
        let members ← readTriples (first :: rest)
        return .addLocations key (Assoc.ofList members)
      | _ => none },
  { name := "geopos"
    read := fun arguments =>
      match arguments.others with
      | key :: first :: rest => some (.positions key (first :: rest))
      | _ => none },
  { name := "geodist", valued := ["--unit"]
    read := fun arguments =>
      match arguments.others with
      | [key, first, second] => (unitOption arguments).map (.distance key first second ·)
      | _ => none },
  { name := "georadius", valued := ["--unit", "--count"], negatives := true
    read := fun arguments =>
      match arguments.others with
      | [key, lon, lat, radius] => do
        let centre : Location := ⟨← readFloat? lat, ← readFloat? lon⟩
        return .radius key ⟨centre, ← readFloat? radius, ← unitOption arguments,
          ← intOption arguments "--count"⟩
      | _ => none }]

/-- All commands. -/
def subcommands : List Subcommand :=
  sortedSetCommands ++ geoCommands

end RankedTable

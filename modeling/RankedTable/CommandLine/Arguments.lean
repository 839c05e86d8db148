/-!
# Arguments of a command line

Options begin with a dash and may stand between the other arguments; `--` ends them.  A grammar
may keep dashed arguments that it does not know, so that negative numbers need no `--`.

* `ArgumentGrammar` — which options there are.
* `Arguments` — options and other arguments, told apart.
* `ArgumentGrammar.parse?` — tells them apart.
-/

namespace RankedTable

/-- Which options there are. -/
structure ArgumentGrammar where
  /-- Options without a value, by their long names. -/
  flags : List String := []
  /-- Options with a value, by their long names. -/
  valued : List String := []
  /-- One-letter names of flags. -/
  letters : List (Char × String) := []
  /-- Unknown options are kept as arguments. -/
  keepUnknown : Bool := false
  /-- Options may follow after other arguments. -/
  interspersed : Bool := true

/-- Options and other arguments. -/
structure Arguments where
  flags : List String := []
  values : List (String × String) := []
  others : List String := []
  deriving Repr, Inhabited

namespace Arguments

/-- Whether a flag is given. -/
def has (arguments : Arguments) (flag : String) : Bool :=
  arguments.flags.contains flag

/-- The value of an option; the last one given counts. -/
def value? (arguments : Arguments) (option : String) : Option String :=
  arguments.values.reverse.lookup option

/-- With a flag in front. -/
def addFlag (flag : String) (arguments : Arguments) : Arguments :=
  { arguments with flags := flag :: arguments.flags }

/-- With an option in front. -/
def addValue (option value : String) (arguments : Arguments) : Arguments :=
  { arguments with values := (option, value) :: arguments.values }

/-- With another argument in front. -/
def addOther (argument : String) (arguments : Arguments) : Arguments :=
  { arguments with others := argument :: arguments.others }

end Arguments

namespace ArgumentGrammar

/-- An option's name and the value attached to it. -/
def splitValue (argument : String) : String × Option String :=
  let chars := argument.toList
  let name := String.ofList (chars.takeWhile (· ≠ '='))
  match chars.dropWhile (· ≠ '=') with
  | _ :: value => (name, some (String.ofList value))
  | [] => (name, none)

/-- Takes the letters of a cluster apart: the flags among them, and the rest. -/
def letterFlags (grammar : ArgumentGrammar) (cluster : List Char) : List String × List Char :=
  (cluster.filterMap fun c => grammar.letters.lookup c,
    cluster.filter fun c => (grammar.letters.lookup c).isNone)

/-- What a dashed argument is. -/
inductive Dashed where
  | flag (name : String)
  | attached (name value : String)
  | awaiting (name : String)
  | cluster (flags : List String) (unknown : List Char)
  | unknown
  | misused

/-- Classifies a dashed argument. -/
def classify (grammar : ArgumentGrammar) (argument : String) : Dashed :=
  let (name, value) := splitValue argument
  if grammar.flags.contains name then
    if value.isSome then .misused else .flag name
  else if grammar.valued.contains name then
    match value with
    | some value => .attached name value
    | none => .awaiting name
  else if argument.startsWith "--" then .unknown
  else
    let (flags, unknown) := grammar.letterFlags (argument.toList.drop 1)
    .cluster flags unknown

/-- Whether an argument could be an option. -/
def isDashed (argument : String) : Bool :=
  argument.startsWith "-" && argument ≠ "-"

/-- Tells options from other arguments; `none` if an option is unknown or misused. -/
def parse? (grammar : ArgumentGrammar) : List String → Option Arguments
  | [] => some {}
  | argument :: rest =>
    if argument = "--" then some { others := rest }
    else if isDashed argument then
      match grammar.classify argument with
      | .flag name => (grammar.parse? rest).map (·.addFlag name)
      | .attached name value => (grammar.parse? rest).map (·.addValue name value)
      | .awaiting name =>
        match rest with
        | value :: rest => (grammar.parse? rest).map (·.addValue name value)
        | [] => none
      | .cluster flags [] =>
        (grammar.parse? rest).map fun arguments => flags.foldr Arguments.addFlag arguments
      | .cluster flags unknown =>
        if grammar.keepUnknown then
          (grammar.parse? rest).map fun arguments =>
            (flags.foldr Arguments.addFlag arguments).addOther (String.ofList ('-' :: unknown))
        else none
      | .unknown =>
        if grammar.keepUnknown then (grammar.parse? rest).map (·.addOther argument) else none
      | .misused => none
    else if grammar.interspersed then (grammar.parse? rest).map (·.addOther argument)
    else some { others := argument :: rest }

end ArgumentGrammar

end RankedTable

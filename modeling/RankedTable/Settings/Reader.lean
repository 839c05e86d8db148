import RankedTable.Error
import RankedTable.Settings.Basic
import RankedTable.Tree.Lenient

/-!
# Reading settings

Settings come from two places: variables of the environment, named for the program and the setting,
and values given directly, which win.  The case of a name does not matter in either.

* `Settings.overlay` — settings with some fields given as trees.
* `Installation.settings` — the settings of an environment and direct values.
-/

namespace RankedTable

/-! ## Single fields -/

/-- The backend of a name. -/
def Backend.ofTree? : Tree → Option Backend
  | .text "dynamodb" => some .remote
  | .text "sqlite" => some .embedded
  | _ => none

/-- A path without empty and without `.` components.  Two slashes in front are kept as they are,
any other number of them is one. -/
def normalPath (path : String) : String :=
  let slashes := (path.toList.takeWhile (· = '/')).length
  let components := (path.splitOn "/").filter fun part => part ≠ "" ∧ part ≠ "."
  let root := if slashes = 0 then "" else if slashes = 2 then "//" else "/"
  let joined := root ++ "/".intercalate components
  if joined = "" then "." else joined

/-- The settings with one field set; `none` if there is no such field or the value does not fit. -/
def Settings.set? (settings : Settings) (field : String) (value : Tree) : Option Settings :=
  match field with
  | "backend" => (Backend.ofTree? value).map ({ settings with backend := · })
  | "table_name" => value.toText?.map ({ settings with tableName := · })
  | "region_name" => (value.orNull Tree.toText?).map ({ settings with region := · })
  | "endpoint_url" => (value.orNull Tree.toText?).map ({ settings with endpoint := · })
  | "consistent_reads" => value.toBool?.map ({ settings with consistentReads := · })
  | "sqlite_path" =>
    match value with
    | .text path => some { settings with path := normalPath path }
    | _ => none
  | "page_size" => (value.orNull Tree.toInt?).map ({ settings with pageSize := · })
  | "partition_attribute" => value.toText?.map ({ settings with partitionName := · })
  | "sort_attribute" => value.toText?.map ({ settings with memberName := · })
  | "score_attribute" => value.toText?.map ({ settings with scoreName := · })
  | "location_attribute" => value.toText?.map ({ settings with locationName := · })
  | "index_prefix" => value.toText?.map ({ settings with indexPrefix := · })
  | "max_increment_attempts" => value.toInt?.map ({ settings with maxAttempts := · })
  | "log_level" => value.toText?.map ({ settings with logLevel := · })
  | "geohash_precision" => value.toInt?.map ({ settings with geohashPrecision := · })
  | "max_covering_cells" => value.toInt?.map ({ settings with maxCells := · })
  | _ => none

/-! ## Whole settings -/

/-- The settings with some fields set, one after the other. -/
def Settings.overlay (settings : Settings) : List (String × Tree) → Except Error Settings
  | [] => .ok settings
  | (field, value) :: rest =>
    match settings.set? field value with
    | some settings => settings.overlay rest
    | none => .error .invalidField

/-- The fields that variables of the environment set: those named for the program and a field. -/
def Installation.variableFields (installation : Installation)
    (environment : List (String × String)) : List (String × Tree) :=
  let folded := environment.map fun (name, value) => (lowerAscii name, value)
  installation.defaults.toFields.names.filterMap fun field =>
    let name := lowerAscii installation.name ++ "_" ++ field
    ((folded.reverse.lookup name).map fun value => (field, .text value))

/-- The fields that direct values set.  Case does not matter in their names either; of several that
differ in nothing else the first counts. -/
def directFields (given : List (String × Tree)) : List (String × Tree) :=
  given.foldl (fun fields (name, value) =>
    let field := lowerAscii name
    if Assoc.contains fields field then fields else fields ++ [(field, value)]) []

/-- The settings of an environment and of values given directly, which win. -/
def Installation.settings (installation : Installation) (environment : List (String × String))
    (given : List (String × Tree)) : Except Error Settings :=
  let direct := directFields given
  let fromVariables := (installation.variableFields environment).filter fun (field, _) =>
    !Assoc.contains direct field
  installation.defaults.overlay (fromVariables ++ direct)

end RankedTable

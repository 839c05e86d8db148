import RankedTable.Tree.Basic

/-!
# Settings

* `Backend` — which kind of store keeps the table.
* `Settings` — where the table is, how its attributes are called, and the limits of commands.
* `Settings.toFields` — every setting under its name.
* `Installation`, `Installation.defaults` — the settings of a program that nobody configured.
-/

namespace RankedTable

/-- The kinds of stores. -/
inductive Backend where
  /-- A table behind a service. -/
  | remote
  /-- A table in a file or in memory. -/
  | embedded
  deriving DecidableEq, Repr, Inhabited

/-- The configuration of a client. -/
structure Settings where
  backend : Backend := .remote
  /-- The name of the remote table. -/
  tableName : String
  region : Option String := none
  endpoint : Option String := none
  consistentReads : Bool := true
  /-- The file of the embedded table. -/
  path : String
  /-- How many items a page of the embedded table may have. -/
  pageSize : Option Int := none
  partitionName : String := "pk"
  memberName : String := "sk"
  /-- The attribute that holds a member's score. -/
  scoreName : String := "sk2"
  /-- The attribute that holds a member's position. -/
  locationName : String := "sk3"
  /-- What precedes an attribute's name in the name of its remote index. -/
  indexPrefix : String := "lsi_"
  /-- How often an increment is tried. -/
  maxAttempts : Int := 3
  logLevel : String := "INFO"
  geohashPrecision : Int := 12
  /-- How many cells may cover the disc of a search. -/
  maxCells : Int := 8
  deriving Inhabited

/-- The name of a backend. -/
def Backend.name : Backend → String
  | remote => "dynamodb"
  | embedded => "sqlite"

/-- Every setting under its name. -/
def Settings.toFields (settings : Settings) : Assoc Tree := [
  ("backend", .text settings.backend.name),
  ("table_name", .text settings.tableName),
  ("region_name", (settings.region.map Tree.text).getD .null),
  ("endpoint_url", (settings.endpoint.map Tree.text).getD .null),
  ("consistent_reads", .bool settings.consistentReads),
  ("sqlite_path", .text settings.path),
  ("page_size", (settings.pageSize.map Tree.int).getD .null),
  ("partition_attribute", .text settings.partitionName),
  ("sort_attribute", .text settings.memberName),
  ("score_attribute", .text settings.scoreName),
  ("location_attribute", .text settings.locationName),
  ("index_prefix", .text settings.indexPrefix),
  ("max_increment_attempts", .int settings.maxAttempts),
  ("log_level", .text settings.logLevel),
  ("geohash_precision", .int settings.geohashPrecision),
  ("max_covering_cells", .int settings.maxCells)]

/-- The attributes that have an index. -/
def Settings.indexed (settings : Settings) : List String :=
  [settings.scoreName, settings.locationName]

/-- Whether the embedded table is in memory and not in a file. -/
def Settings.inMemory (settings : Settings) : Bool :=
  settings.path = ":memory:"

/-- What a program's defaults depend on: its name, and the home of the user. -/
structure Installation where
  name : String
  home : String

/-- The settings of a program that nobody configured.  The remote table has the program's name, the
embedded one a hidden directory at home. -/
def Installation.defaults (installation : Installation) : Settings :=
  { tableName := installation.name
    path := installation.home ++ "/." ++ installation.name ++ "/" ++ installation.name ++ ".db" }

end RankedTable

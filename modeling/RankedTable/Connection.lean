import RankedTable.Command
import RankedTable.Remote.Endpoint
import RankedTable.Remote.Table
import RankedTable.Settings.Reader
import RankedTable.Store.Interrupted
import RankedTable.Table.Store

/-!
# Connections

* `Connection` — a store of either kind with its state.
* `Settings.connect` — the connection that settings ask for.
* `StoreProfile` — what can be told of a store from outside; `Installation.uncheckedProfile` tells
  it of the store that unchecked settings ask for.
* `Connection.run` — runs a program, which is told how many pages the store can have.
-/

namespace RankedTable

/-- A store with its state. -/
inductive Connection where
  | embedded (layout : Layout) (table : Table)
  | remote (table : RemoteTable) (link : Link)
  deriving Inhabited

/-- The layout of the embedded table of some settings. -/
def Settings.layout (settings : Settings) : Layout where
  indexed := settings.indexed
  partitionName := settings.partitionName
  memberName := settings.memberName
  pageSize := settings.pageSize

/-- The remote table of some settings. -/
def Settings.remoteTable (settings : Settings) : RemoteTable where
  tableName := settings.tableName
  partitionName := settings.partitionName
  memberName := settings.memberName
  indexPrefix := settings.indexPrefix
  consistentReads := settings.consistentReads

/-- Whether a path without empty and `.` components is that of a directory for certain. -/
def isDirectoryPath (path : String) : Bool :=
  path = "." || path.endsWith "/" || path = ".." || path.endsWith "/.."

/-- The path of an embedded table has to be one that a file can have. -/
def checkPath (path : String) : Except Error Unit :=
  if path.toList.contains '\x00' then .error .invalidPath
  else if isDirectoryPath path then .error .notAFile
  else .ok ()

/-- The connection that settings ask for, to an embedded table with these contents or over this
link. -/
def Settings.connect (settings : Settings) (contents : Table) (link : Link) :
    Except Error Connection := do
  match settings.backend with
  | .remote =>
    if settings.tableName = "" then
      throw .noTableName
    let region ← checkRegion settings.region
    checkEndpoint region settings.endpoint
    return .remote settings.remoteTable link
  | .embedded =>
    checkPath settings.path
    return .embedded settings.layout contents

/-! ## What can be told of a store from outside -/

/-- What can be told of a store from outside.  Settings that nobody checked may have put anything
in the place of its names. -/
inductive StoreProfile where
  | embedded (partitionName memberName pageSize : Tree) (indexed : List String)
  | remote (partitionName memberName tableName indexPrefix consistentReads : Tree)

/-- What can be told of a connection's store. -/
def Connection.profile : Connection → StoreProfile
  | embedded layout _ =>
    .embedded (.text layout.partitionName) (.text layout.memberName)
      ((layout.pageSize.map Tree.int).getD .null) (OrderedSet.ofList layout.indexed).elems
  | remote table _ =>
    .remote (.text table.partitionName) (.text table.memberName) (.text table.tableName)
      (.text table.indexPrefix) (.bool table.consistentReads)

/-- A text or null, where nothing else can be used. -/
def textOrNull : Tree → Except Error (Option String)
  | .null => .ok none
  | .text s => .ok (some s)
  | _ => .error .notACollection

/-- The name of an indexed attribute, which has to be a text to have a place in an order. -/
def indexedName : Tree → Except Error String
  | .text s => .ok s
  | _ => .error .notACollection

/-- The store that unchecked settings ask for: a field that is given is taken as it is, the others
have their defaults.  Of the paths only that of a table in memory can be given as a text. -/
def Installation.uncheckedProfile (installation : Installation) (given : Assoc Tree) :
    Except Error StoreProfile := do
  let defaults := installation.defaults.toFields
  let field (name : String) : Tree := (given.get? name).getD ((defaults.get? name).getD .null)
  match field "backend" with
  | .text "dynamodb" =>
    if (field "table_name").isBlank then
      throw .noTableName
    let region ← checkRegion (← textOrNull (field "region_name"))
    checkEndpoint region (← textOrNull (field "endpoint_url"))
    return .remote (field "partition_attribute") (field "sort_attribute") (field "table_name")
      (field "index_prefix") (field "consistent_reads")
  | .text "sqlite" =>
    match given.get? "sqlite_path" with
    | none | some (.text ":memory:") => pure ()
    | some _ => throw .notARecord
    let indexed ← [field "score_attribute", field "location_attribute"].mapM indexedName
    return .embedded (field "partition_attribute") (field "sort_attribute") (field "page_size")
      (OrderedSet.ofList indexed).elems
  | backend => throw (.unknownBackend backend)

/-! ## Running -/

/-- More pages than a scan of a table can have: a page that is not the last has a row at least. -/
def Table.pageBound (table : Table) : Nat :=
  max table.items.length table.index.length + 1

/-- More pages than a scan over a link can have: one for each response, and one that the link falls
back to. -/
def Link.pageBound (link : Link) : Nat :=
  link.responses.length + 1

namespace Connection

/-- More pages than a scan can have. -/
def pageBound : Connection → Nat
  | embedded _ table => table.pageBound
  | remote _ link => link.pageBound

/-- Runs a program with planned failures.  The answer has the calls made, in order. -/
def run {α : Type} (connection : Connection) (plan : FaultPlan) (program : Nat → Program α) :
    Except Error α × List Call × Connection :=
  match connection with
  | embedded layout table =>
    let (result, calls, table) :=
      (program table.pageBound).run (layout.store.interrupted plan) ([], table)
    (result, calls.reverse, embedded layout table)
  | remote remoteTable link =>
    let (result, calls, link) :=
      (program link.pageBound).run (remoteTable.store.interrupted plan) ([], link)
    (result, calls.reverse, remote remoteTable link)

/-- Runs a command under some settings. -/
def runCommand (connection : Connection) (settings : Settings) (geometry : Geometry)
    (command : Command) : Except Error Answer × Connection :=
  let (result, _, connection) := connection.run FaultPlan.none fun maxPages =>
    command.program ⟨settings, maxPages⟩ geometry
  (result, connection)

end Connection

end RankedTable

import RankedTable.Remote.Expression
import RankedTable.Store.Basic
import RankedTable.Tree.Lenient

/-!
# Remote tables

A remote table is reached over a link, which takes a request and gives back a reply or a failure.

* `Link` — the requests sent and the replies to come.
* `RemoteTable` — how a table is called and addressed.
* `RemoteTable.readItem` — reads an item from a reply.
* `RemoteTable.store` — the table as a store.
-/

namespace RankedTable

/-! ## The link -/

/-- What comes back for a request. -/
inductive Response where
  | reply (content : Tree)
  /-- The service refused the operation, with a code if it gave one. -/
  | refused (code : Tree)
  | unreachable (endpoint : String)
  /-- Nobody said on whose behalf the request is made. -/
  | withoutCredentials
  | failed
  deriving Inhabited

/-- A request: the operation and its fields. -/
structure RemoteRequest where
  operation : String
  fields : Assoc Tree
  deriving Inhabited

/-- A link to a remote service. -/
structure Link where
  /-- The responses to come. -/
  responses : List Response := []
  /-- What comes back when there are no responses left. -/
  fallback : Response := .reply (.record [])
  /-- The requests sent, the latest first. -/
  sent : List RemoteRequest := []
  deriving Inhabited

/-- The code by which a service says that a condition was missed. -/
def missedCode : String := "ConditionalCheckFailedException"

/-- What a response means for the operation it answers. -/
def Response.outcome (operation : String) : Response → Except Error Tree
  | reply content => .ok content
  | refused (.text code) =>
    if code = missedCode then .error (.conditionFailed (.remote operation))
    else .error (.store (.refused operation code))
  | refused code => .error (.store (.refused operation code.quoted))
  | unreachable endpoint =>
    .error (.store (.refused operation
      ("Could not connect to the endpoint URL: " ++ "\x22" ++ endpoint ++ "\x22")))
  | withoutCredentials => .error (.store (.refused operation "Unable to locate credentials"))
  | failed => .error (.store (.refused operation "An unspecified error occurred"))

/-- Sends a request and takes the next response. -/
def Link.send (link : Link) (request : RemoteRequest) : Except Error Tree × Link :=
  ((link.responses.headD link.fallback).outcome request.operation,
    { link with responses := link.responses.tail, sent := request :: link.sent })

/-! ## The table -/

/-- How a remote table is called and addressed. -/
structure RemoteTable where
  tableName : String
  partitionName : String := "pk"
  memberName : String := "sk"
  indexPrefix : String := "lsi_"
  consistentReads : Bool := true
  deriving Inhabited

namespace RemoteTable

/-- The key of an item on the wire. -/
def wireKey (table : RemoteTable) (key : ItemKey) : Tree :=
  .record (Assoc.ofList
    [(table.partitionName, (Value.text key.partition).toWire),
      (table.memberName, (Value.text key.member).toWire)])

/-- The attribute that a condition addresses: that of the collection's key if it addresses the item
itself. -/
def resolve (table : RemoteTable) (subject : String) : String :=
  if subject = Condition.keyAttribute then table.partitionName else subject

/-! ### Requests -/

/-- The request for an item.  With names given, only those attributes and the key are asked for. -/
def getRequest (table : RemoteTable) (key : ItemKey) (names : Option (List String)) :
    RemoteRequest :=
  let base : Assoc Tree :=
    [("TableName", .text table.tableName), ("Key", table.wireKey key),
      ("ConsistentRead", .bool table.consistentReads)]
  let names := names.getD []
  if names.isEmpty then ⟨"get_item", base⟩
  else
    let placed := (table.partitionName :: table.memberName :: names).foldl
      (fun (places, e) name =>
        let (place, e) := Expression.placeName e name
        (places ++ [place.text], e)) (([] : List String), ({} : Expression))
    ⟨"get_item", (base.insert "ProjectionExpression"
      (.text (", ".intercalate placed.1))).insertAll (placed.2.parts "ConditionExpression")⟩

/-- The request for a write. -/
def updateRequest (table : RemoteTable) (key : ItemKey) (updates : Attributes)
    (conditions : List Condition) : Except Error RemoteRequest := do
  let assigned := updates.foldl (fun e (name, value) => e.addAssignment name value)
    ({} : Expression)
  let e ← assigned.addConditions table.resolve conditions
  return ⟨"update_item", [("TableName", .text table.tableName), ("Key", table.wireKey key)] ++
    e.parts "ConditionExpression"⟩

/-- The request for a deletion. -/
def deleteRequest (table : RemoteTable) (key : ItemKey) (conditions : List Condition) :
    Except Error RemoteRequest := do
  let e ← Expression.addConditions table.resolve {} conditions
  return ⟨"delete_item", [("TableName", .text table.tableName), ("Key", table.wireKey key)] ++
    e.parts "ConditionExpression"⟩

/-- The request for a page. -/
def queryRequest (table : RemoteTable) (request : QueryRequest) : Except Error RemoteRequest := do
  let e ← Expression.addConditions id {}
    (Condition.eq table.partitionName (.text request.partition) :: request.keyRange.toList)
  let base : Assoc Tree :=
    [("TableName", .text table.tableName), ("ConsistentRead", .bool table.consistentReads),
      ("ScanIndexForward", .bool request.forward)]
  let optional :=
    Expression.field "IndexName"
        (request.index.map fun name => .text (table.indexPrefix ++ name)) ++
      Expression.field "Limit" (request.limit.map .int) ++
      Expression.field "ExclusiveStartKey"
        ((request.startKey.filter (!·.isEmpty)).map .record) ++
      Expression.field "Select" (if request.selectCount then some (.text "COUNT") else none)
  return ⟨"query", base ++ e.parts "KeyConditionExpression" ++ optional⟩

/-! ### Replies -/

/-- Reads an item: its key attributes have to be texts. -/
def readItem (table : RemoteTable) (raw : Tree) : Except Error Item := do
  let attrs ← attributesOfWire raw
  let rest := Assoc.erase attrs table.partitionName
  match Assoc.get? attrs table.partitionName, Assoc.get? rest table.memberName with
  | some (.text partition), some (.text member) =>
    return ⟨⟨partition, member⟩, Assoc.erase rest table.memberName⟩
  | _, _ => throw (.store (.withoutKey raw))

/-- The field of a reply. -/
def replyField (reply : Tree) (name : String) : Except Error (Option Tree) :=
  match reply with
  | .record fields => .ok (Assoc.get? fields name)
  | _ => .error .notARecord

/-- The elements of a list of items.  Whatever else can be gone through has no items in it. -/
def elements : Tree → Except Error (List Tree)
  | .list elems => .ok elems
  | .record fields => .ok (fields.map fun f => .text f.1)
  | .text s => .ok (s.toList.map fun c => .text c.toString)
  | .bytes b => .ok (b.map fun n => .int n.toNat)
  | _ => .error .notACollection

/-- Reads a reply with an item. -/
def readFound (table : RemoteTable) (reply : Tree) : Except Error (Option Item) := do
  match ← replyField reply "Item" with
  | none => return none
  | some raw => if raw.isBlank then return none else return some (← table.readItem raw)

/-- Reads a reply with a page. -/
def readPage (table : RemoteTable) (reply : Tree) : Except Error QueryPage := do
  let items ← elements ((← replyField reply "Items").getD (.list []))
  let items ← items.mapM table.readItem
  let count ←
    match ((← replyField reply "Count").getD (.int 0)).toInt? with
    | some n => pure n
    | none => throw .invalidField
  let lastKey ←
    match (← replyField reply "LastEvaluatedKey").filter (!·.isBlank) with
    | none => pure none
    | some (.record fields) => pure (some fields)
    | some _ => throw .invalidField
  return { items := items, count := count, lastKey := lastKey }

/-! ### The store -/

/-- Sends a request, if it could be made, and reads the reply. -/
def exchange {α : Type} (link : Link) (request : Except Error RemoteRequest)
    (read : Tree → Except Error α) : Except Error α × Link :=
  match request with
  | .error e => (.error e, link)
  | .ok request =>
    let (reply, link) := link.send request
    (reply >>= read, link)

/-- The store of a remote table. -/
def store (table : RemoteTable) : Store Link
  | .get key names, link => exchange link (.ok (table.getRequest key names)) table.readFound
  | .update key updates conditions, link =>
    exchange link (table.updateRequest key updates conditions) fun _ => .ok ()
  | .delete key conditions, link =>
    exchange link (table.deleteRequest key conditions) fun _ => .ok ()
  | .query request, link => exchange link (table.queryRequest request) table.readPage

end RemoteTable

end RankedTable

import RankedTable.Geo.Location
import RankedTable.Item
import RankedTable.Score

/-!
# What can go wrong

Errors are told apart by cause.  Those of the store carry what a longer command had done or
gathered before the store failed.

* `StoreFault`, `Miss`, `Error` — the causes.
* `Gathered` — what there was before the failure.
* `Error.message?` — the wording; causes that only have a kind have none.
-/

namespace RankedTable

/-- What a command had done or gathered when it failed. -/
inductive Gathered where
  | count (n : Int)
  | scores (m : Assoc Float)
  | locations (m : Assoc Location)
  | texts (m : Assoc String)

/-- Why a store could not serve a call. -/
inductive StoreFault where
  | unavailable
  | malformedValue (raw : Tree)
  | unsupportedTag (tag : String)
  /-- Sets, maps and nulls have no place in an order. -/
  | unsortable (kind : Value.Kind)
  | noIndex (subject : String)
  | notKeyCondition (op : Operator)
  | noScore (member partition : String)
  /-- A remote table refused an operation or could not be reached. -/
  | refused (operation reason : String)
  | withoutKey (raw : Tree)

/-- How a conditional write missed its condition. -/
inductive Miss where
  | condition (op : Operator) (subject : String) (key : ItemKey)
  | remote (operation : String)
  | lostRace

/-- The two commands that would have to combine collections. -/
inductive Aggregate where
  | union
  | intersection
  deriving DecidableEq, Repr

/-- The causes of failure. -/
inductive Error where
  | store (fault : StoreFault) (soFar : Option Gathered := none)
  | conditionFailed (miss : Miss) (soFar : Option Gathered := none)
  | contention (key : ItemKey) (attempts : Int)
  | score (e : ScoreError)
  | incrementNotANumber
  | unsupported (command : Aggregate)
  | noTableName
  | unknownBackend (name : Tree)
  /-- A remote table needs a region. -/
  | noRegion
  /-- The name of a region is no label of a host. -/
  | invalidRegion
  /-- The address of a service has no proper host. -/
  | invalidEndpoint
  /-- The path of the embedded table cannot be that of a file. -/
  | invalidPath
  /-- The path of the embedded table is that of a directory. -/
  | notAFile
  | negativeRadius (radius : Float)
  | unknownUnit (name : String)
  | unknownLogLevel (name : String)
  | unsupportedOperator (name : String)
  /-- A text that should be a number is none. -/
  | notADecimal
  | noWholePart (e : Decimal.TruncateError)
  /-- A whole number does not fit 64 bits. -/
  | integerTooLarge
  /-- A condition has fewer operands than are looked at. -/
  | missingOperand
  /-- A key condition has not as many operands as its operator takes. -/
  | operandCount
  /-- `between` has not two operands. -/
  | notAPair
  /-- A continuation token lacks a field. -/
  | incompleteToken
  /-- A continuation token holds something that cannot be compared. -/
  | unusableToken
  | closed
  /-- A value lies too deep inside others to be written. -/
  | nestedTooDeep
  /-- A field has a value that its type does not admit. -/
  | invalidField
  | notARecord
  | notACollection
  /-- The geometry of the sphere breaks down, as it does for a NaN coordinate. -/
  | degenerate
  | infiniteAngle
  | outsideGeohash
  /-- A scan was given up before its last page. -/
  | unfinishedScan

namespace Error

/-- The error with what had been gathered before; only a store's errors carry that. -/
def withSoFar (e : Error) (gathered : Gathered) : Error :=
  match e with
  | store fault _ => store fault (some gathered)
  | conditionFailed miss _ => conditionFailed miss (some gathered)
  | e => e

/-- What had been gathered before the failure. -/
def soFar? : Error → Option Gathered
  | store _ soFar => soFar
  | conditionFailed _ soFar => soFar
  | _ => none

end Error

/-- The wording of a store's failure. -/
def StoreFault.message : StoreFault → String
  | unavailable => "service unavailable"
  | malformedValue raw => "malformed attribute value: " ++ raw.quoted
  | unsupportedTag tag => "unsupported attribute value type " ++ quoteText tag
  | unsortable kind => kind.tag ++ " values cannot be used as sort keys"
  | noIndex subject => "no index on attribute " ++ quoteText subject
  | notKeyCondition op => op.name ++ " is not a key condition"
  | noScore member partition =>
    "member " ++ quoteText member ++ " of " ++ quoteText partition ++ " has no score"
  | refused operation reason => operation ++ " failed: " ++ reason
  | withoutKey raw => "item without string key attributes: " ++ raw.quoted

/-- The wording of a missed condition. -/
def Miss.message : Miss → String
  | condition op subject key =>
    "condition " ++ op.name ++ " on " ++ subject ++ " failed for " ++ key.partition ++ " / " ++
      key.member
  | remote operation => operation ++ ": condition failed"
  | lostRace => "lost the race"

/-- The wording of a score error. -/
def ScoreError.message? : ScoreError → Option String
  | notANumber => some "score must not be NaN"
  | notFinite d => some ("cannot encode non-finite decimal " ++ d.toText)
  | exponentOutOfRange d => some ("exponent of " ++ d.toText ++ " is out of range")
  | malformed text => some ("malformed score encoding " ++ quoteText text)
  | unreadableExponent => none

/-- The wording of an unsupported command. -/
def Aggregate.message : Aggregate → String
  | union => "ZUNIONSTORE needs aggregation across partitions, which the store cannot do"
  | intersection => "ZINTERSTORE needs aggregation across partitions, which the store cannot do"

/-- The wording of an error. -/
def Error.message? : Error → Option String
  | store fault _ => some fault.message
  | conditionFailed miss _ => some miss.message
  | contention key attempts =>
    some ("too much contention on " ++ key.partition ++ " / " ++ key.member ++ " after " ++
      Tree.intText attempts ++ " attempts")
  | score e => e.message?
  | incrementNotANumber => some "increment must not be NaN"
  | unsupported command => some command.message
  | noTableName => some "table_name must be set for the dynamodb backend"
  | unknownBackend name => some ("unknown backend " ++ name.quoted)
  | negativeRadius radius => some ("radius must not be negative, got " ++ shortestFloat radius)
  | unknownUnit name => some ("unknown distance unit " ++ quoteText name)
  | unknownLogLevel name => some ("unknown log level " ++ quoteText name)
  | unsupportedOperator name => some ("unsupported condition operator " ++ quoteText name)
  | _ => none

/-- A score error is an error. -/
def liftScore {α : Type} (result : Except ScoreError α) : Except Error α :=
  result.mapError Error.score

end RankedTable

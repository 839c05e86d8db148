import RankedTable.Binary64.Printer
import RankedTable.Table.Basic

/-!
# Pages of local collections

A query ranges over the names of a collection or over one of its indexes.  The rows in range after
the continuation token are ordered by sort text and name, in the direction asked for, and cut to
the page.  A page that is full hands out a token for the next one.

* `Row` — an item with the text it is ranged over by.
* `RangeClause` — the bounds of a query, as texts.
* `Bound`, `Position` — where a token says to go on.
* `Layout.query` — one page.
-/

namespace RankedTable

/-- An item with the text by which a query ranges over it. -/
structure Row where
  sortText : String
  item : Item
  deriving Inhabited

/-- The order of rows: by text, then by name. -/
def Row.le (a b : Row) : Bool :=
  decide (a.sortText < b.sortText) ||
    (a.sortText = b.sortText && decide (a.item.key.member ≤ b.item.key.member))

/-! ## Bounds -/

/-- The operators that can bound a query. -/
inductive RangeOperator where
  | eq
  | between
  | ge
  | le
  deriving DecidableEq, Repr

/-- The bounds of a query. -/
structure RangeClause where
  op : RangeOperator
  operands : List String

/-- The bounds that a condition means.  Its operands are looked at before its operator. -/
def Condition.rangeClause (condition : Condition) : Except Error RangeClause := do
  let operands ← condition.values.mapM Value.sortText
  match condition.op with
  | .eq => return ⟨.eq, operands⟩
  | .between => return ⟨.between, operands⟩
  | .ge => return ⟨.ge, operands⟩
  | .le => return ⟨.le, operands⟩
  | op => throw (.store (.notKeyCondition op))

/-- Which texts are within the bounds.  There have to be exactly as many operands as the operator
takes. -/
def RangeClause.test (clause : RangeClause) : Except Error (String → Bool) :=
  match clause.op, clause.operands with
  | .eq, [x] => .ok fun text => text = x
  | .between, [low, high] => .ok fun text => decide (low ≤ text) && decide (text ≤ high)
  | .ge, [low] => .ok fun text => decide (low ≤ text)
  | .le, [high] => .ok fun text => decide (text ≤ high)
  | _, _ => .error .operandCount

/-! ## Tokens -/

/-- What a token's field compares as: a text, something after every text, or nothing at all. -/
inductive Bound where
  | text (s : String)
  | afterTexts
  | nothing
  deriving DecidableEq, Repr

/-- The text of a fractional number in a token: at most fifteen digits, a half rounded away from
zero, one of them after the point. -/
def fractionText (x : Float) : String :=
  if x == 0.0 then "0.0"
  else
    let text := ((Binary64.ofFloat x).generalText 15 .awayFromZero).toList
    let mantissa := text.takeWhile (· ≠ 'e')
    let power := text.dropWhile (· ≠ 'e')
    if x.isInf then (if x < 0.0 then "-Inf" else "Inf")
    else if mantissa.contains '.' then String.ofList text
    else String.ofList (mantissa ++ ['.', '0'] ++ power)

/-- What a token's field compares as.  Numbers compare as their text, byte strings come after all
texts, and nothing comes before or after a null. -/
def Bound.ofTree : Tree → Except Error Bound
  | .null => .ok .nothing
  | .bool b => .ok (.text (if b then "1" else "0"))
  | .int n => if fitsWord n then .ok (.text (Tree.intText n)) else .error .integerTooLarge
  | .float x => .ok (if x.isNaN then .nothing else .text (fractionText x))
  | .text s => .ok (.text s)
  | .bytes _ => .ok .afterTexts
  | .list _ => .error .unusableToken
  | .record _ => .error .unusableToken

/-- Whether a text comes strictly after a bound, or before it when reading backwards. -/
def Bound.passed (forward : Bool) (bound : Bound) (s : String) : Bool :=
  match bound with
  | .text t => if forward then decide (t < s) else decide (s < t)
  | .afterTexts => !forward
  | .nothing => false

/-- Where a page starts: after this text, and among equal texts after this name. -/
structure Position where
  sortText : Bound
  member : Bound

/-- Whether a row comes after a position. -/
def Position.passed (forward : Bool) (position : Position) (row : Row) : Bool :=
  position.sortText.passed forward row.sortText ||
    (position.sortText = .text row.sortText && position.member.passed forward row.item.key.member)

/-- The fields of a token that a query looks at: the text and the name. -/
def tokenFields (index : Option String) (token : Token) : Except Error (Tree × Tree) :=
  match index, token.get? "sort_value", token.get? "sk" with
  | none, _, some name => .ok (name, name)
  | some _, some text, some name => .ok (text, name)
  | _, _, _ => .error .incompleteToken

/-- The position after a row, as a token. -/
def Row.token (row : Row) : Token :=
  [("sk", .text row.item.key.member), ("sort_value", .text row.sortText)]

/-! ## Rows -/

/-- The rows of a collection: one for each item, or one for each row of an index. -/
def Table.rows (table : Table) (collection : String) (index : Option String) : List Row :=
  match index with
  | none =>
    (table.items.filter (·.key.partition = collection)).map fun item => ⟨item.key.member, item⟩
  | some subject =>
    (table.index.filter fun row => row.key.partition = collection ∧ row.subject = subject).filterMap
      fun row => (table.find? row.key).map fun item => ⟨row.sortText, item⟩

/-- Rows in order. -/
def sortRows (forward : Bool) (rows : List Row) : List Row :=
  rows.mergeSort fun a b => if forward then Row.le a b else Row.le b a

/-! ## Pages -/

/-- The smaller of two optional limits. -/
def tighter (a b : Option Int) : Option Int :=
  match a, b with
  | some x, some y => some (min x y)
  | some x, none => some x
  | none, y => y

/-- The rows that fit a page; a negative limit is none. -/
def cut (limit : Option Int) (rows : List Row) : List Row :=
  match limit with
  | some n => if 0 ≤ n then rows.take n.toNat else rows
  | none => rows

/-- The token of a page: a full page has one. -/
def pageToken (limit : Option Int) (page : List Row) : Option Token :=
  match limit, page.getLast? with
  | some n, some last => if (page.length : Int) = n then some last.token else none
  | _, _ => none

/-- Item of a row, read back. -/
def Row.readItem (row : Row) : Except Error Item := do
  return ⟨row.item.key, ← Table.readBack row.item.attributes⟩

/-- One page.  The request is looked at before the table: its index, its bounds and the fields of
its token; then come the operands, the token's values and the limit. -/
def Layout.query (layout : Layout) (table : Table) (request : QueryRequest) :
    Except Error QueryPage := do
  if let some subject := request.index then
    unless layout.indexed.contains subject do
      throw (.store (.noIndex subject))
  let clause ← request.keyRange.mapM Condition.rangeClause
  let token := request.startKey.filter (!·.isEmpty)
  let fields ← token.mapM (tokenFields request.index)
  unless table.isOpen do
    throw .closed
  let test ← clause.mapM RangeClause.test
  let start ← fields.mapM fun (text, name) => do
    return Position.mk (← Bound.ofTree text) (← Bound.ofTree name)
  let limit := tighter request.limit layout.pageSize
  if let some n := limit then
    unless fitsWord n do
      throw .integerTooLarge
  let inRange := (table.rows request.partition request.index).filter fun row =>
    test.all (· row.sortText) && start.all (·.passed request.forward row)
  let page := cut limit (sortRows request.forward inRange)
  let lastKey := pageToken limit page
  if request.selectCount then
    return { count := page.length, lastKey := lastKey }
  let items ← page.mapM Row.readItem
  return { items := items, count := items.length, lastKey := lastKey }

end RankedTable

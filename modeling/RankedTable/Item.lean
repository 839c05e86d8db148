import RankedTable.Tree.Basic
import RankedTable.Value.Basic

/-!
# Items, conditions and queries

One table holds all collections.  An item is addressed by the collection's key and the member's
name, and carries attributes; some of these have an index of their own, by which a collection can
be ranged over as well.

* `ItemKey`, `Item` — addresses and what is stored there.
* `Condition` — a comparison on one attribute, guarding a write or bounding a query.
* `Condition.range?` — the condition for an optional lower and an optional upper bound.
* `QueryRequest`, `QueryPage` — one page of a range query and its answer.
-/

namespace RankedTable

/-- The address of an item: the key of its collection and its name in there. -/
structure ItemKey where
  partition : String
  member : String
  deriving DecidableEq, Repr, Inhabited

/-- An item of the table. -/
structure Item where
  key : ItemKey
  attributes : Attributes
  deriving Inhabited

/-- The value of one attribute. -/
def Item.get? (item : Item) (name : String) : Option Value :=
  item.attributes.get? name

/-- How a condition compares. -/
inductive Operator where
  | eq
  | between
  | ge
  | le
  /-- The attribute is there. -/
  | present
  /-- The attribute is not there. -/
  | absent
  /-- An operator that no store knows. -/
  | unknown (name : String)
  deriving DecidableEq, Repr, Inhabited

namespace Operator

/-- The name of an operator. -/
def name : Operator → String
  | eq => "eq"
  | between => "between"
  | ge => "ge"
  | le => "le"
  | present => "exists"
  | absent => "not_exists"
  | unknown name => name

/-- The operator of a name. -/
def ofName (name : String) : Operator :=
  match [eq, between, ge, le, present, absent].find? (·.name = name) with
  | some op => op
  | none => unknown name

end Operator

/-- A comparison on one named attribute.  `eq`, `ge` and `le` take one operand, `between` takes two
and the others none. -/
structure Condition where
  /-- The attribute compared. -/
  subject : String
  op : Operator
  values : List Value := []
  deriving Inhabited

namespace Condition

/-- The name by which a condition addresses the item itself instead of an attribute. -/
def keyAttribute : String := "@key"

/-- The attribute equals a value. -/
def eq (subject : String) (value : Value) : Condition :=
  ⟨subject, .eq, [value]⟩

/-- The item exists. -/
def itemPresent : Condition := ⟨keyAttribute, .present, []⟩

/-- The item does not exist. -/
def itemAbsent : Condition := ⟨keyAttribute, .absent, []⟩

/-- The condition for bounds that may each be missing; none if both are. -/
def range? (subject : String) : Option Value → Option Value → Option Condition
  | some low, some high => some ⟨subject, .between, [low, high]⟩
  | some low, none => some ⟨subject, .ge, [low]⟩
  | none, some high => some ⟨subject, .le, [high]⟩
  | none, none => none

end Condition

/-- Where a query goes on: opaque to everybody but the store that made it. -/
abbrev Token := Assoc Tree

/-- A request for one page of a collection. -/
structure QueryRequest where
  partition : String
  /-- The indexed attribute to range over; `none` ranges over the members' names. -/
  index : Option String := none
  keyRange : Option Condition := none
  forward : Bool := true
  limit : Option Int := none
  startKey : Option Token := none
  /-- Ask for the number of items only. -/
  selectCount : Bool := false
  deriving Inhabited

/-- One page of a collection. -/
structure QueryPage where
  items : List Item := []
  count : Int := 0
  /-- Where the next page starts, if there may be one. -/
  lastKey : Option Token := none
  deriving Inhabited

end RankedTable

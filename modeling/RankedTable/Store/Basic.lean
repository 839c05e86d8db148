import RankedTable.Error

/-!
# Stores

A store answers four calls, one at a time: read an item, write one, delete one, and read a page of
a collection.  Nothing else is known about it, so commands run on any store.

* `Call`, `Call.Reply` — the calls, and what each is answered with.
* `Store` — answers calls from a state.
-/

namespace RankedTable

/-- A call to a store. -/
inductive Call where
  /-- Reads an item; of its attributes only those named, if names are given. -/
  | get (key : ItemKey) (names : Option (List String))
  /-- Writes attributes of an item, which need not exist, if all conditions hold. -/
  | update (key : ItemKey) (updates : Attributes) (conditions : List Condition)
  /-- Deletes an item, which need not exist, if all conditions hold. -/
  | delete (key : ItemKey) (conditions : List Condition)
  /-- Reads a page. -/
  | query (request : QueryRequest)
  deriving Inhabited

namespace Call

/-- What a call is answered with. -/
abbrev Reply : Call → Type
  | get .. => Option Item
  | update .. => Unit
  | delete .. => Unit
  | query .. => QueryPage

/-- The four kinds of calls. -/
inductive Method where
  | get
  | update
  | delete
  | query
  deriving DecidableEq, Repr

/-- The kind of a call. -/
def method : Call → Method
  | get .. => .get
  | update .. => .update
  | delete .. => .delete
  | query .. => .query

end Call

/-- A store: it answers a call from its state, and the state goes on. -/
abbrev Store (σ : Type) : Type :=
  (c : Call) → σ → Except Error c.Reply × σ

end RankedTable

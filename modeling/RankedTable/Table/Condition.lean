import RankedTable.Table.Basic

/-!
# Conditions on local items

* `Layout.read` — what a condition's name stands for on an item.
* `Condition.holds` — whether a condition holds of a value.
* `Layout.check` — whether all conditions of a write hold; the first that does not is reported.
-/

namespace RankedTable

/-- The value that a condition's name addresses.  The names of the key attributes, and the name of
the item itself, have values just if the item exists. -/
def Layout.read (layout : Layout) (key : ItemKey) (current : Option Attributes)
    (subject : String) : Option Value :=
  match current with
  | none => none
  | some attrs =>
    if subject = Condition.keyAttribute ∨ subject = layout.partitionName then
      some (.text key.partition)
    else if subject = layout.memberName then some (.text key.member)
    else attrs.get? subject

/-- Compares the sort text of a value with those of the operands. -/
def Operator.compare (op : Operator) (current : String) (operands : List String) :
    Except Error Bool :=
  match op, operands with
  | .ge, low :: _ => .ok (decide (low ≤ current))
  | .le, high :: _ => .ok (decide (current ≤ high))
  | _, low :: rest =>
    if low ≤ current then
      match rest with
      | high :: _ => .ok (decide (current ≤ high))
      | [] => .error .missingOperand
    else .ok false
  | _, [] => .error .missingOperand

/-- Whether a condition holds of a value.  A missing value satisfies only its absence, and values
of different kinds are not compared. -/
def Condition.holds (condition : Condition) (value : Option Value) : Except Error Bool :=
  match condition.op, value with
  | .present, value => .ok value.isSome
  | .absent, value => .ok value.isNone
  | _, none => .ok false
  | op, some value =>
    match condition.values with
    | [] => .error .missingOperand
    | first :: rest =>
      if op = .eq then .ok (value.same first)
      else if value.kind ≠ first.kind then .ok false
      else do
        let current ← value.sortText
        let operands ← (first :: rest).mapM Value.sortText
        op.compare current operands

/-- Succeeds if all conditions hold. -/
def Layout.check (layout : Layout) (key : ItemKey) (current : Option Attributes) :
    List Condition → Except Error Unit
  | [] => .ok ()
  | condition :: rest => do
    if ← condition.holds (layout.read key current condition.subject) then
      layout.check key current rest
    else .error (.conditionFailed (.condition condition.op condition.subject key))

end RankedTable

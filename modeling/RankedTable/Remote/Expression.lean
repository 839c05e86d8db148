import RankedTable.Value.Wire

/-!
# Request expressions

A remote table takes conditions and assignments as text.  The text never has names or values of
attributes in it, but placeholders: `#n0`, `#n1`, … for names, one for each name, and `:v0`, `:v1`,
… for values, one for each use.

* `Expression` — the clauses of one request and what their placeholders stand for.
* `Expression.placeName`, `Expression.placeValue` — make placeholders.
* `Expression.addCondition`, `Expression.addAssignment` — add clauses.
* `Expression.parts` — the fields of the request.
-/

namespace RankedTable

/-- A placeholder for a name, by its number. -/
structure NamePlace where
  index : Nat
  deriving DecidableEq, Repr

/-- A placeholder for a value, by its number. -/
structure ValuePlace where
  index : Nat
  deriving DecidableEq, Repr

/-- The text of a placeholder for a name. -/
def NamePlace.text (place : NamePlace) : String :=
  "#n" ++ String.ofList (natDigits place.index)

/-- The text of a placeholder for a value. -/
def ValuePlace.text (place : ValuePlace) : String :=
  ":v" ++ String.ofList (natDigits place.index)

/-- The comparisons with one operand. -/
inductive Comparison where
  | eq
  | ge
  | le
  deriving DecidableEq, Repr

/-- The sign of a comparison. -/
def Comparison.sign : Comparison → String
  | eq => "="
  | ge => ">="
  | le => "<="

/-- A condition over placeholders. -/
inductive Clause where
  | compare (name : NamePlace) (comparison : Comparison) (value : ValuePlace)
  | between (name : NamePlace) (low high : ValuePlace)
  | present (name : NamePlace)
  | absent (name : NamePlace)
  deriving DecidableEq, Repr

/-- The text of a condition. -/
def Clause.text : Clause → String
  | compare name comparison value => name.text ++ " " ++ comparison.sign ++ " " ++ value.text
  | between name low high => name.text ++ " BETWEEN " ++ low.text ++ " AND " ++ high.text
  | present name => "attribute_exists(" ++ name.text ++ ")"
  | absent name => "attribute_not_exists(" ++ name.text ++ ")"

/-- An assignment over placeholders. -/
structure Assignment where
  name : NamePlace
  value : ValuePlace
  deriving DecidableEq, Repr

/-- The text of an assignment. -/
def Assignment.text (assignment : Assignment) : String :=
  assignment.name.text ++ " = " ++ assignment.value.text

/-- The clauses of a request, and what their placeholders stand for. -/
structure Expression where
  /-- The names, by the number of their placeholder. -/
  names : List String := []
  /-- The values, by the number of their placeholder. -/
  values : List Value := []
  conditions : List Clause := []
  assignments : List Assignment := []
  deriving Inhabited

namespace Expression

/-! ## Building -/

/-- The placeholder of a name: the one it has, or a new one. -/
def placeName (e : Expression) (name : String) : NamePlace × Expression :=
  match e.names.idxOf? name with
  | some i => (⟨i⟩, e)
  | none => (⟨e.names.length⟩, { e with names := e.names ++ [name] })

/-- A new placeholder for a value. -/
def placeValue (e : Expression) (value : Value) : ValuePlace × Expression :=
  (⟨e.values.length⟩, { e with values := e.values ++ [value] })

/-- The expression with one more condition. -/
def addClause (e : Expression) (clause : Clause) : Expression :=
  { e with conditions := e.conditions ++ [clause] }

/-- Adds a comparison of a placed name with the first operand. -/
def addComparison (e : Expression) (name : NamePlace) (comparison : Comparison) :
    List Value → Except Error Unit × Expression
  | [] => (.error .missingOperand, e)
  | value :: _ =>
    let (place, e) := e.placeValue value
    (.ok (), e.addClause (.compare name comparison place))

/-- Adds a condition on the attribute called `subject`; without a name it stays on its own attribute.
If its operands do not fit, the placeholder of the name stays. -/
def addCondition (e : Expression) (condition : Condition) (subject : String) :
    Except Error Unit × Expression :=
  let (name, e) := e.placeName (if subject = "" then condition.subject else subject)
  match condition.op with
  | .eq => e.addComparison name .eq condition.values
  | .ge => e.addComparison name .ge condition.values
  | .le => e.addComparison name .le condition.values
  | .between =>
    match condition.values with
    | [low, high] =>
      let (low, e) := e.placeValue low
      let (high, e) := e.placeValue high
      (.ok (), e.addClause (.between name low high))
    | _ => (.error .notAPair, e)
  | .present => (.ok (), e.addClause (.present name))
  | .absent => (.ok (), e.addClause (.absent name))
  | .unknown op => (.error (.unsupportedOperator op), e)

/-- Adds an assignment. -/
def addAssignment (e : Expression) (name : String) (value : Value) : Expression :=
  let (name, e) := e.placeName name
  let (value, e) := e.placeValue value
  { e with assignments := e.assignments ++ [⟨name, value⟩] }

/-- Adds conditions until one does not fit. -/
def addConditions (rename : String → String) : Expression → List Condition →
    Except Error Expression
  | e, [] => .ok e
  | e, condition :: rest =>
    match e.addCondition condition (rename condition.subject) with
    | (.ok (), e) => addConditions rename e rest
    | (.error error, _) => .error error

/-! ## Writing -/

/-- The text of all conditions, if there are any. -/
def conditionText? (e : Expression) : Option String :=
  if e.conditions.isEmpty then none
  else some (" AND ".intercalate (e.conditions.map Clause.text))

/-- The text of all assignments, if there are any. -/
def updateText? (e : Expression) : Option String :=
  if e.assignments.isEmpty then none
  else some ("SET " ++ ", ".intercalate (e.assignments.map Assignment.text))

/-- What the names' placeholders stand for. -/
def nameTable (e : Expression) : List (String × Tree) :=
  e.names.zipIdx.map fun (name, i) => ((NamePlace.mk i).text, .text name)

/-- What the values' placeholders stand for. -/
def valueTable (e : Expression) : List (String × Tree) :=
  e.values.zipIdx.map fun (value, i) => ((ValuePlace.mk i).text, value.toWire)

/-- A field of a request, if it is there. -/
def field (name : String) (content : Option Tree) : List (String × Tree) :=
  (content.map fun tree => (name, tree)).toList

/-- The fields of a request, with the conditions in the field given; empty fields are left out. -/
def parts (e : Expression) (conditionField : String) : Assoc Tree :=
  Assoc.ofList
    (field conditionField (e.conditionText?.map .text) ++
      field "UpdateExpression" (e.updateText?.map .text) ++
      field "ExpressionAttributeNames"
        (if e.names.isEmpty then none else some (.record e.nameTable)) ++
      field "ExpressionAttributeValues"
        (if e.values.isEmpty then none else some (.record e.valueTable)))

end Expression

end RankedTable

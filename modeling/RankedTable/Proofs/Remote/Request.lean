import Mathlib.Data.List.Enum
import RankedTable.Proofs.Assoc
import RankedTable.Proofs.Remote.Expression
import RankedTable.Proofs.Value.Wire
import RankedTable.Remote.Table

/-!
# Requests say what was asked

A request carries its expressions and the tables of its placeholders.  Read with these tables, the
expressions of a write or a query are the conditions and assignments that it was made for.

* `RemoteRequest.places` — what the placeholders of a request stand for.
* `RemoteRequest.Says` — what a request says, its placeholders all defined, different and used.
* `Carries` — a request with the fields of an expression.
* `Carries.toSays` — it says what the expression says.
* **`requests_denote_calls`** — every write and every query says what was asked.
* `request_keeps_keyAttribute` — in a table whose key attribute has no name, conditions on the item
  itself are left as they are.
-/

namespace RankedTable

namespace RemoteRequest

/-! ## Reading requests -/

/-- The text in a field. -/
def text? (request : RemoteRequest) (field : String) : Option String :=
  match request.fields.get? field with
  | some (.text s) => some s
  | _ => none

/-- The entries of the record in a field; none without the field. -/
def entries (request : RemoteRequest) (field : String) : Assoc Tree :=
  match request.fields.get? field with
  | some (.record fields) => fields
  | _ => []

/-- The table of a request's names. -/
def names (request : RemoteRequest) : Assoc Tree :=
  request.entries "ExpressionAttributeNames"

/-- The table of a request's values. -/
def values (request : RemoteRequest) : Assoc Tree :=
  request.entries "ExpressionAttributeValues"

/-- What the placeholders of a request stand for. -/
def places (request : RemoteRequest) : Places where
  name word :=
    match request.names.get? word with
    | some (.text name) => some name
    | _ => none
  value word := (request.values.get? word).bind fun tree => (Value.ofWire tree).toOption

/-- The conditions in a field; none without the field. -/
def conditions? (request : RemoteRequest) (field : String) : Option (List Condition) :=
  match request.text? field with
  | some expression => request.places.readConditions (words expression)
  | none => some []

/-- The assignments of a request; none without an update expression. -/
def assignments? (request : RemoteRequest) : Option (List (String × Value)) :=
  match request.text? "UpdateExpression" with
  | some expression => request.places.readUpdate (words expression)
  | none => some []

/-- The words of a request's expressions. -/
def expressionWords (request : RemoteRequest) (field : String) : List String :=
  ((request.text? field).map words).getD [] ++
    ((request.text? "UpdateExpression").map words).getD []

/-- What a request says with the conditions in a field: read with its own tables, it has these
conditions and assignments.  Each placeholder of a name stands for another one of the attributes
mentioned, there is a placeholder for each operand, and those defined are just those used. -/
structure Says (request : RemoteRequest) (field : String) (asked : List Condition)
    (assigned : List (String × Value)) : Prop where
  conditions : request.conditions? field = some asked
  assignments : request.assignments? = some assigned
  names_nodup : request.names.names.Nodup
  names : ∃ attributes : List String, request.names.map Prod.snd = attributes.map Tree.text ∧
    attributes.Nodup ∧ ∀ name, name ∈ attributes ↔
      name ∈ assigned.map Prod.fst ∨ name ∈ asked.map Condition.subject
  values_nodup : request.values.names.Nodup
  values : request.values.map Prod.snd =
    (assigned.map Prod.snd ++ asked.flatMap Condition.values).map Value.toWire
  named : ∀ word, word ∈ request.names.names ↔
    word ∈ request.expressionWords field ∧ word.toList.head? = some '#'
  valued : ∀ word, word ∈ request.values.names ↔
    word ∈ request.expressionWords field ∧ word.toList.head? = some ':'

end RemoteRequest

/-! ## Numbered placeholders -/

lemma natDigits_injective : Function.Injective natDigits := by
  intro m n h
  rw [← Decimal.digitsValue_natDigits m, h, Decimal.digitsValue_natDigits]

lemma nameKey_injective : Function.Injective fun n => (NamePlace.mk n).text := by
  intro m n h
  have hlist := congrArg String.toList h
  rw [toList_text_name, toList_text_name] at hlist
  exact natDigits_injective (List.cons.inj (List.cons.inj hlist).2).2

lemma valueKey_injective : Function.Injective fun n => (ValuePlace.mk n).text := by
  intro m n h
  have hlist := congrArg String.toList h
  rw [toList_text_value, toList_text_value] at hlist
  exact natDigits_injective (List.cons.inj (List.cons.inj hlist).2).2

section Numbered

variable {α : Type} (key : ℕ → String)

/-- The entry of a list at a number is the one under the text of the number. -/
lemma get?_numbered {key : ℕ → String} (hkey : Function.Injective key) (content : α → Tree)
    (l : List α) (i j : ℕ) :
    Assoc.get? ((l.zipIdx i).map fun (a, n) => (key n, content a)) (key (i + j)) =
      l[j]?.map content := by
  induction l generalizing i j with
  | nil => rfl
  | cons a rest ih =>
      rw [List.zipIdx_cons, List.map_cons, Assoc.get?]
      cases j with
      | zero => exact if_pos rfl
      | succ j =>
          rw [if_neg fun h => by have := hkey h; omega, List.getElem?_cons_succ, ← ih (i + 1) j,
            Nat.add_right_comm, Nat.add_assoc]

lemma contents_numbered (content : α → Tree) (l : List α) :
    (l.zipIdx.map fun (a, n) => (key n, content a)).map Prod.snd = l.map content := by
  conv_rhs => rw [← List.zipIdx_map_fst 0 l]
  rw [List.map_map, List.map_map]
  rfl

lemma names_numbered (content : α → Tree) (l : List α) :
    Assoc.names (l.zipIdx.map fun (a, n) => (key n, content a)) =
      (List.range l.length).map key := by
  rw [Assoc.names, List.map_map, List.range_eq_range', ← List.zipIdx_map_snd 0 l, List.map_map]
  rfl

end Numbered

namespace Expression

variable (e : Expression)

lemma names_nameTable :
    Assoc.names e.nameTable = (List.range e.names.length).map fun n => (NamePlace.mk n).text :=
  names_numbered (fun n => (NamePlace.mk n).text) Tree.text e.names

lemma names_valueTable :
    Assoc.names e.valueTable = (List.range e.values.length).map fun n => (ValuePlace.mk n).text :=
  names_numbered (fun n => (ValuePlace.mk n).text) Value.toWire e.values

end Expression

/-! ## The fields of an expression -/

/-- A request with the fields of an expression, its conditions in the field given. -/
structure Carries (request : RemoteRequest) (field : String) (e : Expression) : Prop where
  conditions : request.text? field = e.conditionText?
  assignments : request.text? "UpdateExpression" = e.updateText?
  names : request.names = e.nameTable
  values : request.values = e.valueTable

namespace Carries

variable {request : RemoteRequest} {field : String} {e : Expression}
  {assigned : List (String × Value)} {conditions : List Condition}

/-- The request's tables say of placeholders what the expression does. -/
lemma places (h : Carries request field e) : request.places.Of e.names e.values := by
  constructor
  · intro place
    have hget : request.names.get? place.text = e.names[place.index]?.map Tree.text := by
      have hnumbered := get?_numbered nameKey_injective Tree.text e.names 0 place.index
      rw [Nat.zero_add] at hnumbered
      rw [h.names]
      exact hnumbered
    rw [RemoteRequest.places]
    dsimp only
    rw [hget]
    cases e.names[place.index]? <;> rfl
  · intro place
    have hget : request.values.get? place.text = e.values[place.index]?.map Value.toWire := by
      have hnumbered := get?_numbered valueKey_injective Value.toWire e.values 0 place.index
      rw [Nat.zero_add] at hnumbered
      rw [h.values]
      exact hnumbered
    rw [RemoteRequest.places]
    dsimp only
    rw [hget]
    cases e.values[place.index]? with
    | none => rfl
    | some value =>
        rw [Option.map_some, Option.bind_some, Value.ofWire_toWire]
        rfl

/-- The placeholders among the words of a request are those that its clauses use. -/
lemma mem_expressionWords (h : Carries request field e) {word : String} (hword : IsPlace word) :
    word ∈ request.expressionWords field ↔
      (∃ place ∈ e.namePlaces, word = place.text) ∨ ∃ place ∈ e.valuePlaces, word = place.text := by
  have hconditions : word ∈ ((request.text? field).map words).getD [] ↔
      (∃ place ∈ e.conditions.map Clause.name, word = place.text) ∨
        ∃ place ∈ e.conditions.flatMap Clause.operands, word = place.text := by
    rw [h.conditions, Expression.conditionText?]
    cases hclauses : e.conditions with
    | nil => simp
    | cons _ _ => exact mem_words_conditions hword
  have hassignments : word ∈ ((request.text? "UpdateExpression").map words).getD [] ↔
      (∃ place ∈ e.assignments.map Assignment.name, word = place.text) ∨
        ∃ place ∈ e.assignments.map Assignment.value, word = place.text := by
    rw [h.assignments, Expression.updateText?]
    cases hclauses : e.assignments with
    | nil => simp
    | cons _ _ => exact mem_words_assignments hword
  rw [RemoteRequest.expressionWords, List.mem_append, hconditions, hassignments]
  simp only [Expression.namePlaces, Expression.valuePlaces, List.mem_append, or_and_right,
    exists_or]
  rw [or_or_or_comm]
  exact or_congr or_comm or_comm

/-- A request says what its expression says. -/
theorem toSays (h : Carries request field e) (hsaid : e.Denotes assigned conditions) :
    request.Says field conditions assigned := by
  refine ⟨?_, ?_, ?_, ⟨e.names, ?_, hsaid.nodup, hsaid.mem_names⟩, ?_, ?_, fun word => ?_,
    fun word => ?_⟩
  · rw [RemoteRequest.conditions?, h.conditions, Expression.conditionText?]
    have hread := readConditions_text h.places hsaid.conditions
    cases hclauses : e.conditions with
    | nil =>
        have hnone := hsaid.conditions
        rw [hclauses, List.forall₂_nil_left_iff] at hnone
        rw [hnone]
        rfl
    | cons _ _ =>
        rw [hclauses] at hread
        exact hread (List.cons_ne_nil _ _)
  · rw [RemoteRequest.assignments?, h.assignments, Expression.updateText?]
    have hread := readUpdate_text h.places hsaid.assignments
    cases hclauses : e.assignments with
    | nil =>
        have hnone := hsaid.assignments
        rw [hclauses, List.forall₂_nil_left_iff] at hnone
        rw [hnone]
        rfl
    | cons _ _ =>
        rw [hclauses] at hread
        exact hread (List.cons_ne_nil _ _)
  · rw [h.names, e.names_nameTable]
    exact List.nodup_range.map nameKey_injective
  · rw [h.names]
    exact contents_numbered (fun n => (NamePlace.mk n).text) Tree.text e.names
  · rw [h.values, e.names_valueTable]
    exact List.nodup_range.map valueKey_injective
  · rw [h.values, ← hsaid.values]
    exact contents_numbered (fun n => (ValuePlace.mk n).text) Value.toWire e.values
  · rw [h.names, e.names_nameTable, List.mem_map]
    constructor
    · rintro ⟨n, hn, rfl⟩
      have hplace := hsaid.named n (List.mem_range.mp hn)
      exact ⟨(h.mem_expressionWords (isPlace_name _)).mpr (Or.inl ⟨_, hplace, rfl⟩),
        head_text_name _⟩
    · rintro ⟨hword, hhead⟩
      rcases (h.mem_expressionWords (Or.inl hhead)).mp hword with
        ⟨place, hplace, rfl⟩ | ⟨place, -, rfl⟩
      · exact ⟨place.index, List.mem_range.mpr (hsaid.name_lt hplace), rfl⟩
      · rw [head_text_value] at hhead
        cases hhead
  · rw [h.values, e.names_valueTable, List.mem_map]
    constructor
    · rintro ⟨n, hn, rfl⟩
      have hplace := hsaid.valued n (List.mem_range.mp hn)
      exact ⟨(h.mem_expressionWords (isPlace_value _)).mpr (Or.inr ⟨_, hplace, rfl⟩),
        head_text_value _⟩
    · rintro ⟨hword, hhead⟩
      rcases (h.mem_expressionWords (Or.inr hhead)).mp hword with
        ⟨place, -, rfl⟩ | ⟨place, hplace, rfl⟩
      · rw [head_text_name] at hhead
        cases hhead
      · exact ⟨place.index, List.mem_range.mpr (hsaid.value_lt hplace), rfl⟩

end Carries

/-! ## Where the fields are -/

namespace Expression

lemma get?_field (name other : String) (content : Option Tree) :
    Assoc.get? (field name content) other = if name = other then content else none := by
  cases content with
  | none => exact (ite_self none).symm
  | some tree => rfl

/-- Fields have their names, as far as they are there. -/
lemma names_fields (first second third fourth : String) (a b c d : Option Tree) :
    (Assoc.names (field first a ++ field second b ++ field third c ++ field fourth d)).Sublist
      [first, second, third, fourth] := by
  have hfield : ∀ (name : String) (content : Option Tree),
      ((field name content).map Prod.fst).Sublist [name] := by
    rintro name (_ | content)
    · exact List.nil_sublist _
    · exact List.Sublist.refl _
  rw [Assoc.names, List.map_append, List.map_append, List.map_append]
  exact (((hfield ..).append (hfield ..)).append (hfield ..)).append (hfield ..)

/-- The names of the fields besides the conditions. -/
def partNames : List String :=
  ["UpdateExpression", "ExpressionAttributeNames", "ExpressionAttributeValues"]

/-- The fields have different names, so they are all there. -/
lemma parts_eq {conditionField : String} (h : conditionField ∉ partNames) (e : Expression) :
    e.parts conditionField =
      field conditionField (e.conditionText?.map .text) ++
        field "UpdateExpression" (e.updateText?.map .text) ++
        field "ExpressionAttributeNames"
          (if e.names.isEmpty then none else some (.record e.nameTable)) ++
        field "ExpressionAttributeValues"
          (if e.values.isEmpty then none else some (.record e.valueTable)) := by
  exact Assoc.insertAll_nil
    ((names_fields ..).nodup (List.nodup_cons.mpr ⟨h, by decide⟩))

/-- What is in each field. -/
lemma get?_parts {conditionField : String} (h : conditionField ∉ partNames) (e : Expression) :
    Assoc.get? (e.parts conditionField) conditionField = e.conditionText?.map .text ∧
      Assoc.get? (e.parts conditionField) "UpdateExpression" = e.updateText?.map .text ∧
      Assoc.get? (e.parts conditionField) "ExpressionAttributeNames" =
        (if e.names.isEmpty then none else some (.record e.nameTable)) ∧
      Assoc.get? (e.parts conditionField) "ExpressionAttributeValues" =
        if e.values.isEmpty then none else some (.record e.valueTable) := by
  have hne := h
  simp only [partNames, List.mem_cons, List.not_mem_nil, or_false, not_or] at hne
  obtain ⟨hupdate, hnames, hvalues⟩ := hne
  rw [parts_eq h]
  simp [Assoc.get?_append, get?_field, hupdate, hnames, hvalues, Ne.symm hupdate, Ne.symm hnames,
    Ne.symm hvalues]

/-- A request made of other fields and those of an expression. -/
lemma carries {conditionField : String} (h : conditionField ∉ partNames) (front back : Assoc Tree)
    (hfront : ∀ name ∈ conditionField :: partNames, name ∉ front.names)
    (hback : ∀ name ∈ conditionField :: partNames, name ∉ back.names) (operation : String)
    (e : Expression) :
    Carries ⟨operation, front ++ e.parts conditionField ++ back⟩ conditionField e := by
  have hget : ∀ name ∈ conditionField :: partNames,
      Assoc.get? (front ++ e.parts conditionField ++ back) name =
        Assoc.get? (e.parts conditionField) name := by
    intro name hname
    rw [Assoc.get?_append, Assoc.get?_append, Assoc.get?_of_not_mem (hfront name hname),
      Assoc.get?_of_not_mem (hback name hname), Option.none_or, Option.or_none]
  obtain ⟨hconditions, hupdate, hnames, hvalues⟩ := get?_parts h e
  refine ⟨?_, ?_, ?_, ?_⟩
  · rw [RemoteRequest.text?, hget _ (by simp), hconditions]
    cases e.conditionText? <;> rfl
  · rw [RemoteRequest.text?, hget _ (by simp [partNames]), hupdate]
    cases e.updateText? <;> rfl
  · rw [RemoteRequest.names, RemoteRequest.entries, hget _ (by simp [partNames]), hnames, nameTable]
    cases e.names <;> rfl
  · rw [RemoteRequest.values, RemoteRequest.entries, hget _ (by simp [partNames]), hvalues,
      valueTable]
    cases e.values <;> rfl

end Expression

/-! ## What is sent -/

namespace RemoteTable

variable (table : RemoteTable)

/-- The condition as it is sent, on the collection's key attribute if it is on the item itself.  If
that attribute has no name, it is sent as it is. -/
def resolved (condition : Condition) : Condition :=
  { condition with
    subject := if condition.subject = Condition.keyAttribute ∧ table.partitionName ≠ "" then
      table.partitionName else condition.subject }

lemma on_resolve (condition : Condition) :
    condition.on (table.resolve condition.subject) = table.resolved condition := by
  rw [Condition.on, resolved, resolve]
  by_cases hkey : condition.subject = Condition.keyAttribute
  · by_cases hname : table.partitionName = "" <;> simp [hkey, hname]
  · simp only [hkey, if_false, false_and]
    split_ifs <;> rfl

/-- The request for a write is made of its assignments and its conditions. -/
lemma exists_updateRequest (key : ItemKey) (updates : Attributes) {conditions : List Condition}
    (hfits : ∀ condition ∈ conditions, condition.Fits) :
    ∃ request, table.updateRequest key updates conditions = .ok request ∧
      request.operation = "update_item" ∧
      request.Says "ConditionExpression" (conditions.map table.resolved) updates := by
  have hassigned := Expression.addAssignments_denotes updates Expression.denotes_empty
  obtain ⟨e, hadd, hsaid⟩ := Expression.addConditions_denotes table.resolve hfits hassigned
  have hfront : ∀ name ∈ "ConditionExpression" :: Expression.partNames,
      name ∉ ["TableName", "Key"] := by decide
  have hcarries : Carries _ "ConditionExpression" e := Expression.carries (by decide)
    [("TableName", .text table.tableName), ("Key", table.wireKey key)] []
    hfront (fun _ _ => List.not_mem_nil) "update_item" e
  refine ⟨_, ?_, rfl, hcarries.toSays ?_⟩
  · rw [updateRequest, hadd, ok_bind, List.append_nil]
    rfl
  · simpa only [List.nil_append, on_resolve] using hsaid

/-- The request for a deletion is made of its conditions. -/
lemma exists_deleteRequest (key : ItemKey) {conditions : List Condition}
    (hfits : ∀ condition ∈ conditions, condition.Fits) :
    ∃ request, table.deleteRequest key conditions = .ok request ∧
      request.operation = "delete_item" ∧
      request.Says "ConditionExpression" (conditions.map table.resolved) [] := by
  obtain ⟨e, hadd, hsaid⟩ :=
    Expression.addConditions_denotes table.resolve hfits Expression.denotes_empty
  have hfront : ∀ name ∈ "ConditionExpression" :: Expression.partNames,
      name ∉ ["TableName", "Key"] := by decide
  have hcarries : Carries _ "ConditionExpression" e := Expression.carries (by decide)
    [("TableName", .text table.tableName), ("Key", table.wireKey key)] []
    hfront (fun _ _ => List.not_mem_nil) "delete_item" e
  refine ⟨_, ?_, rfl, hcarries.toSays ?_⟩
  · rw [deleteRequest, hadd, ok_bind, List.append_nil]
    rfl
  · simpa only [List.nil_append, on_resolve] using hsaid

/-- The request for a page is made of the collection's key and of the range. -/
lemma exists_queryRequest (request : QueryRequest)
    (hfits : ∀ range ∈ request.keyRange, range.Fits) :
    ∃ sent, table.queryRequest request = .ok sent ∧ sent.operation = "query" ∧
      sent.Says "KeyConditionExpression"
        (Condition.eq table.partitionName (.text request.partition) :: request.keyRange.toList)
        [] := by
  have hall : ∀ condition ∈ Condition.eq table.partitionName (.text request.partition) ::
      request.keyRange.toList, condition.Fits := by
    refine List.forall_mem_cons.mpr ⟨rfl, fun range hrange => hfits range ?_⟩
    exact Option.mem_toList.mp hrange
  obtain ⟨e, hadd, hsaid⟩ := Expression.addConditions_denotes id hall Expression.denotes_empty
  have hon : ∀ condition : Condition, condition.on (id condition.subject) = condition := by
    intro condition
    rw [Condition.on, id, ite_self]
  have hfront : ∀ name ∈ "KeyConditionExpression" :: Expression.partNames,
      name ∉ ["TableName", "ConsistentRead", "ScanIndexForward"] := by decide
  have hback : ∀ name ∈ "KeyConditionExpression" :: Expression.partNames,
      name ∉ ["IndexName", "Limit", "ExclusiveStartKey", "Select"] := by decide
  have hcarries : Carries _ "KeyConditionExpression" e := Expression.carries (by decide)
    [("TableName", .text table.tableName), ("ConsistentRead", .bool table.consistentReads),
      ("ScanIndexForward", .bool request.forward)]
    (Expression.field "IndexName"
        (request.index.map fun name => .text (table.indexPrefix ++ name)) ++
      Expression.field "Limit" (request.limit.map .int) ++
      Expression.field "ExclusiveStartKey"
        ((request.startKey.filter (!·.isEmpty)).map .record) ++
      Expression.field "Select" (if request.selectCount then some (.text "COUNT") else none))
    hfront (fun name hname hmem => hback name hname ((Expression.names_fields ..).subset hmem))
    "query" e
  refine ⟨_, ?_, rfl, hcarries.toSays ?_⟩
  · rw [queryRequest, hadd, ok_bind]
    rfl
  · simpa only [List.nil_append, hon, List.map_id'] using hsaid

end RemoteTable

/-- **Every write and every query sends one request, and this says what was asked**: the conditions
given, those on the item itself turned to the collection's key attribute, and the assignments given;
for a query the collection's key and the range. -/
theorem requests_denote_calls (table : RemoteTable) (link : Link) :
    (∀ (key : ItemKey) (updates : Attributes) (conditions : List Condition),
      (∀ condition ∈ conditions, condition.Fits) →
        ∃ request, (table.store (.update key updates conditions) link).2.sent =
            request :: link.sent ∧
          request.operation = "update_item" ∧
          request.Says "ConditionExpression" (conditions.map table.resolved) updates) ∧
    (∀ (key : ItemKey) (conditions : List Condition), (∀ condition ∈ conditions, condition.Fits) →
      ∃ request, (table.store (.delete key conditions) link).2.sent = request :: link.sent ∧
        request.operation = "delete_item" ∧
        request.Says "ConditionExpression" (conditions.map table.resolved) []) ∧
    ∀ query : QueryRequest, (∀ range ∈ query.keyRange, range.Fits) →
      ∃ request, (table.store (.query query) link).2.sent = request :: link.sent ∧
        request.operation = "query" ∧
        request.Says "KeyConditionExpression"
          (Condition.eq table.partitionName (.text query.partition) :: query.keyRange.toList) [] := by
  refine ⟨fun key updates conditions hfits => ?_, fun key conditions hfits => ?_,
    fun query hfits => ?_⟩
  · obtain ⟨request, hmade, hsaid⟩ := table.exists_updateRequest key updates hfits
    refine ⟨request, ?_, hsaid⟩
    rw [RemoteTable.store, hmade]
    rfl
  · obtain ⟨request, hmade, hsaid⟩ := table.exists_deleteRequest key hfits
    refine ⟨request, ?_, hsaid⟩
    rw [RemoteTable.store, hmade]
    rfl
  · obtain ⟨request, hmade, hsaid⟩ := table.exists_queryRequest query hfits
    refine ⟨request, ?_, hsaid⟩
    rw [RemoteTable.store, hmade]
    rfl

/-- Attributes may have names that look like placeholders or keywords. -/
theorem requests_denote_calls_awkward :
    ∃ request, (RemoteTable.store ⟨"t", "pk", "sk", "lsi_", true⟩
        (.update ⟨"k", "a"⟩ [("#n1", .text ":v0"), (" AND ", .null)]
          [.itemAbsent, ⟨"#n1", .between, [.number "1", .number "2"]⟩]) {}).2.sent = [request] ∧
      request.conditions? "ConditionExpression" =
        some [⟨"pk", .absent, []⟩, ⟨"#n1", .between, [.number "1", .number "2"]⟩] ∧
      request.assignments? = some [("#n1", .text ":v0"), (" AND ", .null)] ∧
      request.values.map Prod.snd =
        [Value.text ":v0", .null, .number "1", .number "2"].map Value.toWire := by
  have hfits : ∀ condition ∈ [.itemAbsent, ⟨"#n1", .between, [.number "1", .number "2"]⟩],
      Condition.Fits condition :=
    List.forall_mem_cons.mpr ⟨rfl, List.forall_mem_singleton.mpr rfl⟩
  obtain ⟨hupdate, -, -⟩ := requests_denote_calls ⟨"t", "pk", "sk", "lsi_", true⟩ {}
  obtain ⟨request, hsent, -, hsaid⟩ :=
    hupdate ⟨"k", "a"⟩ [("#n1", .text ":v0"), (" AND ", .null)] _ hfits
  exact ⟨request, hsent, hsaid.conditions, hsaid.assignments, hsaid.values⟩

/-- A condition on the item itself is not turned to a key attribute without a name. -/
theorem request_keeps_keyAttribute :
    ∃ request, (RemoteTable.store ⟨"t", "", "sk", "lsi_", true⟩
        (.delete ⟨"k", "a"⟩ [.itemPresent]) {}).2.sent = [request] ∧
      request.conditions? "ConditionExpression" = some [⟨"@key", .present, []⟩] ∧
      request.conditions? "ConditionExpression" ≠ some [⟨"", .present, []⟩] := by
  have hfits : ∀ condition ∈ [Condition.itemPresent], condition.Fits :=
    List.forall_mem_singleton.mpr rfl
  obtain ⟨request, hmade, -, hsaid⟩ :=
    RemoteTable.exists_deleteRequest ⟨"t", "", "sk", "lsi_", true⟩ ⟨"k", "a"⟩ hfits
  refine ⟨request, ?_, hsaid.conditions, ?_⟩
  · rw [RemoteTable.store, hmade]
    rfl
  · rw [hsaid.conditions]
    intro h
    have hsubject := congrArg (Option.map (List.map Condition.subject)) h
    revert hsubject
    decide

end RankedTable

import RankedTable.Proofs.Remote.Item
import RankedTable.Proofs.Remote.Request
import RankedTable.Proofs.Table.Contents

/-!
# Requests for single items

A request for an item says which of its attributes are asked for, by placeholders once more, and
those of the key along with them, as an item cannot be read without.  The embedded table restricts
what it has read.  A service that goes by the request gives what this leaves, unless the list of
attributes is empty: the request then asks for all of them.

* `Places.readNames`, `RemoteRequest.projection?` — the attributes that a request asks for.
* **`projection?_getRequest`** — they are those of the key and those in the list.
* `RemoteRequest.Served` — what a service replies to a request for an item.
* **`readFound_served`**, `readFound_missing` — what the remote table makes of such a reply.
* **`get_projects_alike`** — both tables give the same part of an item.
-/

namespace RankedTable

/-! ## Lists of names -/

/-- Reads names with commas between them. -/
def Places.readNames (places : Places) : List String → Option (List String)
  | name :: rest => do
    let subject ← places.name name
    match rest with
    | [] => some [subject]
    | "," :: rest => (places.readNames rest).map (subject :: ·)
    | _ => none
  | [] => none

/-- **What is read of placeholders** with commas between them are the names they stand for. -/
theorem readNames_text {names : List String} {values : List Value} {places : Places}
    (hplaces : places.Of names values) {list : List NamePlace} {asked : List String}
    (h : List.Forall₂ (fun place name => names[place.index]? = some name) list asked)
    (hne : list ≠ []) :
    places.readNames (words (", ".intercalate (list.map NamePlace.text))) = some asked := by
  have hwords : words ∘ NamePlace.text = fun place => [place.text] := funext words_name
  rw [words_intercalate [","] words_comma, List.map_map, hwords]
  clear hwords
  induction h with
  | nil => exact absurd rfl hne
  | @cons place name more others hname hmore ih =>
      rw [← hplaces.name] at hname
      cases hmore with
      | nil =>
          change places.readNames [place.text] = _
          rw [Places.readNames, hname]
          rfl
      | cons _ _ =>
          have hrest := ih (List.cons_ne_nil _ _)
          rw [List.map_cons, List.map_cons, List.intercalate_cons_cons]
          change places.readNames (place.text :: "," :: _) = _
          rw [Places.readNames, hname]
          exact congrArg (Option.map _) hrest

namespace Expression

/-- Names that are placed one after the other keep their placeholders, and nothing but names comes
into the expression. -/
lemma foldl_placeName (asked texts : List String) (e : Expression) :
    ∃ (list : List NamePlace) (names more : List String),
      asked.foldl (fun (places, e) name =>
          let (place, e) := Expression.placeName e name
          (places ++ [place.text], e)) (texts, e) =
        (texts ++ list.map NamePlace.text, { e with names := names }) ∧
      names = e.names ++ more ∧
      List.Forall₂ (fun place name => names[place.index]? = some name) list asked := by
  induction asked generalizing texts e with
  | nil => exact ⟨[], e.names, [], by simp, by simp, .nil⟩
  | cons name rest ih =>
      obtain ⟨names₁, place, hplaced, hname⟩ := e.placed_placeName name
      obtain ⟨list, names, more, hfold, hmore, hlist⟩ :=
        ih (texts ++ [place.text]) { e with names := names₁ }
      obtain ⟨more₁, hmore₁⟩ := hname.grown
      refine ⟨place :: list, names, more₁ ++ more, ?_, ?_, .cons ?_ hlist⟩
      · rw [List.foldl_cons]
        dsimp only
        rw [hplaced]
        dsimp only
        rw [hfold, List.map_cons, List.append_assoc]
        rfl
      · rw [hmore, hmore₁, List.append_assoc]
      · rw [hmore]
        exact getElem?_grown hname.found more

end Expression

/-! ## What is asked for -/

/-- The attributes that a request for an item asks for, of which there is no list if it asks for all
of them; nothing if its list cannot be read. -/
def RemoteRequest.projection? (request : RemoteRequest) : Option (Option (List String)) :=
  match request.text? "ProjectionExpression" with
  | some expression => (request.places.readNames (words expression)).map some
  | none => some none

namespace RemoteTable

/-- The attributes that are asked for along with those in a list; all, if there are none in it. -/
def asked (table : RemoteTable) (names : Option (List String)) : Option (List String) :=
  (names.filter (!·.isEmpty)).map fun names => table.partitionName :: table.memberName :: names

/-- The fields of a request with a list of attributes, without those of its placeholders. -/
def listFields (table : RemoteTable) (key : ItemKey) (list : List NamePlace) : Assoc Tree :=
  [("TableName", .text table.tableName), ("Key", table.wireKey key),
    ("ConsistentRead", .bool table.consistentReads),
    ("ProjectionExpression", .text (", ".intercalate (list.map NamePlace.text)))]

/-- A request with a list of attributes has these fields and those of an expression. -/
lemma getRequest_listed (table : RemoteTable) (key : ItemKey) {names : List String}
    (hsome : names ≠ []) {list : List NamePlace} {placed : List String}
    (hfold : (table.partitionName :: table.memberName :: names).foldl
      (fun (places, e) name =>
        let (place, e) := Expression.placeName e name
        (places ++ [place.text], e)) ([], {}) =
      (list.map NamePlace.text, { names := placed })) :
    table.getRequest key (some names) = ⟨"get_item",
      table.listFields key list ++ Expression.parts { names := placed } "ConditionExpression"⟩ := by
  have hfields : (["TableName", "Key", "ConsistentRead", "ProjectionExpression"] ++
      ["ConditionExpression", "UpdateExpression", "ExpressionAttributeNames",
        "ExpressionAttributeValues"]).Nodup := by decide
  have hnodup : (Assoc.names (table.listFields key list ++
      Expression.parts { names := placed } "ConditionExpression")).Nodup := by
    rw [Expression.parts_eq (by decide), Assoc.names, List.map_append]
    exact ((List.Sublist.refl _).append (Expression.names_fields ..)).nodup hfields
  rw [getRequest]
  dsimp only
  rw [Option.getD_some, if_neg (by simpa using hsome), hfold]
  dsimp only
  exact congrArg (RemoteRequest.mk "get_item") (Assoc.insertAll_append hnodup)

/-- **A request asks for the key and for what is in the list**, at the item's key. -/
theorem projection?_getRequest (table : RemoteTable) (key : ItemKey)
    (names : Option (List String)) :
    (table.getRequest key names).operation = "get_item" ∧
      Assoc.get? (table.getRequest key names).fields "Key" = some (table.wireKey key) ∧
      (table.getRequest key names).projection? = some (table.asked names) := by
  by_cases hnone : names.filter (!·.isEmpty) = none
  · have hempty : names.getD [] = [] := by
      cases names with
      | none => rfl
      | some names => simpa using hnone
    rw [getRequest, asked, hnone]
    dsimp only
    rw [hempty]
    exact ⟨rfl, rfl, rfl⟩
  · obtain ⟨names, hsome, rfl⟩ : ∃ l, l ≠ [] ∧ names = some l := by
      cases names with
      | none => exact absurd rfl hnone
      | some names => exact ⟨names, by simpa using hnone, rfl⟩
    obtain ⟨list, placed, -, hfold, -, hlist⟩ := Expression.foldl_placeName
      (table.partitionName :: table.memberName :: names) [] {}
    rw [List.nil_append] at hfold
    have hfields : ∀ name ∈ "ConditionExpression" :: Expression.partNames,
        name ∉ ["TableName", "Key", "ConsistentRead", "ProjectionExpression"] := by decide
    have hcarries : Carries _ "ConditionExpression" { names := placed } :=
      Expression.carries (by decide) (table.listFields key list) [] hfields
        (fun _ _ => List.not_mem_nil) "get_item" { names := placed }
    rw [List.append_nil] at hcarries
    have hread := readNames_text hcarries.places hlist (by
      rintro rfl
      cases hlist)
    rw [getRequest_listed table key hsome hfold]
    refine ⟨rfl, rfl, ?_⟩
    rw [RemoteRequest.projection?, asked, Option.filter_some_pos (by simpa using hsome)]
    exact congrArg (Option.map some) hread

/-! ## What is replied -/

end RemoteTable

/-- What is left of attributes if just some of them are asked for. -/
def projected (asked : Option (List String)) (attrs : Attributes) : Attributes :=
  match asked with
  | some names => attrs.restrict names
  | none => attrs

lemma projected_sublist (asked : Option (List String)) (attrs : Attributes) :
    (projected asked attrs).Sublist attrs := by
  cases asked with
  | none => exact List.Sublist.refl _
  | some names => exact List.filter_sublist

/-- What a service replies to a request for an item, whose attributes it holds with those of the
key: just those that are asked for, in whatever order.  If it holds no item, there is none in the
reply. -/
def RemoteRequest.Served (request : RemoteRequest) (held : Option Attributes) (reply : Tree) :
    Prop :=
  ∃ fields asked, reply = .record fields ∧ request.projection? = some asked ∧
    match held with
    | none => Assoc.get? fields "Item" = none
    | some attrs => ∃ entries : Attributes, entries.Perm (projected asked attrs) ∧
        Assoc.get? fields "Item" = some (attributesToWire entries)

namespace RemoteTable

variable {table : RemoteTable} {attrs : Attributes}

/-- The key attributes are kept with the others that are in a list. -/
lemma restrict_listed (hpartition : table.partitionName ∉ attrs.names)
    (hmember : table.memberName ∉ attrs.names) (key : ItemKey) (names : List String) :
    Assoc.restrict (table.listed key attrs) (table.partitionName :: table.memberName :: names) =
      table.listed key (attrs.restrict names) := by
  have hother : ∀ e ∈ attrs, (table.partitionName :: table.memberName :: names).contains e.1 =
      names.contains e.1 := by
    intro e he
    have hname : e.1 ∈ attrs.names := List.mem_map_of_mem he
    have hfirst : e.1 ≠ table.partitionName := fun h => hpartition (h ▸ hname)
    have hsecond : e.1 ≠ table.memberName := fun h => hmember (h ▸ hname)
    simp [hfirst, hsecond]
  rw [Assoc.restrict, listed, List.filter_cons_of_pos (by simp),
    List.filter_cons_of_pos (by simp), List.filter_congr hother]
  rfl

lemma projected_listed (hpartition : table.partitionName ∉ attrs.names)
    (hmember : table.memberName ∉ attrs.names) (key : ItemKey) (names : Option (List String)) :
    projected (table.asked names) (table.listed key attrs) =
      table.listed key (projected (names.filter (!·.isEmpty)) attrs) := by
  rw [asked]
  cases names.filter (!·.isEmpty) with
  | none => rfl
  | some names => exact restrict_listed hpartition hmember key names

/-- What is asked of the service is what it is sent, and what it replies is read. -/
lemma store_get (table : RemoteTable) (key : ItemKey) (names : Option (List String)) {link : Link}
    {reply : Tree} (hreply : link.responses.headD link.fallback = .reply reply) :
    (table.store (.get key names) link).1 = table.readFound reply ∧
      (table.store (.get key names) link).2.sent = table.getRequest key names :: link.sent := by
  refine ⟨?_, rfl⟩
  change ((link.responses.headD link.fallback).outcome (table.getRequest key names).operation >>=
    table.readFound) = _
  rw [hreply]
  rfl

/-- A reply without an item is read as none. -/
lemma readFound_missing {key : ItemKey} {names : Option (List String)} {reply : Tree}
    (hserved : (table.getRequest key names).Served none reply) :
    table.readFound reply = .ok none := by
  obtain ⟨fields, asked, rfl, -, hnone⟩ := hserved
  rw [readFound, replyField, hnone]
  rfl

/-- **What is replied is read as what the list leaves of the item**; if it is empty, as the whole
item. -/
theorem readFound_served (hapart : table.partitionName ≠ table.memberName)
    (hpartition : table.partitionName ∉ attrs.names) (hmember : table.memberName ∉ attrs.names)
    (hnodup : attrs.names.Nodup) {key : ItemKey} {names : Option (List String)} {reply : Tree}
    (hserved : (table.getRequest key names).Served (some (table.listed key attrs)) reply) :
    ∃ others : Attributes, others.Perm (projected (names.filter (!·.isEmpty)) attrs) ∧
      table.readFound reply = .ok (some ⟨key, others⟩) := by
  obtain ⟨fields, asked, rfl, hasked, entries, hentries, hitem⟩ := hserved
  obtain rfl := Option.some_inj.mp (hasked.symm.trans (projection?_getRequest table key names).2.2)
  rw [projected_listed hpartition hmember] at hentries
  have hsublist : (Assoc.names (projected (names.filter (!·.isEmpty)) attrs)).Sublist
      attrs.names := (projected_sublist _ attrs).map Prod.fst
  obtain ⟨others, hothers, hread⟩ := readItem_perm hapart
    (fun h => hpartition (hsublist.subset h)) (fun h => hmember (hsublist.subset h))
    (hnodup.sublist hsublist) hentries
  refine ⟨others, hothers, ?_⟩
  have hblank : (attributesToWire entries).isBlank = false := by
    cases entries with
    | nil => exact absurd hentries.length_eq (Nat.succ_ne_zero _).symm
    | cons entry rest => rfl
  rw [readFound, replyField, hitem, ok_bind]
  dsimp only
  rw [hblank, hread]
  rfl

end RemoteTable

/-! ## Both tables -/

/-- A list of names counts, unless it is empty. -/
lemma filter_of_ne_empty {names : Option (List String)} (h : names ≠ some []) :
    names.filter (!·.isEmpty) = names := by
  cases names with
  | none => rfl
  | some names => exact Option.filter_some_pos (by simpa using h)

/-- **Both tables give the same part of an item**, or both none: the whole item without a list of
names, and what it leaves of the item with one, in whatever order the service gives it.  What nests
too deep the embedded table cannot read, whatever is asked for; and the remote table takes an empty
list for none, so that the whole item is asked for and given. -/
theorem get_projects_alike (remote : RemoteTable)
    (hapart : remote.partitionName ≠ remote.memberName) (layout : Layout) (table : Table)
    (hopen : table.isOpen = true) (key : ItemKey) (names : Option (List String)) (link : Link)
    {reply : Tree} (hreply : link.responses.headD link.fallback = .reply reply) :
    (∃ request, (remote.store (.get key names) link).2.sent = request :: link.sent ∧
      request.operation = "get_item" ∧
      Assoc.get? request.fields "Key" = some (remote.wireKey key) ∧
      request.projection? = some (remote.asked names)) ∧
    (table.find? key = none → (remote.getRequest key names).Served none reply →
      (remote.store (.get key names) link).1 = .ok none ∧
        layout.store (.get key names) table = (.ok none, table)) ∧
    ∀ attrs : Attributes, table.find? key = some ⟨key, attrs⟩ → attrs.names.Nodup →
      remote.partitionName ∉ attrs.names → remote.memberName ∉ attrs.names →
      (remote.getRequest key names).Served (some (remote.listed key attrs)) reply →
      (∃ others : Attributes,
        (remote.store (.get key names) link).1 = .ok (some ⟨key, others⟩) ∧
        (names ≠ some [] → others.Perm (projected names attrs)) ∧
        (names = some [] → others.Perm attrs)) ∧
      layout.store (.get key names) table =
        (if attrs.depth ≤ Json.maxDepth then .ok (some ⟨key, projected names attrs⟩)
          else .error .invalidField, table) := by
  obtain ⟨hresult, hsent⟩ := RemoteTable.store_get remote key names hreply
  rw [hresult]
  refine ⟨⟨_, hsent, RemoteTable.projection?_getRequest remote key names⟩, ?_, ?_⟩
  · intro hmissing hserved
    refine ⟨RemoteTable.readFound_missing hserved, ?_⟩
    rw [Layout.store, Layout.get, if_pos hopen, Table.load, hmissing]
    rfl
  · intro attrs hitem hnodup hpartition hmember hserved
    obtain ⟨others, hothers, hread⟩ :=
      RemoteTable.readFound_served hapart hpartition hmember hnodup hserved
    refine ⟨⟨others, hread, fun hlist => ?_, ?_⟩, ?_⟩
    · rwa [filter_of_ne_empty hlist] at hothers
    · rintro rfl
      exact hothers
    · rw [Layout.store, Layout.get_found hopen hitem, Table.readBack]
      split_ifs
      · cases names <;> rfl
      · rfl

/-- Of two attributes one is in the list, with a name that looks like a placeholder; so is a name
that the item has not.  The service gives the key attributes last. -/
theorem get_projects_alike_listed :
    ∃ (remote : RemoteTable) (layout : Layout) (table : Table) (link : Link),
      table.find? ⟨"k", "a"⟩ = some ⟨⟨"k", "a"⟩, [("#n1", .text "x"), ("o", .null)]⟩ ∧
        (∃ others : Attributes,
          (remote.store (.get ⟨"k", "a"⟩ (some ["#n1", "z"])) link).1 =
            .ok (some ⟨⟨"k", "a"⟩, others⟩) ∧ others.Perm [("#n1", .text "x")]) ∧
        layout.store (.get ⟨"k", "a"⟩ (some ["#n1", "z"])) table =
          (.ok (some ⟨⟨"k", "a"⟩, [("#n1", .text "x")]⟩), table) := by
  have hserved : (RemoteTable.getRequest ⟨"t", "pk", "sk", "lsi_", true⟩ ⟨"k", "a"⟩
      (some ["#n1", "z"])).Served
        (some (RemoteTable.listed ⟨"t", "pk", "sk", "lsi_", true⟩ ⟨"k", "a"⟩
          [("#n1", .text "x"), ("o", .null)]))
        (.record [("Item", attributesToWire [("#n1", .text "x"), ("sk", .text "a"),
          ("pk", .text "k")])]) :=
    ⟨_, _, rfl, (RemoteTable.projection?_getRequest _ _ _).2.2, _,
      List.reverse_perm [("pk", Value.text "k"), ("sk", .text "a"), ("#n1", .text "x")], rfl⟩
  obtain ⟨-, -, hfound⟩ := get_projects_alike ⟨"t", "pk", "sk", "lsi_", true⟩ (by decide)
    (Installation.mk "ranked" "").defaults.layout
    { items := [⟨⟨"k", "a"⟩, [("#n1", .text "x"), ("o", .null)]⟩] } rfl ⟨"k", "a"⟩
    (some ["#n1", "z"]) { responses := [.reply _] } rfl
  obtain ⟨⟨others, hremote, hothers, -⟩, hlocal⟩ :=
    hfound _ rfl (by decide) (by decide) (by decide) hserved
  exact ⟨_, _, _, _, rfl, ⟨others, hremote, hothers (by simp)⟩, hlocal⟩

/-- Asked for no attributes of an item, a service is asked for all and gives them; the embedded
table gives none. -/
theorem empty_list_projects_all :
    ∃ (remote : RemoteTable) (layout : Layout) (table : Table) (link : Link) (reply : Tree),
      table.find? ⟨"k", "a"⟩ = some ⟨⟨"k", "a"⟩, [("n", .text "x")]⟩ ∧
        link.responses = [.reply reply] ∧
        (remote.getRequest ⟨"k", "a"⟩ (some [])).Served
          (some (remote.listed ⟨"k", "a"⟩ [("n", .text "x")])) reply ∧
        (remote.store (.get ⟨"k", "a"⟩ (some [])) link).1 =
          .ok (some ⟨⟨"k", "a"⟩, [("n", .text "x")]⟩) ∧
        layout.store (.get ⟨"k", "a"⟩ (some [])) table = (.ok (some ⟨⟨"k", "a"⟩, []⟩), table) :=
  ⟨⟨"t", "pk", "sk", "lsi_", true⟩, (Installation.mk "ranked" "").defaults.layout,
    { items := [⟨⟨"k", "a"⟩, [("n", .text "x")]⟩] },
    { responses := [.reply (.record [("Item", attributesToWire
      [("pk", .text "k"), ("sk", .text "a"), ("n", .text "x")])])] }, _, rfl, rfl,
    ⟨_, none, rfl, rfl, _, List.Perm.refl _, rfl⟩, rfl, rfl⟩

end RankedTable

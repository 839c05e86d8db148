import RankedTable.Proofs.Table.History
import RankedTable.Proofs.Value.Document

/-!
# What an update leaves to be read

The attributes of an item rest as a document.  What is read after an update are the attributes from
before with the updates written over them, provided that no map has a name twice and the document
does not nest too deep.

* `Table.DistinctNames`, `Call.DistinctNames` — no map in a table, or a call, has a name twice.
* `DistinctNames.store`, **`distinctNames_perform`** — calls keep it that way.
* `Table.mergedAt` — the attributes from before with updates written over them.
* `get_update` — what is read after an update.
* `Layout.ReadsBack`, `readsBack_update` — how an item is read back with its attributes.
* **`attributes_round_trip`** — attributes come back from their documents, and from a table.
* `attributes_too_deep` — unless they nest too deep.
* **`history_reads_back`**, **`update_reads_back`** — all attributes that calls have written come
  back, if these give no name twice.
-/

namespace RankedTable

open Value

/-! ## Names given once -/

lemma Value.entriesDistinct_iff {entries : List (String × Value)} :
    EntriesDistinct entries ↔
      (Assoc.names entries).Nodup ∧ ∀ e ∈ entries, e.2.DistinctNames := by
  constructor
  · intro h
    refine ⟨h.nodup, ?_⟩
    induction entries with
    | nil => exact fun e he => absurd he List.not_mem_nil
    | cons entry rest ih =>
        obtain ⟨-, hvalue, hrest⟩ := h
        exact List.forall_mem_cons.mpr ⟨hvalue, ih hrest⟩
  · rintro ⟨hnodup, hvalues⟩
    induction entries with
    | nil => trivial
    | cons entry rest ih =>
        obtain ⟨hnew, hnodup⟩ := List.nodup_cons.mp hnodup
        obtain ⟨hvalue, hvalues⟩ := List.forall_mem_cons.mp hvalues
        exact ⟨hnew, hvalue, ih hnodup hvalues⟩

lemma Value.EntriesDistinct.insertAll {entries writes : List (String × Value)}
    (hentries : EntriesDistinct entries) (hwrites : EntriesDistinct writes) :
    EntriesDistinct (Assoc.insertAll entries writes) := by
  rw [entriesDistinct_iff] at hentries hwrites ⊢
  refine ⟨Assoc.nodup_insertAll writes hentries.1, fun e he => ?_⟩
  rcases Assoc.mem_insertAll he with he | he
  · exact hentries.2 e he
  · exact hwrites.2 e he

/-- Whether no map in what a call writes has a name twice. -/
def Call.DistinctNames : Call → Prop
  | .update _ updates _ => EntriesDistinct updates
  | _ => True

namespace Table

/-- Whether no map in the items of a table has a name twice. -/
def DistinctNames (table : Table) : Prop :=
  ∀ key item, table.find? key = some item → EntriesDistinct item.attributes

/-- The attributes at an address with updates written over them. -/
def mergedAt (table : Table) (key : ItemKey) (updates : Attributes) : Attributes :=
  (((table.find? key).map Item.attributes).getD []).insertAll updates

variable {layout : Layout} {table after : Table} {key : ItemKey} {updates : Attributes}
  {conditions : List Condition}

lemma DistinctNames.mergedAt (h : table.DistinctNames) (key : ItemKey)
    (hupdates : EntriesDistinct updates) : EntriesDistinct (table.mergedAt key updates) := by
  refine EntriesDistinct.insertAll ?_ hupdates
  cases hitem : table.find? key with
  | none => trivial
  | some item => exact h key item hitem

/-- An attribute is the one of an update, or else the one from before. -/
lemma get?_mergedAt (table : Table) (key : ItemKey) (hupdates : (Assoc.names updates).Nodup)
    (name : String) :
    (table.mergedAt key updates).get? name =
      (updates.get? name).or (table.attribute? key name) := by
  rw [mergedAt, Assoc.get?_insertAll, Assoc.latest?_eq_get? hupdates, attribute?]
  cases table.find? key <;> rfl

/-- **Every call keeps the names of a table distinct**, if its own are. -/
theorem DistinctNames.store (h : table.DistinctNames) {c : Call} (hc : c.DistinctNames) :
    (layout.store c table).2.DistinctNames := by
  refine Layout.store_invariant h ?_ ?_
  · rintro key updates conditions table' rfl hok other item hitem
    rw [Layout.find?_update hok] at hitem
    split_ifs at hitem
    · cases hitem
      exact h.mergedAt key hc
    · exact h other item hitem
  · rintro key conditions table' - hok other item hitem
    obtain ⟨-, rfl⟩ := Layout.delete_ok hok
    exact h other item (find?_of_remove hitem)

end Table

/-- **So do all calls together.** -/
theorem distinctNames_perform (layout : Layout) {calls : List Call}
    (h : ∀ c ∈ calls, c.DistinctNames) : (layout.perform calls).2.DistinctNames :=
  perform_invariant layout (P := fun s => s.2.DistinctNames) (fun _ _ hitem => by cases hitem)
    fun c hc _ hs => hs.store (h c hc)

/-! ## Reading after an update -/

namespace Layout

variable {layout : Layout} {table after : Table} {key : ItemKey} {updates : Attributes}
  {conditions : List Condition}

/-- What is read is the item at the address, or those of its attributes that are named. -/
lemma get_found (hopen : table.isOpen = true) {item : Item} (hitem : table.find? key = some item)
    (names : Option (List String)) :
    get table key names = (Table.readBack item.attributes).map fun attrs =>
      some ⟨key, match names with
        | some names => attrs.restrict names
        | none => attrs⟩ := by
  rw [get, if_pos hopen, Table.load, hitem]
  dsimp only
  cases Table.readBack item.attributes with
  | error => rfl
  | ok attrs => cases names <;> rfl

lemma isOpen_of_update (h : layout.update table key updates conditions = .ok after) :
    after.isOpen = true := by
  rw [(writeIndex_ok (update_ok h).2).isOpen]
  rw [update] at h
  split_ifs at h with hopen
  · exact hopen
  · cases h

/-- **What is read after an update** are the attributes from before with the updates written over
them. -/
theorem get_update (h : layout.update table key updates conditions = .ok after)
    (names : Option (List String)) :
    get after key names = (Table.readBack (table.mergedAt key updates)).map fun attrs =>
      some ⟨key, match names with
        | some names => attrs.restrict names
        | none => attrs⟩ :=
  get_found (isOpen_of_update h) ((find?_update h key).trans (if_pos rfl)) names

/-- Without indexes an update of an empty table just writes the item. -/
lemma update_empty (hindexed : layout.indexed = []) (key : ItemKey) (name : String) {v : Value}
    (hnesting : v.nesting ≤ maxNesting) :
    layout.update {} key [(name, v)] [] = .ok { items := [⟨key, [(name, v)]⟩] } := by
  have hwritten : Attributes.canBeWritten [(name, v)] = true := by
    simp [Attributes.canBeWritten, Value.entriesNesting, hnesting]
  have hindex : layout.writeIndex key { items := [⟨key, [(name, v)]⟩] } [(name, v)] =
      .ok { items := [⟨key, [(name, v)]⟩] } := by
    rw [writeIndex, hindexed]
    rfl
  change (if Attributes.canBeWritten [(name, v)] = true then
    layout.writeIndex key { items := [⟨key, [(name, v)]⟩] } [(name, v)]
    else throw .nestedTooDeep) = _
  rw [if_pos hwritten, hindex]

end Layout

lemma Table.readBack_deep (name : String) {v : Value} (hdepth : Json.maxDepth < v.depth + 1) :
    Table.readBack [(name, v)] = .error .invalidField := by
  rw [Table.readBack, if_neg]
  simp only [Attributes.depth, entriesDepth, levelAround, List.isEmpty_cons, Bool.not_false,
    if_true]
  omega

/-- A value that nests less is written than is read back. -/
lemma Layout.get_unreadable {layout : Layout} (hindexed : layout.indexed = []) (key : ItemKey)
    (name : String) {v : Value} (hnesting : v.nesting ≤ maxNesting)
    (hdepth : Json.maxDepth < v.depth + 1) :
    layout.store (.update key [(name, v)] []) {} = (.ok (), { items := [⟨key, [(name, v)]⟩] }) ∧
      (layout.store (.get key none) { items := [⟨key, [(name, v)]⟩] }).1 =
        .error .invalidField := by
  have hupdate := Layout.update_empty hindexed key name hnesting
  constructor
  · rw [Layout.store, hupdate]
    rfl
  · rw [Layout.store]
    dsimp only
    rw [Layout.get_update hupdate]
    change (Table.readBack [(name, v)]).map _ = _
    rw [Table.readBack_deep name hdepth]
    rfl

/-! ## The round trip -/

/-- How an item is read back that rests with some attributes: with these, or with those of them that
are named.  Attributes that nest too deep are refused. -/
structure Layout.ReadsBack (layout : Layout) (table : Table) (key : ItemKey)
    (attrs : Attributes) : Prop where
  names : attrs.names.Nodup
  shallow : attrs.depth ≤ Json.maxDepth →
    (layout.store (.get key none) table).1 = .ok (some ⟨key, attrs⟩) ∧
      ∀ names, ∃ restricted : Attributes, restricted.names.Nodup ∧
        (∀ name, restricted.get? name = if name ∈ names then attrs.get? name else none) ∧
        (layout.store (.get key (some names)) table).1 = .ok (some ⟨key, restricted⟩)
  deep : Json.maxDepth < attrs.depth → ∀ names,
    (layout.store (.get key names) table).1 = .error .invalidField

section RoundTrip

variable (layout : Layout) {table after : Table} {key : ItemKey} {updates : Attributes}
  {conditions : List Condition}

/-- An item whose attributes have distinct names is read back as it rests. -/
lemma Layout.readsBack_of_found (hopen : table.isOpen = true) {item : Item}
    (hitem : table.find? key = some item) (hnames : item.attributes.names.Nodup) :
    layout.ReadsBack table key item.attributes := by
  refine ⟨hnames, fun hdepth => ?_, fun hdepth names => ?_⟩
  · have hread : Table.readBack item.attributes = .ok item.attributes := if_pos hdepth
    refine ⟨?_, fun names => ⟨item.attributes.restrict names,
      hnames.sublist (List.filter_sublist.map _), fun name => ?_, ?_⟩⟩
    · change Layout.get table key none = _
      rw [Layout.get_found hopen hitem, hread]
      rfl
    · split_ifs with hname
      · exact Assoc.get?_restrict _ hname
      · exact Assoc.get?_restrict_of_not_mem _ hname
    · change Layout.get table key (some names) = _
      rw [Layout.get_found hopen hitem, hread]
      rfl
  · change Layout.get table key names = _
    rw [Layout.get_found hopen hitem, Table.readBack, if_neg (Nat.not_le.mpr hdepth)]
    rfl

variable {layout}

/-- **After an update an item is read back with the attributes from before**, the updates written
over them. -/
theorem Table.DistinctNames.readsBack_update (h : table.DistinctNames)
    (hupdates : EntriesDistinct updates)
    (hok : layout.update table key updates conditions = .ok after) :
    layout.ReadsBack after key (table.mergedAt key updates) :=
  layout.readsBack_of_found (Layout.isOpen_of_update hok)
    ((Layout.find?_update hok key).trans (if_pos rfl)) (h.mergedAt key hupdates).nodup

end RoundTrip

/-- **Attributes come back as they were**, from every document that lists the members of their sets
in whatever order, and after an update from the table: those from before with the updates written
over them, or those of them that are named.  Documents that nest too deep are refused. -/
theorem attributes_round_trip :
    (∀ (attrs : Attributes) (fields : List (String × Tree)), EntriesDistinct attrs →
      AreDocuments attrs fields →
        (attrs.depth ≤ Json.maxDepth → attrs.canBeWritten = true ∧
          readAttributes (Tree.record fields).toJson = .ok attrs) ∧
        (Json.maxDepth < attrs.depth →
          readAttributes (Tree.record fields).toJson = .error .invalidField)) ∧
    ∀ (layout : Layout) (table after : Table) (key : ItemKey) (updates : Attributes)
      (conditions : List Condition), table.DistinctNames → EntriesDistinct updates →
        layout.store (.update key updates conditions) table = (.ok (), after) →
          (table.mergedAt key updates).names.Nodup ∧
            (∀ name, (table.mergedAt key updates).get? name =
              (updates.get? name).or (table.attribute? key name)) ∧
            ((table.mergedAt key updates).depth ≤ Json.maxDepth →
              (layout.store (.get key none) after).1 =
                  .ok (some ⟨key, table.mergedAt key updates⟩) ∧
                ∀ names, ∃ restricted : Attributes, restricted.names.Nodup ∧
                  (∀ name, restricted.get? name =
                    if name ∈ names then (table.mergedAt key updates).get? name else none) ∧
                  (layout.store (.get key (some names)) after).1 =
                    .ok (some ⟨key, restricted⟩)) ∧
            (Json.maxDepth < (table.mergedAt key updates).depth → ∀ names,
              (layout.store (.get key names) after).1 = .error .invalidField) := by
  constructor
  · intro attrs fields hdistinct hfields
    rw [readAttributes_toJson hdistinct hfields, Table.readBack]
    constructor
    · exact fun hdepth => ⟨canBeWritten_of_depth hdepth, if_pos hdepth⟩
    · exact fun hdepth => if_neg (Nat.not_le.mpr hdepth)
  · intro layout table after key updates conditions htable hupdates hstore
    have hok : layout.update table key updates conditions = .ok after :=
      Layout.commit_eq_ok.mp hstore
    obtain ⟨hnames, hshallow, hdeep⟩ := htable.readsBack_update hupdates hok
    exact ⟨hnames, table.get?_mergedAt key hupdates.nodup, hshallow, hdeep⟩

/-- A set inside a map comes back although its document lists it the other way round, and an update
with it leaves the other attributes. -/
theorem attributes_round_trip_reversed :
    ∃ (updates : Attributes) (fields : List (String × Tree)) (after : Table) (merged : Attributes),
      updates.get? "m" = some (.map [("s", .binarySet (.ofList [[1], [2]]))]) ∧
      (Tree.record fields).toJson ≠ writeAttributes updates ∧
      readAttributes (Tree.record fields).toJson = .ok updates ∧
      Layout.store ⟨[], "pk", "sk", none⟩ (.update ⟨"k", "a"⟩ updates [])
        { items := [⟨⟨"k", "a"⟩, [("m", .text "x"), ("n", .null)]⟩] } = (.ok (), after) ∧
      (Layout.store ⟨[], "pk", "sk", none⟩ (.get ⟨"k", "a"⟩ none) after).1 =
        .ok (some ⟨⟨"k", "a"⟩, merged⟩) ∧
      merged.get? "m" = updates.get? "m" ∧ merged.get? "n" = some .null := by
  let updates : Attributes := [("m", .map [("s", .binarySet (.ofList [[1], [2]]))])]
  let listed : Tree := document .binarySet [("values", .list [.text "Ag==", .text "AQ=="])]
  let fields : List (String × Tree) := [("m", document .map [("value", .record [("s", listed)])])]
  let before : Table := { items := [⟨⟨"k", "a"⟩, [("m", .text "x"), ("n", .null)]⟩] }
  have hdistinct : EntriesDistinct updates :=
    ⟨List.not_mem_nil, ⟨List.not_mem_nil, trivial, trivial⟩, trivial⟩
  have hlisted : Value.IsDocument (.binarySet (.ofList [[1], [2]])) listed :=
    ⟨[[2], [1]], List.Perm.swap .., rfl⟩
  have hfields : AreDocuments updates fields :=
    ⟨_, _, ⟨_, ⟨_, _, hlisted, rfl, rfl⟩, rfl⟩, rfl, rfl⟩
  have htable : before.DistinctNames := by
    intro key item hitem
    obtain rfl := List.mem_singleton.mp (List.mem_of_find?_eq_some hitem)
    exact ⟨by decide, trivial, List.not_mem_nil, trivial, trivial⟩
  obtain ⟨hread, hget⟩ := attributes_round_trip
  obtain ⟨-, hmerged, hshallow, -⟩ := hget ⟨[], "pk", "sk", none⟩ before _ ⟨"k", "a"⟩ updates []
    htable hdistinct rfl
  refine ⟨updates, fields, _, _, rfl, ?_, ((hread updates fields hdistinct hfields).1 ?_).2, rfl,
    (hshallow ?_).1, hmerged "m", hmerged "n"⟩ <;> decide

/-- A text inside a hundred maps is written, but not read back. -/
theorem attributes_too_deep :
    EntriesDistinct [("m", textWithin 100)] ∧
      readAttributes (writeAttributes [("m", textWithin 100)]) = .error .invalidField ∧
      ∃ after : Table,
        Layout.store ⟨[], "pk", "sk", none⟩ (.update ⟨"k", "a"⟩ [("m", textWithin 100)] []) {} =
          (.ok (), after) ∧
        (Layout.store ⟨[], "pk", "sk", none⟩ (.get ⟨"k", "a"⟩ none) after).1 =
          .error .invalidField := by
  have hdistinct : EntriesDistinct [("m", textWithin 100)] :=
    ⟨List.not_mem_nil, distinctNames_textWithin 100, trivial⟩
  have hnesting : (textWithin 100).nesting ≤ maxNesting := by
    rw [nesting_textWithin]
    decide
  have hdepth : Json.maxDepth < (textWithin 100).depth + 1 := by
    rw [depth_textWithin]
    decide
  refine ⟨hdistinct, ?_, _, Layout.get_unreadable rfl _ "m" hnesting hdepth⟩
  exact (readAttributes_toJson hdistinct (areDocuments_entriesToDocument _)).trans
    (Table.readBack_deep "m" hdepth)

/-! ## After a history of calls -/

section History

variable {calls : List Call} (hcalls : ∀ c ∈ calls, c.DistinctNames)

include hcalls

/-- **After any history each item is read back with the updates since it was last deleted**, each
written over those before, if no call gives a name twice. -/
theorem history_reads_back (layout : Layout) {key : ItemKey} {attrs : Attributes}
    (hattrs : merged (updatesSince key (layout.perform calls).1) = some attrs) :
    layout.ReadsBack (layout.perform calls).2 key attrs := by
  rw [← find?_perform] at hattrs
  obtain ⟨item, hitem, rfl⟩ := Option.map_eq_some_iff.mp hattrs
  exact layout.readsBack_of_found (mirrors_perform layout calls).isOpen hitem
    (distinctNames_perform layout hcalls key item hitem).nodup

/-- **So is an item that is then updated**, with the attributes that the history tells of and the
updates written over them. -/
theorem update_reads_back (layout : Layout) {key : ItemKey} {updates : Attributes}
    {conditions : List Condition} {after : Table} (hupdates : EntriesDistinct updates)
    (hstore : layout.store (.update key updates conditions) (layout.perform calls).2 =
      (.ok (), after)) :
    layout.ReadsBack after key
      (((merged (updatesSince key (layout.perform calls).1)).getD []).insertAll updates) := by
  rw [← find?_perform]
  exact (distinctNames_perform layout hcalls).readsBack_update hupdates
    (Layout.commit_eq_ok.mp hstore)

end History

end RankedTable

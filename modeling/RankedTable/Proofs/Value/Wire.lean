import RankedTable.Proofs.Except
import RankedTable.Proofs.OrderedSet
import RankedTable.Value.Wire

/-!
# The tagged form is read back, and what else is accepted

A value is read back from its tagged form.  Conversely a tree is accepted if each of its nodes is a
record whose one field is named by a tag, and what is then written differs from it only in the order
of sets and in the payload of nulls.

* `Tree.IsTagged` — whether each node has one field, named by a tag.
* `Tree.IsWire` — whether nodes are records and payloads fit the tags that they stand under.
* `Tree.normal` — a tree with its sets sorted and its nulls spelled out.
* **`ofWire_toWire`** — a value is read back.
* `isTagged_of_ofWire` — nothing else is accepted.
* **`ofWire_isWire`** — what is accepted is written back in its normal form, and the rest is
  refused.
-/

namespace RankedTable

namespace Tree

open Value (Kind)

mutual

/-- Whether each node, however deep, is a record with one field that is named by a tag. -/
def IsTagged : Tree → Prop
  | .record [(tag, payload)] =>
    ∃ kind : Kind, tag = kind.tag ∧ (kind = .map → IsTaggedMap payload)
  | _ => False

/-- Whether each entry of a map is such a node. -/
def IsTaggedMap : Tree → Prop
  | .record fields => FieldsTagged fields
  | _ => False

/-- Whether each of some fields is such a node. -/
def FieldsTagged : List (String × Tree) → Prop
  | [] => True
  | (_, tree) :: rest => tree.IsTagged ∧ FieldsTagged rest

end

mutual

/-- Whether nodes are records, and payloads are of the type that their tags call for.  The tag of a
null calls for none. -/
def IsWire : Tree → Prop
  | .record [(tag, payload)] => ∀ kind : Kind, tag = kind.tag → IsPayload kind payload
  | .record _ => True
  | _ => False

/-- Whether a payload is of the type that a tag calls for. -/
def IsPayload : Kind → Tree → Prop
  | .text, payload | .number, payload => ∃ s, payload = .text s
  | .binary, payload => ∃ b, payload = .bytes b
  | .textSet, payload | .numberSet, payload => ∃ listed : List String,
      payload = .list (listed.map .text)
  | .binarySet, payload => ∃ listed : List Bytes, payload = .list (listed.map .bytes)
  | .map, .record fields => AreWire fields
  | .map, _ => False
  | .null, _ => True

/-- Whether the entries of a map are nodes of that kind. -/
def AreWire : List (String × Tree) → Prop
  | [] => True
  | (_, tree) :: rest => tree.IsWire ∧ AreWire rest

end

/-- The texts among some trees. -/
def texts (elems : List Tree) : List String :=
  elems.filterMap fun
    | .text s => some s
    | _ => none

/-- The byte strings among some trees. -/
def byteStrings (elems : List Tree) : List Bytes :=
  elems.filterMap fun
    | .bytes b => some b
    | _ => none

mutual

/-- A tree of nodes with the members of every set sorted and each once, and with true under every
null. -/
def normal : Tree → Tree
  | .record [(tag, payload)] => .record [(tag, normalPayload tag payload)]
  | tree => tree

/-- The normal form of what stands under a tag. -/
def normalPayload (tag : String) : Tree → Tree
  | .record fields => if tag = Kind.null.tag then .bool true else .record (normalFields fields)
  | .list elems =>
    if tag = Kind.null.tag then .bool true
    else if tag = Kind.binarySet.tag then
      .list ((OrderedSet.sortedMembers (byteStrings elems)).map .bytes)
    else .list ((OrderedSet.sortedMembers (texts elems)).map .text)
  | leaf => if tag = Kind.null.tag then .bool true else leaf

/-- The normal forms of the entries of a map. -/
def normalFields : List (String × Tree) → List (String × Tree)
  | [] => []
  | (name, tree) :: rest => (name, tree.normal) :: normalFields rest

end

end Tree

namespace Value

open RankedTable.Tree

/-! ## Payloads -/

lemma textSetOf_listed (listed : List String) :
    textSetOf (.list (listed.map .text)) = .ok (OrderedSet.ofList listed) := by
  have hmembers : membersOf (.list (listed.map .text)) = .ok (listed.map .text) := by
    simp [membersOf, canBeMember]
  have hread : (listed.map Tree.text).mapM textOf = .ok listed := by
    rw [List.mapM_map]
    exact (mapM_ok fun s _ => rfl).trans (congrArg _ (List.map_id listed))
  rw [textSetOf, hmembers, ok_bind, hread]
  rfl

lemma binarySetOf_listed (listed : List Bytes) :
    binarySetOf (.list (listed.map .bytes)) = .ok (OrderedSet.ofList listed) := by
  have hmembers : membersOf (.list (listed.map .bytes)) = .ok (listed.map .bytes) := by
    simp [membersOf, canBeMember]
  have hread : (listed.map Tree.bytes).mapM bytesOf = .ok listed := by
    rw [List.mapM_map]
    exact (mapM_ok fun b _ => rfl).trans (congrArg _ (List.map_id listed))
  rw [binarySetOf, hmembers, ok_bind, hread]
  rfl

/-! ## The round trip -/

mutual

/-- **A value is read back from its tagged form.** -/
theorem ofWire_toWire : ∀ value : Value, ofWire value.toWire = .ok value
  | .text _ | .number _ | .binary _ | .null => rfl
  | .textSet members => by
      change (textSetOf (.list (members.elems.map .text))).map textSet = _
      rw [textSetOf_listed, OrderedSet.ofList_elems]
      rfl
  | .numberSet members => by
      change (textSetOf (.list (members.elems.map .text))).map numberSet = _
      rw [textSetOf_listed, OrderedSet.ofList_elems]
      rfl
  | .binarySet members => by
      change (binarySetOf (.list (members.elems.map .bytes))).map binarySet = _
      rw [binarySetOf_listed, OrderedSet.ofList_elems]
      rfl
  | .map entries => by
      change (entriesOfWire (entriesToWire entries)).map map = _
      rw [entriesOfWire_entriesToWire entries]
      rfl

theorem entriesOfWire_entriesToWire :
    ∀ entries : List (String × Value), entriesOfWire (entriesToWire entries) = .ok entries
  | [] => rfl
  | (_, value) :: rest => by
      rw [entriesToWire, entriesOfWire, ofWire_toWire value, ok_bind,
        entriesOfWire_entriesToWire rest]
      rfl

end

/-! ## What is accepted -/

lemma Kind.tag_injective : Function.Injective Kind.tag := by
  intro one other h
  cases one <;> cases other <;> first | rfl | exact absurd h (by decide)

/-- A tag is that of a kind, or is refused. -/
lemma ofWire_unknown {tag : String} (h : ∀ kind : Kind, tag ≠ kind.tag) (payload : Tree) :
    ofWire (.record [(tag, payload)]) = .error (.store (.unsupportedTag tag)) :=
  ofWire.eq_10 tag payload (h .text) (h .number) (h .binary) (h .textSet) (h .numberSet)
    (h .binarySet) (h .map) (h .null)

mutual

/-- What is accepted has one field for each node, named by a tag. -/
theorem isTagged_of_ofWire :
    ∀ {tree : Tree} {value : Value}, ofWire tree = .ok value → tree.IsTagged
  | .record fields, value, h => by
      match fields with
      | [(tag, payload)] =>
          by_cases hkind : ∃ kind : Kind, tag = kind.tag
          · obtain ⟨kind, rfl⟩ := hkind
            refine ⟨kind, rfl, ?_⟩
            rintro rfl
            cases payload with
            | record fields =>
                change (entriesOfWire fields).map map = _ at h
                cases hentries : entriesOfWire fields with
                | ok entries => exact fieldsTagged_of_entriesOfWire hentries
                | error e =>
                    rw [hentries] at h
                    cases h
            | _ => cases h
          · rw [ofWire_unknown (fun kind hkind' => hkind ⟨kind, hkind'⟩)] at h
            cases h
      | [] | _ :: _ :: _ => cases h
  | .list [_], _, h | .list [], _, h | .list (_ :: _ :: _), _, h => by cases h
  | .null, _, h | .bool _, _, h | .int _, _, h | .float _, _, h => by cases h
  | .text _, _, h | .bytes _, _, h => by cases h

theorem fieldsTagged_of_entriesOfWire : ∀ {fields : List (String × Tree)}
    {entries : List (String × Value)}, entriesOfWire fields = .ok entries → FieldsTagged fields
  | [], _, _ => trivial
  | (_, tree) :: rest, _, h => by
      rw [entriesOfWire] at h
      obtain ⟨value, hvalue, h⟩ := bind_eq_ok.mp h
      obtain ⟨entries, hentries, -⟩ := bind_eq_ok.mp h
      exact ⟨isTagged_of_ofWire hvalue, fieldsTagged_of_entriesOfWire hentries⟩

end

/-- What the payloads of a kind other than map are read as, and written back. -/
lemma ofWire_payload {kind : Kind} {payload : Tree} (hkind : kind ≠ .map)
    (h : IsPayload kind payload) : ∃ value, ofWire (.record [(kind.tag, payload)]) = .ok value ∧
      value.toWire = .record [(kind.tag, normalPayload kind.tag payload)] := by
  have htexts : ∀ listed : List String, texts (listed.map .text) = listed := fun listed => by
    rw [texts, List.filterMap_map]
    exact List.filterMap_some
  have hbytes : ∀ listed : List Bytes, byteStrings (listed.map .bytes) = listed := fun listed => by
    rw [byteStrings, List.filterMap_map]
    exact List.filterMap_some
  cases kind with
  | text =>
      rw [IsPayload] at h
      obtain ⟨s, rfl⟩ := h
      exact ⟨.text s, rfl, rfl⟩
  | number =>
      rw [IsPayload] at h
      obtain ⟨s, rfl⟩ := h
      exact ⟨.number s, rfl, rfl⟩
  | binary =>
      rw [IsPayload] at h
      obtain ⟨b, rfl⟩ := h
      exact ⟨.binary b, rfl, rfl⟩
  | textSet =>
      rw [IsPayload] at h
      obtain ⟨listed, rfl⟩ := h
      refine ⟨.textSet (.ofList listed),
        congrArg (Except.map textSet) (textSetOf_listed listed), ?_⟩
      rw [toWire, OrderedSet.elems_ofList, normalPayload, htexts]
      rfl
  | numberSet =>
      rw [IsPayload] at h
      obtain ⟨listed, rfl⟩ := h
      refine ⟨.numberSet (.ofList listed),
        congrArg (Except.map numberSet) (textSetOf_listed listed), ?_⟩
      rw [toWire, OrderedSet.elems_ofList, normalPayload, htexts]
      rfl
  | binarySet =>
      rw [IsPayload] at h
      obtain ⟨listed, rfl⟩ := h
      refine ⟨.binarySet (.ofList listed),
        congrArg (Except.map binarySet) (binarySetOf_listed listed), ?_⟩
      rw [toWire, OrderedSet.elems_ofList, normalPayload, hbytes]
      rfl
  | map => exact absurd rfl hkind
  | null =>
      refine ⟨.null, rfl, ?_⟩
      cases payload <;> rfl

/-- What becomes of a tree: it is accepted and written back in its normal form, or refused by an
error of the store. -/
def IsReadAs (tree : Tree) : Prop :=
  (tree.IsTagged ∧ ∃ value, ofWire tree = .ok value ∧ value.toWire = tree.normal) ∨
    (¬tree.IsTagged ∧ ∃ fault, ofWire tree = .error (.store fault))

/-- What becomes of the entries of a map. -/
def AreReadAs (fields : List (String × Tree)) : Prop :=
  (FieldsTagged fields ∧ ∃ entries, entriesOfWire fields = .ok entries ∧
    entriesToWire entries = normalFields fields) ∨
      (¬FieldsTagged fields ∧ ∃ fault, entriesOfWire fields = .error (.store fault))

/-- A map is read as its entries are. -/
lemma AreReadAs.map {fields : List (String × Tree)} (h : AreReadAs fields) :
    IsReadAs (.record [(Kind.map.tag, .record fields)]) := by
  have htagged : (Tree.record [(Kind.map.tag, .record fields)]).IsTagged ↔ FieldsTagged fields := by
    constructor
    · rintro ⟨kind, htag, hfields⟩
      exact hfields (Kind.tag_injective htag).symm
    · exact fun hfields => ⟨.map, rfl, fun _ => hfields⟩
  have hread : ofWire (.record [(Kind.map.tag, .record fields)]) =
      (entriesOfWire fields).map .map := rfl
  rw [IsReadAs, htagged, hread]
  rcases h with ⟨hfields, entries, hentries, hnormal⟩ | ⟨hfields, fault, hentries⟩
  · refine Or.inl ⟨hfields, .map entries, by rw [hentries]; rfl, ?_⟩
    rw [toWire, hnormal]
    rfl
  · exact Or.inr ⟨hfields, fault, by rw [hentries]; rfl⟩

mutual

/-- **Trees of records whose payloads fit their tags are accepted just if each node has one field,
named by a tag**, and then they are written back in their normal form. -/
theorem ofWire_isWire : ∀ {tree : Tree}, tree.IsWire → IsReadAs tree
  | .record fields, h => by
      match fields with
      | [(tag, payload)] =>
          by_cases hknown : ∃ kind : Kind, tag = kind.tag
          · obtain ⟨kind, rfl⟩ := hknown
            by_cases hkind : kind = .map
            · subst hkind
              cases payload with
              | record fields => exact (entriesOfWire_areWire (h .map rfl)).map
              | _ => exact (h .map rfl).elim
            · refine Or.inl ⟨⟨kind, rfl, fun hmap => absurd hmap hkind⟩, ?_⟩
              exact ofWire_payload hkind (h kind rfl)
          · have hunknown : ∀ kind : Kind, tag ≠ kind.tag := fun kind h' => hknown ⟨kind, h'⟩
            refine Or.inr ⟨?_, _, ofWire_unknown hunknown payload⟩
            rintro ⟨kind, htag, -⟩
            exact hunknown kind htag
      | [] => exact Or.inr ⟨id, _, rfl⟩
      | _ :: _ :: _ => exact Or.inr ⟨id, _, rfl⟩
  | .null, h | .bool _, h | .int _, h | .float _, h | .text _, h | .bytes _, h | .list _, h =>
      h.elim

theorem entriesOfWire_areWire :
    ∀ {fields : List (String × Tree)}, AreWire fields → AreReadAs fields
  | [], _ => Or.inl ⟨trivial, [], rfl, rfl⟩
  | (name, tree) :: rest, ⟨htree, hrest⟩ => by
      rw [AreReadAs, entriesOfWire]
      rcases ofWire_isWire htree with ⟨htagged, value, hvalue, hnormal⟩ | ⟨htagged, fault, hvalue⟩
      · rw [hvalue, ok_bind]
        rcases entriesOfWire_areWire hrest with
          ⟨hfields, entries, hentries, hrest⟩ | ⟨hfields, fault, hentries⟩
        · refine Or.inl ⟨⟨htagged, hfields⟩, (name, value) :: entries, by rw [hentries]; rfl, ?_⟩
          rw [entriesToWire, normalFields, hnormal, hrest]
        · exact Or.inr ⟨fun h => hfields h.2, fault, by rw [hentries]; rfl⟩
      · exact Or.inr ⟨fun h => htagged h.1, fault, by rw [hvalue]; rfl⟩

end

end Value

end RankedTable

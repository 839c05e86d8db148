import Mathlib.Data.List.Perm.Basic
import RankedTable.Proofs.Assoc
import RankedTable.Proofs.Value.Wire
import RankedTable.Remote.Table

/-!
# Items are read back from the wire

The record of an item has the two key attributes and the others side by side.  It is read back as
its key and the others, in whatever order they come.

* `readItem_entries` — what is read from a record with both key attributes.
* **`wire_round_trip`** — values and items come back from the wire, and what else is accepted there.
-/

namespace RankedTable

lemma Assoc.erase_of_not_mem {α : Type} {m : Assoc α} {name : String} (h : name ∉ m.names) :
    m.erase name = m :=
  List.filter_eq_self.mpr fun _ he =>
    decide_eq_true fun heq => h (heq ▸ List.mem_map_of_mem he)

namespace RemoteTable

variable {table : RemoteTable} {partition member : String} {attrs : Attributes}

/-- The attributes of an item, its key attributes first. -/
def listed (table : RemoteTable) (key : ItemKey) (attrs : Attributes) : Attributes :=
  (table.partitionName, .text key.partition) :: (table.memberName, .text key.member) :: attrs

/-- What is read from a record with both key attributes. -/
lemma readItem_entries (key : ItemKey) {entries : Attributes}
    (hpartition : entries.get? table.partitionName = some (.text key.partition))
    (hmember : Assoc.get? (entries.erase table.partitionName) table.memberName =
      some (.text key.member)) :
    table.readItem (attributesToWire entries) =
      .ok ⟨key, Assoc.erase (entries.erase table.partitionName) table.memberName⟩ := by
  have hentries : attributesOfWire (attributesToWire entries) = .ok entries :=
    Value.entriesOfWire_entriesToWire entries
  rw [readItem, hentries, ok_bind, hpartition]
  dsimp only
  rw [hmember]
  rfl

variable (hapart : table.partitionName ≠ table.memberName)
  (hpartition : table.partitionName ∉ attrs.names) (hmember : table.memberName ∉ attrs.names)

include hapart hpartition hmember

lemma erase_listed (key : ItemKey) :
    (table.listed key attrs).erase table.partitionName =
        (table.memberName, .text key.member) :: attrs ∧
      Assoc.erase ((table.listed key attrs).erase table.partitionName) table.memberName =
        attrs := by
  have hfirst : (table.listed key attrs).erase table.partitionName =
      (table.memberName, .text key.member) :: attrs := by
    have hmore : Assoc.erase attrs table.partitionName = attrs := Assoc.erase_of_not_mem hpartition
    rw [listed, Assoc.erase, List.filter_cons_of_neg (by simp),
      List.filter_cons_of_pos (by simpa using Ne.symm hapart)]
    exact congrArg _ hmore
  refine ⟨hfirst, ?_⟩
  rw [hfirst, Assoc.erase, List.filter_cons_of_neg (by simp)]
  exact Assoc.erase_of_not_mem hmember

/-- An item is read back from the record of its key attributes and the others. -/
theorem readItem_listed (key : ItemKey) :
    table.readItem (attributesToWire (table.listed key attrs)) = .ok ⟨key, attrs⟩ := by
  obtain ⟨hfirst, hboth⟩ := erase_listed hapart hpartition hmember key
  have hread : table.readItem (attributesToWire (table.listed key attrs)) = _ :=
    readItem_entries key (if_pos rfl) (by rw [hfirst]; exact if_pos rfl)
  rw [hread, hboth]

/-- Also if they come in another order. -/
theorem readItem_perm (hnodup : attrs.names.Nodup) {key : ItemKey} {entries : Attributes}
    (hentries : entries.Perm (table.listed key attrs)) :
    ∃ others : Attributes, others.Perm attrs ∧
      table.readItem (attributesToWire entries) = .ok ⟨key, others⟩ := by
  obtain ⟨hfirst, hboth⟩ := erase_listed hapart hpartition hmember key
  have hlisted : (table.listed key attrs).names.Nodup := by
    refine List.nodup_cons.mpr ⟨?_, List.nodup_cons.mpr ⟨hmember, hnodup⟩⟩
    intro h
    rcases List.mem_cons.mp h with h | h
    · exact hapart h
    · exact hpartition h
  have hnames : entries.names.Nodup := (hentries.map Prod.fst).nodup_iff.mpr hlisted
  have herased : (entries.erase table.partitionName).Perm
      ((table.memberName, .text key.member) :: attrs) := hfirst ▸ hentries.filter _
  have hrest : (entries.erase table.partitionName).names.Nodup :=
    hnames.sublist (List.filter_sublist.map _)
  refine ⟨Assoc.erase (entries.erase table.partitionName) table.memberName, ?_,
    readItem_entries key ?_ ?_⟩
  · exact hboth ▸ (hentries.filter _).filter _
  · exact (Assoc.get?_eq_some_iff hnames).mpr (hentries.mem_iff.mpr (List.mem_cons_self ..))
  · exact (Assoc.get?_eq_some_iff hrest).mpr (herased.mem_iff.mpr (List.mem_cons_self ..))

end RemoteTable

/-! ## The wire -/

open Value

/-- **Values and items come back from the wire.**  Of all trees only those are accepted whose nodes
have one field each, named by a tag; a tree of records whose payloads fit their tags is written back
in its normal form if it is accepted, and refused by an error of the store otherwise. -/
theorem wire_round_trip :
    (∀ value : Value, ofWire value.toWire = .ok value) ∧
    (∀ (tree : Tree) (value : Value), ofWire tree = .ok value → tree.IsTagged) ∧
    (∀ tree : Tree, tree.IsWire →
      ((∃ value, ofWire tree = .ok value) ↔ tree.IsTagged) ∧
      (∀ value, ofWire tree = .ok value → value.toWire = tree.normal) ∧
      (¬tree.IsTagged → ∃ fault, ofWire tree = .error (.store fault))) ∧
    ∀ (table : RemoteTable) (key : ItemKey) (attrs : Attributes),
      table.partitionName ≠ table.memberName → table.partitionName ∉ attrs.names →
        table.memberName ∉ attrs.names →
          table.readItem (attributesToWire (table.listed key attrs)) = .ok ⟨key, attrs⟩ ∧
          (attrs.names.Nodup → ∀ entries : Attributes, entries.Perm (table.listed key attrs) →
            ∃ others : Attributes, others.Perm attrs ∧
              table.readItem (attributesToWire entries) = .ok ⟨key, others⟩) := by
  refine ⟨ofWire_toWire, fun _ _ => isTagged_of_ofWire, fun tree htree => ?_,
    fun table key attrs hapart hpartition hmember => ?_⟩
  · rcases ofWire_isWire htree with ⟨htagged, value, hvalue, hnormal⟩ | ⟨htagged, fault, hfault⟩
    · refine ⟨⟨fun _ => htagged, fun _ => ⟨value, hvalue⟩⟩, fun other hother => ?_,
        fun h => absurd htagged h⟩
      obtain rfl : value = other := Except.ok.inj (hvalue.symm.trans hother)
      exact hnormal
    · refine ⟨⟨fun ⟨_, h⟩ => isTagged_of_ofWire h, fun h => absurd h htagged⟩, fun value hvalue => ?_,
        fun _ => ⟨fault, hfault⟩⟩
      exact absurd (isTagged_of_ofWire hvalue) htagged
  · exact ⟨RemoteTable.readItem_listed hapart hpartition hmember key,
      fun hnodup _ => RemoteTable.readItem_perm hapart hpartition hmember hnodup⟩

/-- A set deep inside comes back sorted, a list deep inside is refused, and an item comes back. -/
theorem wire_round_trip_nested :
    (∃ value, ofWire (.record [("M", .record [("s", .record
        [("SS", .list [.text "b", .text "a", .text "b"])])])]) = .ok value ∧
      value.toWire = .record [("M", .record [("s", .record
        [("SS", .list [.text "a", .text "b"])])])]) ∧
    (∃ fault, ofWire (.record [("M", .record [("l", .record [("L", .list [])])])]) =
      .error (.store fault)) ∧
    RemoteTable.readItem ⟨"t", "pk", "sk", "lsi_", true⟩ (.record [("n", .record [("NULL", .bool true)]),
      ("sk", .record [("S", .text "a")]), ("pk", .record [("S", .text "k")])]) =
        .ok ⟨⟨"k", "a"⟩, [("n", .null)]⟩ := by
  obtain ⟨-, -, haccepted, hitem⟩ := wire_round_trip
  have hmap : ∀ fields, Tree.AreWire fields → (Tree.record [("M", .record fields)]).IsWire := by
    intro fields hfields kind hkind
    obtain rfl : Kind.map = kind := Kind.tag_injective hkind
    exact hfields
  refine ⟨?_, ?_, ?_⟩
  · have hset : (Tree.record [("SS", .list [.text "b", .text "a", .text "b"])]).IsWire := by
      intro kind hkind
      obtain rfl : Kind.textSet = kind := Kind.tag_injective hkind
      exact ⟨["b", "a", "b"], rfl⟩
    obtain ⟨hread, hnormal, -⟩ := haccepted _ (hmap [("s", _)] ⟨hset, trivial⟩)
    obtain ⟨value, hvalue⟩ := hread.mpr ⟨.map, rfl, fun _ => ⟨⟨.textSet, rfl, nofun⟩, trivial⟩⟩
    have hsorted : OrderedSet.sortedMembers ["b", "a", "b"] = ["a", "b"] := by
      rw [← OrderedSet.elems_ofList]
      decide
    refine ⟨value, hvalue, (hnormal value hvalue).trans ?_⟩
    change Tree.record [("M", .record [("s", .record [("SS",
      .list ((OrderedSet.sortedMembers ["b", "a", "b"]).map .text))])])] = _
    rw [hsorted]
    rfl
  · have hlist : (Tree.record [("L", .list [])]).IsWire := by
      intro kind hkind
      cases kind <;> exact absurd hkind (by decide)
    refine (haccepted _ (hmap [("l", _)] ⟨hlist, trivial⟩)).2.2 ?_
    rintro ⟨kind, hkind, hfields⟩
    obtain rfl : Kind.map = kind := Kind.tag_injective hkind
    obtain ⟨⟨kind, hkind, -⟩, -⟩ := hfields rfl
    cases kind <;> exact absurd hkind (by decide)
  · obtain ⟨-, hperm⟩ := hitem ⟨"t", "pk", "sk", "lsi_", true⟩ ⟨"k", "a"⟩ [("n", .null)] (by decide)
      (by decide) (by decide)
    obtain ⟨others, hothers, hread⟩ := hperm (by decide)
      [("n", .null), ("sk", .text "a"), ("pk", .text "k")]
      (List.reverse_perm (RemoteTable.listed ⟨"t", "pk", "sk", "lsi_", true⟩ ⟨"k", "a"⟩
        [("n", .null)]))
    obtain rfl := List.perm_singleton.mp hothers
    exact hread

end RankedTable

import RankedTable.Proofs.Command.Alike
import RankedTable.Proofs.Command.Sharing

/-!
# Geo indexes in tables that share the locations

What a geo index knows of a member is the value of its location attribute.  So positions are read
from these values alone, and in tables that have the same locations, whatever else they hold,
searches find the same members.

* `GeoIndex.locationFrom`, `GeoIndex.locatedAfter` — positions, from the values of an attribute.
* **`GeoIndex.run_positionsAfter`** — positions in a client's table are read from its values.
* `Sharing.alike_positions`, **`Sharing.alike_radius`** — reads.
* `Sharing.alike_addLocations` — writes of locations.
-/

namespace RankedTable

open Program (Alike Still alike_done)

/-! ## Positions -/

namespace GeoIndex

/-- The position that the value of an attribute stands for. -/
def locationFrom (geometry : Geometry) : Option Value → Except Error (Option Location)
  | some (.number digits) =>
    match (Decimal.parse? digits).map Decimal.truncate with
    | some (.ok n) => .ok (some (geometry.centre n))
    | some (.error e) => .error (.noWholePart e)
    | none => .error .notADecimal
  | _ => .ok none

/-- The positions of members after those found before, from the values of their attributes. -/
def locatedAfter (geometry : Geometry) (value : String → Option Value) :
    Assoc Location → List String → Except Error (Assoc Location)
  | found, [] => .ok found
  | found, member :: rest => do
    match ← locationFrom geometry (value member) with
    | some location => locatedAfter geometry value (Assoc.insert found member location) rest
    | none => locatedAfter geometry value found rest

variable {client : Client} {geometry : Geometry}

lemma locationOf_eq (item : Item) : locationOf client geometry item =
    locationFrom geometry (item.get? client.settings.locationName) := rfl

/-- What looks the same has the same position. -/
lemma locationOf_congr {a b : Item}
    (h : a.view client.settings.locationName = b.view client.settings.locationName) :
    locationOf client geometry a = locationOf client geometry b := by
  rw [locationOf_eq, locationOf_eq, (Item.view_eq_iff.mp h).2]

/-- **Positions in a client's table are told by the values of the location attribute**: an item
without one is like no item. -/
theorem run_positionsAfter {table : Table} (h : ClientTable client.settings table) (key : String)
    (found : Assoc Location) (members : List String) :
    (positionsAfter client geometry key found members).run client.settings.layout.store table =
      (locatedAfter geometry
        (fun member => table.attribute? ⟨key, member⟩ client.settings.locationName) found members,
        table) := by
  induction members generalizing found with
  | nil => rfl
  | cons member rest ih =>
      obtain ⟨item, hitem, hget⟩ := h.store_get ⟨key, member⟩ client.settings.locationName
      rw [positionsAfter, Program.run_bind, Program.run_withSoFar, Program.run_perform, hget,
        locatedAfter, ← hitem]
      cases item with
      | none => exact ih found
      | some item =>
          change ((Program.lift (locationOf client geometry item) >>= _).run _ table) = _
          rw [locationOf_eq, Option.bind_some]
          rcases locationFrom geometry (item.get? client.settings.locationName) with
            e | (_ | location)
          · rfl
          · exact ih found
          · exact ih _

end GeoIndex

/-! ## Tables that share the locations -/

namespace Sharing

variable {settings : Settings} {s t : Table} {m n : ℕ}
  (h : Sharing settings settings.locationName s t) (geometry : Geometry)

include h

lemma alike_positions (key : String) (members : List String) :
    settings.Alike (Still s t) (GeoIndex.positions ⟨settings, m⟩ geometry key members)
      (GeoIndex.positions ⟨settings, n⟩ geometry key members) s t := by
  have hone : ClientTable (Client.mk settings m).settings s := h.one
  have hother : ClientTable (Client.mk settings n).settings t := h.other
  refine Program.alike_of_run (GeoIndex.run_positionsAfter hone key [] members)
    ((GeoIndex.run_positionsAfter hother key [] members).trans ?_) ⟨rfl, rfl⟩
  simp only [h.agree _]

lemma alike_addLocations (hnames : settings.NamesApart) (key : String)
    (members : Assoc Location) :
    settings.Alike (Sharing settings settings.locationName)
      (GeoIndex.add ⟨settings, m⟩ geometry key members)
      (GeoIndex.add ⟨settings, n⟩ geometry key members) s t := by
  refine h.alike_writes hnames.location (GeoIndex.calls_add (fun key cell => ?_) key members)
  exact ⟨.location key [] cell, .update key _ fun _ hmem => absurd hmem List.not_mem_nil⟩

section Search

variable (hs : s.pageBound ≤ m) (ht : t.pageBound ≤ n)

include hs ht

/-- **Discs are searched alike**: a search looks at nothing but the names and the locations of
items. -/
theorem alike_radius (key : String) (disc : GeoIndex.Disc) :
    settings.Alike (Still s t) (GeoIndex.radius ⟨settings, m⟩ geometry key disc)
      (GeoIndex.radius ⟨settings, n⟩ geometry key disc) s t := by
  refine GeoIndex.alike_radius (fun interval found _ => ?_) rfl
  refine h.alike_fold rfl (List.mem_cons_of_mem _ (List.mem_cons_self ..)) hs ht rfl
    (fun acc a b hview => ?_) found
  rw [GeoIndex.Disc.visit, GeoIndex.Disc.visit, GeoIndex.locationOf_congr hview,
    (Item.view_eq_iff.mp hview).1]

end Search

end Sharing

end RankedTable

import RankedTable.Proofs.SortedSet.Admission
import RankedTable.Proofs.SortedSet.Removal
import RankedTable.Proofs.Store.Batches
import RankedTable.Proofs.Value.Whole

/-!
# Batches of members

An addition writes scores, an addition of positions writes cells, and a removal deletes members.
Each is a batch of writes of one kind, and fails in no other way than by a failure of the store: a
write that misses its conditions is passed over.  So a failure finds done just what a shorter batch
would have done.

* `IsEncodable` — locations in cells whose numbers fit a word; `isEncodable_sphere_iff` — on the
  sphere all that have a cell.
* `locationWrite`, `isBatch_locationWrite` — the writes of an addition of positions.
* `StopsAtFailure` — a failure leaves what a shorter batch does; **`stopsAtFailure`**.
* **`batches_stop_at_failure`** — so it is with additions, removals and additions of positions.
-/

namespace RankedTable

variable {settings : Settings} {geometry : Geometry} {journal : List Call} {table : Table}

/-! ## Locations -/

/-- Whether a location is in a cell whose number fits a word. -/
def IsEncodable (geometry : Geometry) (location : Location) : Prop :=
  ∃ cell < 2 ^ 64, geometry.cellId location = .ok cell

/-- On the sphere the numbers of cells fit a word. -/
lemma isEncodable_sphere_iff {location : Location} :
    IsEncodable .sphere location ↔ ∃ cell, Geometry.sphere.cellId location = .ok cell := by
  refine ⟨fun ⟨cell, _, h⟩ => ⟨cell, h⟩, fun ⟨cell, h⟩ => ⟨cell, ?_, h⟩⟩
  have hword : ∀ face i j, (Cell.ofIndices face i j).id < 2 ^ 64 := by
    intro face i j
    rw [Cell.ofIndices, Cell.ofNumber]
    dsimp only
    omega
  change (Cell.ofLocation location).map Cell.id = .ok cell at h
  rw [Cell.ofLocation] at h
  cases hpoint : Point.ofLocation location with
  | error e =>
      rw [hpoint] at h
      cases h
  | ok p =>
      rw [hpoint] at h
      change (Cell.ofPoint p).map Cell.id = .ok cell at h
      rw [Cell.ofPoint] at h
      cases hface : FacePoint.ofPoint p with
      | error e =>
          rw [hface] at h
          cases h
      | ok q =>
          rw [hface] at h
          rw [← Except.ok.inj h]
          exact hword _ _ _

/-- The number of the cell at a location; zero where there is none. -/
def cellNumber (geometry : Geometry) (location : Location) : ℕ :=
  (geometry.cellId location).toOption.getD 0

lemma IsEncodable.cellId_eq {location : Location} (h : IsEncodable geometry location) :
    geometry.cellId location = .ok (cellNumber geometry location) ∧
      cellNumber geometry location < 2 ^ 64 := by
  obtain ⟨cell, hword, hcell⟩ := h
  have hnumber : cellNumber geometry location = cell := by
    rw [cellNumber, hcell]
    rfl
  rw [hnumber]
  exact ⟨hcell, hword⟩

/-! ## Writes -/

/-- The write of a position. -/
def locationWrite (settings : Settings) (geometry : Geometry) (key : String)
    (e : String × Location) : Write :=
  .update ⟨key, e.1⟩ [(settings.locationName, .ofInt (cellNumber geometry e.2))] []

lemma obeys_locationWrite (h : ClientTable settings table) (key : String) {e : String × Location}
    (he : IsEncodable geometry e.2) :
    (locationWrite settings geometry key e).Obeys settings.layout table fun _ => true := by
  refine Write.obeys_of_ok rfl ?_
  obtain ⟨text, htext, -⟩ := Value.sortText_ofInt (n := cellNumber geometry e.2) he.cellId_eq.2
  refine (h.reply_update ⟨key, e.1⟩ settings.locationName rfl []).trans ?_
  rw [htext]
  split_ifs <;> rfl

/-- Positions can be written as a batch, in which no condition can be missed. -/
lemma isBatch_locationWrite (key : String) {members : List (String × Location)}
    (hlocations : ∀ e ∈ members, IsEncodable geometry e.2) :
    IsBatch settings.layout (ClientTable settings) .update (fun _ => true) false
      (members.map (locationWrite settings geometry key)) where
  kept := List.forall_mem_map.mpr fun _ _ _ h => h.write (.location _ _ _)
  obeys := List.forall_mem_map.mpr fun e he _ h => obeys_locationWrite h key (hlocations e he)
  misses := .inr fun _ => rfl
  calls := List.forall_mem_map.mpr fun _ _ => rfl

/-- An addition of positions that have cells makes a write for each. -/
lemma map_locationWrite (client : Client) (key : String) {members : Assoc Location}
    (hlocations : ∀ x ∈ members, IsEncodable geometry x.2) :
    members.map (fun (member, location) => (do
      let cell ← Program.lift (geometry.cellId location)
      Program.perform
        (.update ⟨key, member⟩ [(client.settings.locationName, .ofInt cell)] []) : Program Unit)) =
      (members.map (locationWrite client.settings geometry key)).map Write.program := by
  rw [List.map_map]
  refine List.map_congr_left fun x hx => ?_
  dsimp only
  rw [(hlocations x hx).cellId_eq.1]
  rfl

/-! ## Batches -/

/-- A command on a batch of members writes them in turn, each if what there is of it then admits
it, and is answered how many it has written.  It makes a call for each member.  If the store fails
one of them before it is made, no other comes after it: what is done is what the command does on the
members before, and the failure tells how many of these were written. -/
structure StopsAtFailure {ι : Type} (settings : Settings) (geometry : Geometry) (table : Table)
    (command : List ι → Command) (write : ι → Write) (method : Call.Method) (admits : Bool → Bool)
    (batch : List ι) : Prop where
  answered : ∀ n,
    (Connection.embedded settings.layout table).runCommand settings geometry
        (command (batch.take n)) =
      (.ok (.count (settings.layout.applied admits ((batch.take n).map write) table).1),
        .embedded settings.layout
          (settings.layout.applied admits ((batch.take n).map write) table).2)
  spared : ∀ outage, (∀ k ≤ batch.length, outage method k = none) →
    ((command batch).program ⟨settings, table.pageBound⟩ geometry).run
        (settings.layout.store.failing outage) ([], table) =
      (.ok (.count (settings.layout.applied admits (batch.map write) table).1),
        ((batch.map write).map Write.call).reverse,
        (settings.layout.applied admits (batch.map write) table).2)
  stopped : ∀ outage k fault soFar,
    outage.Strikes method ((batch.map write).map Write.call) k (.store fault soFar) →
    ((command batch).program ⟨settings, table.pageBound⟩ geometry).run
        (settings.layout.store.failing outage) ([], table) =
      (.error (.store fault (some
          (.count (settings.layout.applied admits ((batch.take (k - 1)).map write) table).1))),
        (((batch.map write).map Write.call).take k).reverse,
        (settings.layout.applied admits ((batch.take (k - 1)).map write) table).2)

/-- **A command that makes a batch of writes stops at a failure**, if clients' writes can be made as
one. -/
theorem stopsAtFailure {ι : Type} {command : List ι → Command} {write : ι → Write}
    {method : Call.Method} {admits : Bool → Bool} {allowMisses : Bool} {batch : List ι}
    (h : ClientTable settings table)
    (hprogram : ∀ part, (∀ e ∈ part, e ∈ batch) →
      (command part).program ⟨settings, table.pageBound⟩ geometry =
        .count <$> Program.countWrites allowMisses 0 ((part.map write).map Write.program))
    (hbatch : IsBatch settings.layout (ClientTable settings) method admits allowMisses
      (batch.map write)) :
    StopsAtFailure settings geometry table command write method admits batch := by
  have hnone : callCount method [] = 0 := rfl
  refine ⟨fun n => ?_, fun outage hspared => ?_, fun outage k fault soFar hstrikes => ?_⟩
  · have hpart : ∀ e ∈ batch.take n, e ∈ batch := fun _ => List.mem_of_mem_take
    have hfront := hbatch.mono fun _ => List.mem_of_mem_take (i := n)
    rw [← List.map_take] at hfront
    refine runCommand_of_run ?_
    rw [hprogram _ hpart]
    exact Program.run_map _ (hfront.run_store h)
  · have hrun := hbatch.run h outage [] (fun n hn => hspared n (by
      rw [List.length_map] at hn
      omega)) 0
    rw [zero_add, List.append_nil] at hrun
    rw [hprogram batch fun _ he => he, Program.run_map _ hrun]
  · have hstopped := hbatch.run_strikes h rfl hstrikes hnone
    rw [hprogram batch fun _ he => he, Program.run_map_result _ hstopped, List.map_take,
      List.append_nil]
    rfl

/-- **Batches stop at the first failure of the store**, in every table reached: an addition under
any flags, if its scores are numbers, a removal, also of names that come twice, and an addition of
positions that have cells. -/
theorem batches_stop_at_failure (h : Reached settings geometry journal table) (key : String) :
    (∀ members flags, (∀ e ∈ members, e.2.isNaN = false) →
      StopsAtFailure settings geometry table (.add key · flags) (scoreWrite settings key flags)
        .update flags.admits members) ∧
    (∀ members, StopsAtFailure settings geometry table (.remove key) (removal key) .delete id
      members) ∧
    ∀ members, (∀ e ∈ members, IsEncodable geometry e.2) →
      StopsAtFailure settings geometry table (.addLocations key)
        (locationWrite settings geometry key) .update (fun _ => true) members := by
  refine ⟨fun members flags hscores => ?_, fun members => ?_, fun members hlocations => ?_⟩
  · refine stopsAtFailure h.clientTable (fun part hpart => ?_) (isBatch_scoreWrite key flags hscores)
    rw [Command.program, add_eq _ _ _ fun e he => hscores e (hpart e he)]
  · refine stopsAtFailure h.clientTable (fun part _ => ?_) (isBatch_removal key members)
    rw [Command.program, SortedSet.remove_eq]
  · refine stopsAtFailure h.clientTable (fun part hpart => ?_)
      (isBatch_locationWrite key hlocations)
    rw [Command.program, GeoIndex.add]
    exact congrArg (fun writes => Answer.count <$> Program.countWrites false 0 writes)
      (map_locationWrite _ key fun e he => hlocations e (hpart e he))

/-- The third write of a batch fails: of an addition of new members, one of which is there, of a
removal of a member that is named twice, and of an addition of positions. -/
theorem batches_stop_at_failure_third :
    ∃ (settings : Settings) (journal : List Call) (table : Table) (client : Client)
      (flags : AddFlags),
      Reached settings oneCell journal table ∧ table.items.map (·.key.member) = ["a"] ∧
        client = ⟨settings, table.pageBound⟩ ∧ flags.onlyNew = true ∧
        (∃ made left, made.length = 3 ∧ left.items.map (·.key.member) = ["a", "b"] ∧
          ((Command.add "k" [("a", Float.ofBits 0xfff0000000000000), ("b", Float.ofBits 0),
              ("c", Float.ofBits 0)] flags).program client oneCell).run
              (settings.layout.store.failing (.single .update 3 (.store .unavailable)))
              ([], table) =
            (.error (.store .unavailable (some (.count 1))), made, left)) ∧
        (∃ made left, made.length = 3 ∧ left.items = [] ∧
          ((Command.remove "k" ["a", "b", "a", "c"]).program client oneCell).run
              (settings.layout.store.failing (.single .delete 3 (.store .unavailable)))
              ([], table) =
            (.error (.store .unavailable (some (.count 1))), made, left)) ∧
        ∃ made left, made.length = 3 ∧ left.items.map (·.key.member) = ["a", "b"] ∧
          ((Command.addLocations "k" [("a", ⟨0, 0⟩), ("b", ⟨0, 0⟩), ("c", ⟨0, 0⟩)]).program client
              oneCell).run
              (settings.layout.store.failing (.single .update 3 (.store .unavailable)))
              ([], table) =
            (.error (.store .unavailable (some (.count 2))), made, left) := by
  have hreached : Reached (Installation.mk "ranked" "").defaults oneCell
      [.update ⟨"k", "a"⟩ [("sk2", .text "2")] []]
      { items := [⟨⟨"k", "a"⟩, [("sk2", .text "2")]⟩], index := [⟨⟨"k", "a"⟩, "sk2", "2"⟩] } :=
    .command .empty (.add "k" [("a", Float.ofBits 0)] {}) rfl
  have hnumbers : ∀ e ∈ [("a", Float.ofBits 0xfff0000000000000), ("b", Float.ofBits 0),
      ("c", Float.ofBits 0)], e.2.isNaN = false := by
    decide
  have hcells : ∀ e ∈ [("a", (⟨0, 0⟩ : Location)), ("b", ⟨0, 0⟩), ("c", ⟨0, 0⟩)],
      IsEncodable oneCell e.2 :=
    fun _ _ => ⟨1, by decide, rfl⟩
  obtain ⟨hadd, hremove, hplace⟩ := batches_stop_at_failure hreached "k"
  have hthird : ∀ (method : Call.Method) {calls : List Call}, 3 ≤ calls.length →
      (Outage.single method 3 (.store .unavailable)).Strikes method calls 3 (.store .unavailable) :=
    fun method _ hmade => Outage.strikes_single method (by decide) hmade _
  exact ⟨_, _, _, _, { onlyNew := true }, hreached, rfl, rfl, rfl,
    ⟨_, _, rfl, rfl, (hadd _ _ hnumbers).stopped _ 3 _ _ (hthird _ (by decide))⟩,
    ⟨_, _, rfl, rfl, (hremove _).stopped _ 3 _ _ (hthird _ (by decide))⟩,
    ⟨_, _, rfl, rfl, (hplace _ hcells).stopped _ 3 _ _ (hthird _ (by decide))⟩⟩

end RankedTable

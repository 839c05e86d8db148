import RankedTable.Proofs.Command.StoppedBatches

/-!
# Input that cannot be written

Scores that are no numbers and locations without a cell cannot be written.  What commands make of
them depends on when they look at them.  An addition of scores encodes all of them before it writes
the first, and a range encodes its bounds before it is asked for: they are refused before a call is
made.  An addition of positions computes each cell when it comes to the member: it has written those
before by then.

* `Refused` — a command that is refused before it makes a call; `Refused.run`.
* `refused_add`, `refused_range` — additions and ranges of what is no number.
* `Geometry.NumbersFit` — cells whose numbers fit a word; `numbersFit_sphere`.
* **`addLocations_stops`** — an addition of positions stops at the first location without a cell.
* **`refused_input`** — what commands make of such input, in every table reached.
-/

namespace RankedTable

variable {settings : Settings} {geometry : Geometry} {journal : List Call} {table : Table}
  {client : Client}

/-! ## Refused before a call -/

/-- A command is refused before it makes a call. -/
def Refused (client : Client) (geometry : Geometry) (command : Command) (e : Error) : Prop :=
  command.program client geometry = .done (.error e)

/-- Whatever the store is, a command that is refused leaves it alone. -/
lemma Refused.run {command : Command} {e : Error} (h : Refused client geometry command e) {σ : Type}
    (store : Store σ) (state : σ) :
    (command.program client geometry).run store state = (.error e, state) := by
  rw [h, Program.run_done]

/-- Scores are encoded, unless one of them is no number. -/
lemma encodeAll_nan {members : Assoc Float} (h : ∃ e ∈ members, e.2.isNaN = true) :
    SortedSet.encodeAll members = .error (.score .notANumber) := by
  obtain ⟨e, hfirst⟩ : ∃ e, members.find? (·.2.isNaN) = some e :=
    Option.isSome_iff_exists.mp (List.find?_isSome.mpr h)
  obtain ⟨hnan, front, back, hsplit, hfront⟩ := List.find?_eq_some_iff_append.mp hfirst
  refine mapM_eq_error.mpr ⟨front, e, back, hsplit, fun b hb => ?_, ?_⟩
  · have hnumber : b.2.isNaN = false := by simpa using hfront b hb
    obtain ⟨t, ht, -⟩ := Score.encode_codes hnumber
    dsimp only
    rw [ht]
    exact ⟨_, rfl⟩
  · dsimp only
    rw [Score.encode_nan hnan]
    rfl

/-- **An addition with a score that is no number is refused**, wherever in the batch it is. -/
theorem refused_add (client : Client) (geometry : Geometry) (key : String) {members : Assoc Float}
    (flags : AddFlags) (h : ∃ e ∈ members, e.2.isNaN = true) :
    Refused client geometry (.add key members flags) (.score .notANumber) := by
  rw [Refused, Command.program, SortedSet.add, encodeAll_nan h]
  rfl

/-- A bound that is no number has no encoding. -/
lemma scoreBound_error {bound : Option Float} (h : ¬IsBound bound) :
    SortedSet.scoreBound bound = .error (.score .notANumber) := by
  obtain ⟨x, rfl, hx⟩ : ∃ x, bound = some x ∧ x.isNaN = true := by simpa [IsBound] using h
  rw [SortedSet.scoreBound, Option.mapM_some, Score.encode_nan hx]
  rfl

/-- A range with a bound that is no number has no request. -/
lemma scoreRange_error {low high : Option Float} (h : ¬(IsBound low ∧ IsBound high))
    (client : Client) (key : String) (forward : Bool) :
    SortedSet.scoreRange client key low high forward = .error (.score .notANumber) := by
  by_cases hlow : IsBound low
  · obtain ⟨text, htext, -⟩ := SortedSet.scoreBound_ok hlow
    rw [SortedSet.scoreRange, htext, scoreBound_error fun hhigh => h ⟨hlow, hhigh⟩]
    rfl
  · rw [SortedSet.scoreRange, scoreBound_error hlow]
    rfl

/-- **Ranges with a bound that is no number are refused**, whether they are listed, counted or
removed. -/
theorem refused_range (client : Client) (geometry : Geometry) (key : String)
    {low high : Option Float} (h : ¬(IsBound low ∧ IsBound high)) :
    (∀ offset count forward, Refused client geometry
      (.rangeByScore key low high offset count forward) (.score .notANumber)) ∧
    Refused client geometry (.countByScore key low high) (.score .notANumber) ∧
    Refused client geometry (.removeByScore key low high) (.score .notANumber) := by
  have hrange := scoreRange_error h client key
  refine ⟨fun offset count forward => ?_, ?_, ?_⟩
  · rw [Refused, Command.program, SortedSet.rangeByScore, hrange]
    rfl
  · rw [Refused, Command.program, SortedSet.countByScore, hrange]
    rfl
  · rw [Refused, Command.program, SortedSet.removeByScore, SortedSet.rangeByScore, hrange]
    rfl

/-! ## Locations without a cell -/

/-- Whether the numbers of all cells fit a word. -/
def Geometry.NumbersFit (geometry : Geometry) : Prop :=
  ∀ location cell, geometry.cellId location = .ok cell → cell < 2 ^ 64

lemma numbersFit_sphere : Geometry.sphere.NumbersFit := by
  intro location cell hcell
  obtain ⟨cell', hword, hcell'⟩ := isEncodable_sphere_iff.mpr ⟨cell, hcell⟩
  rw [hcell] at hcell'
  exact Except.ok.inj hcell' ▸ hword

/-- Writes that every item admits are all made. -/
lemma applied_all (layout : Layout) (writes : List Write) (table : Table) :
    (layout.applied (fun _ => true) writes table).1 = writes.length := by
  induction writes generalizing table with
  | nil => rfl
  | cons write rest ih =>
      rw [Layout.applied, if_pos rfl, List.length_cons, ← ih]

/-- The first location of a batch that has no cell; those before have one. -/
lemma exists_first_without_cell (hfit : geometry.NumbersFit) {members : Assoc Location}
    (hnone : ∃ x ∈ members, ∃ e, geometry.cellId x.2 = .error e) :
    ∃ front x back e, members = front ++ x :: back ∧ geometry.cellId x.2 = .error e ∧
      ∀ y ∈ front, IsEncodable geometry y.2 := by
  obtain ⟨y, hy, e, he⟩ := hnone
  obtain ⟨x, hfirst⟩ : ∃ x, members.find? (fun x => !(geometry.cellId x.2).isOk) = some x :=
    Option.isSome_iff_exists.mp (List.find?_isSome.mpr ⟨y, hy, by rw [he]; rfl⟩)
  obtain ⟨hx, front, back, hsplit, hfront⟩ := List.find?_eq_some_iff_append.mp hfirst
  cases hcell : geometry.cellId x.2 with
  | ok cell =>
      rw [hcell] at hx
      cases hx
  | error e =>
      refine ⟨front, x, back, e, hsplit, hcell, fun y hy => ?_⟩
      cases hcell : geometry.cellId y.2 with
      | ok cell => exact ⟨cell, hfit _ _ hcell, hcell⟩
      | error e =>
          have hok := hfront y hy
          rw [hcell] at hok
          cases hok

/-- What an addition of positions does up to a location without a cell. -/
lemma run_addLocations_stopped (h : ClientTable client.settings table) (key : String)
    {front : Assoc Location} (hfront : ∀ y ∈ front, IsEncodable geometry y.2)
    {x : String × Location} {e : Error} (hx : geometry.cellId x.2 = .error e)
    (back : Assoc Location) :
    ∃ left, (front = [] → left = table) ∧
      (GeoIndex.add client geometry key front).run client.settings.layout.store table =
        (.ok front.length, left) ∧
      (GeoIndex.add client geometry key (front ++ x :: back)).run client.settings.layout.store
          table =
        (.error (e.withSoFar (.count front.length)), left) := by
  have hrun := (isBatch_locationWrite key hfront).run_store h
  rw [applied_all, List.length_map, ← map_locationWrite _ _ hfront] at hrun
  refine ⟨_, ?_, hrun, ?_⟩
  · rintro rfl
    rfl
  · rw [GeoIndex.add, List.map_append, Program.countWrites_append, Program.run_bind, hrun,
      List.map_cons]
    dsimp only
    rw [hx]
    rfl

/-- An addition of positions stops at a location without a cell: it fails as the cell does, and what
it leaves is what an addition of the members before leaves. -/
structure StopsWithoutCell (settings : Settings) (geometry : Geometry) (table : Table)
    (key : String) (members front : Assoc Location) (e : Error) (left : Table) : Prop where
  first : ∃ x back, members = front ++ x :: back ∧ geometry.cellId x.2 = .error e
  untouched : front = [] → left = table
  before : (Connection.embedded settings.layout table).runCommand settings geometry
      (.addLocations key front) =
    (.ok (.count front.length), .embedded settings.layout left)
  stopped : (Connection.embedded settings.layout table).runCommand settings geometry
      (.addLocations key members) =
    (.error (e.withSoFar (.count front.length)), .embedded settings.layout left)

/-- **An addition of positions stops at the first location without a cell.** -/
theorem addLocations_stops (h : ClientTable settings table) (hfit : geometry.NumbersFit)
    (key : String) {members : Assoc Location}
    (hnone : ∃ x ∈ members, ∃ e, geometry.cellId x.2 = .error e) :
    ∃ front e left, StopsWithoutCell settings geometry table key members front e left := by
  have htable : ClientTable (Client.mk settings table.pageBound).settings table := h
  obtain ⟨front, x, back, e, rfl, hx, hfront⟩ := exists_first_without_cell hfit hnone
  obtain ⟨left, hleft, hrun, hstopped⟩ := run_addLocations_stopped htable key hfront hx back
  exact ⟨front, e, left, ⟨x, back, rfl, hx⟩, hleft,
    runCommand_of_run (Program.run_map Answer.count hrun),
    runCommand_of_run (Program.run_map_result Answer.count hstopped)⟩

/-! ## What clients are answered -/

/-- **Input that cannot be written is refused**: scores and bounds that are no numbers before a call
is made, and locations without a cell when it is their turn, with just the members before them
written. -/
theorem refused_input (h : Reached settings geometry journal table) (hfit : geometry.NumbersFit)
    (key : String) :
    (∀ client members flags, (∃ e ∈ members, e.2.isNaN = true) →
      Refused client geometry (.add key members flags) (.score .notANumber)) ∧
    (∀ client low high, ¬(IsBound low ∧ IsBound high) →
      (∀ offset count forward, Refused client geometry
        (.rangeByScore key low high offset count forward) (.score .notANumber)) ∧
      Refused client geometry (.countByScore key low high) (.score .notANumber) ∧
      Refused client geometry (.removeByScore key low high) (.score .notANumber)) ∧
    ∀ members, (∃ x ∈ members, ∃ e, geometry.cellId x.2 = .error e) →
      ∃ front e left, StopsWithoutCell settings geometry table key members front e left :=
  ⟨fun client _ flags hnan => refused_add client geometry key flags hnan,
    fun client _ _ hbounds => refused_range client geometry key hbounds,
    fun _ hnone => addLocations_stops h.clientTable hfit key hnone⟩

/-- A globe with a single cell, in which no place is that has no latitude. -/
def oneCellOfNumbers : Geometry :=
  { oneCell with
    cellId := fun location => if location.lat.isNaN then .error .degenerate else .ok 1 }

lemma numbersFit_oneCellOfNumbers : oneCellOfNumbers.NumbersFit := by
  intro location cell hcell
  change (if location.lat.isNaN then Except.error Error.degenerate else .ok 1) = .ok cell at hcell
  split_ifs at hcell
  rw [← Except.ok.inj hcell]
  decide

/-- A score, a bound and a latitude that are no numbers; in the batches it is the second of three
members that has it, and the position of the first is written.  On the sphere an infinite latitude
has no cell. -/
theorem refused_input_second :
    ∃ (settings : Settings) (journal : List Call) (table : Table) (nan : Float),
      nan.isNaN = true ∧ Reached settings oneCellOfNumbers journal table ∧
        oneCellOfNumbers.NumbersFit ∧
        (Connection.embedded settings.layout table).runCommand settings oneCellOfNumbers
            (.add "k" [("a", Float.ofBits 0), ("b", nan), ("c", Float.ofBits 0)] {}) =
          (.error (.score .notANumber), .embedded settings.layout table) ∧
        Refused ⟨settings, table.pageBound⟩ oneCellOfNumbers (.removeByScore "k" none (some nan))
          (.score .notANumber) ∧
        (∃ front e left, front ≠ [] ∧ StopsWithoutCell settings oneCellOfNumbers table "k"
          [("a", ⟨0, 0⟩), ("b", ⟨nan, 0⟩), ("c", ⟨0, 0⟩)] front e left) ∧
        ∃ front e left, StopsWithoutCell settings .sphere {} "k"
          [("a", ⟨Float.ofBits 0x7ff0000000000000, 0⟩)] front e left := by
  have hreached : Reached (Installation.mk "ranked" "").defaults oneCellOfNumbers
      [.update ⟨"k", "a"⟩ [("sk2", .text "2")] []]
      { items := [⟨⟨"k", "a"⟩, [("sk2", .text "2")]⟩], index := [⟨⟨"k", "a"⟩, "sk2", "2"⟩] } :=
    .command .empty (.add "k" [("a", Float.ofBits 0)] {}) rfl
  obtain ⟨hadd, hrange, hplace⟩ := refused_input hreached numbersFit_oneCellOfNumbers "k"
  have hempty : Reached (Installation.mk "ranked" "").defaults .sphere [] {} := .empty
  obtain ⟨-, -, hsphere⟩ := refused_input hempty numbersFit_sphere "k"
  obtain ⟨front, e, left, hstops⟩ :=
    hplace [("a", ⟨0, 0⟩), ("b", ⟨Float.ofBits 0x7ff8000000000000, 0⟩), ("c", ⟨0, 0⟩)]
      ⟨_, List.mem_cons_of_mem _ (List.mem_cons_self ..), .degenerate, rfl⟩
  refine ⟨_, _, _, Float.ofBits 0x7ff8000000000000, by decide, hreached,
    numbersFit_oneCellOfNumbers, ?_, ?_, ⟨front, e, left, ?_, hstops⟩,
    hsphere _ ⟨_, List.mem_cons_self .., .infiniteAngle, rfl⟩⟩
  · exact runCommand_of_run
      ((hadd _ _ {} ⟨_, List.mem_cons_of_mem _ (List.mem_cons_self ..), by decide⟩).run _ _)
  · refine (hrange _ none (some _) fun hbounds => ?_).2.2
    have hnumber := hbounds.2 _ rfl
    revert hnumber
    decide
  · rintro rfl
    obtain ⟨x, back, hmembers, hx⟩ := hstops.first
    obtain ⟨rfl, -⟩ := List.cons.inj hmembers
    cases hx

/-- An addition of two positions, the second of which has no cell, has written the first. -/
theorem first_position_written :
    ∃ left, Reached (Installation.mk "ranked" "").defaults oneCellOfNumbers [] {} ∧
      (Connection.embedded (Installation.mk "ranked" "").defaults.layout {}).runCommand
          (Installation.mk "ranked" "").defaults oneCellOfNumbers
          (.addLocations "k" [("a", ⟨0, 0⟩), ("b", ⟨Float.ofBits 0x7ff8000000000000, 0⟩)]) =
        (.error .degenerate, .embedded (Installation.mk "ranked" "").defaults.layout left) ∧
      left.items = [⟨⟨"k", "a"⟩, [("sk3", .ofInt 1)]⟩] :=
  ⟨_, .empty, rfl, rfl⟩

end RankedTable

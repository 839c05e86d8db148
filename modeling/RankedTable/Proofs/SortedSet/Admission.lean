import RankedTable.Proofs.Command.Session
import RankedTable.Proofs.Geo.SharedLocations
import RankedTable.Proofs.SortedSet.Listings
import RankedTable.Proofs.Store.Batches

/-!
# Which members an addition writes

The flags of an addition are conditions on the item of a member, while a client is told of a member
by its score and by its position.  In a client's table no item is without both, so an addition of
new members writes just those of which neither is told, and an addition to existing ones the others.

* `MembersKept` — every item has a score or a position; **`Reached.membersKept`**.
* `IsScored`, `IsPlaced` — what clients are told of a member; **`isSome_find?_iff`**.
* `AddFlags.admits_iff` — whether flags let a member be written; `update_score` — a write under
  them.
* `scoreWrite`, `isBatch_scoreWrite` — the writes of an addition; **`applied_scoreWrite`** — what
  they do.
* `runCommand_add`, **`add_writes_admitted`** — an addition writes the members that its flags admit,
  and no others.
-/

namespace RankedTable

variable {settings : Settings} {geometry : Geometry} {journal : List Call} {table table' : Table}
  {key : String}

/-! ## What is kept of members -/

/-- Every item of a client has a score or a position, and a text kept as a score is an encoding. -/
structure MembersKept (settings : Settings) (table : Table) : Prop where
  score : ∀ address t, table.attribute? address settings.scoreName = some (.text t) →
    ∃ x, Score.encode x = .ok t
  item : ∀ address, (table.find? address).isSome →
    (∃ t, table.attribute? address settings.scoreName = some (.text t)) ∨
      ∃ digits, table.attribute? address settings.locationName = some (.number digits)

/-- A write of a score or of a position leaves no item without both. -/
lemma MembersKept.write (h : MembersKept settings table) {address : ItemKey} {name : String}
    {value : Value} {conditions : List Condition}
    (hok : settings.layout.update table address [(name, value)] conditions = .ok table')
    (htext : ∀ t, value = .text t → ∃ x, Score.encode x = .ok t)
    (hkept : name = settings.scoreName ∧ (∃ t, value = .text t) ∨
      name = settings.locationName ∧ ∃ digits, value = .number digits) :
    MembersKept settings table' := by
  have hattribute := Layout.attribute?_write hok
  constructor
  · intro other t ht
    rw [hattribute] at ht
    split_ifs at ht
    · exact htext t (Option.some_inj.mp ht)
    · exact h.score other t ht
  · intro other hsome
    rw [Layout.find?_update hok] at hsome
    rw [hattribute, hattribute]
    by_cases hother : address = other
    · rcases hkept with ⟨hname, t, rfl⟩ | ⟨hname, digits, rfl⟩
      · exact .inl ⟨t, if_pos ⟨hother, hname⟩⟩
      · exact .inr ⟨digits, if_pos ⟨hother, hname⟩⟩
    · rw [if_neg hother] at hsome
      rw [if_neg fun hboth => hother hboth.1, if_neg fun hboth => hother hboth.1]
      exact h.item other hsome

/-- **The calls of clients leave no item without a score and a position.** -/
theorem MembersKept.store (h : MembersKept settings table) {c : Call}
    (hc : ClientCall settings c) : MembersKept settings (settings.layout.store c table).2 := by
  refine Layout.store_invariant h ?_ ?_
  · rintro key updates conditions table' rfl hok
    cases hc with
    | @score _ _ x encoded hx =>
        exact h.write hok (fun t ht => ⟨x, Value.text.inj ht ▸ hx⟩) (.inl ⟨rfl, encoded, rfl⟩)
    | location =>
        exact h.write hok (fun t ht => by cases ht) (.inr ⟨rfl, _, rfl⟩)
  · rintro key conditions table' - hok
    obtain ⟨-, rfl⟩ := Layout.delete_ok hok
    constructor
    · intro address t ht
      exact h.score address t (Table.attribute?_of_remove ht)
    · intro address hsome
      rw [Table.find?_remove] at hsome
      simp only [Table.attribute?_remove]
      split_ifs at hsome ⊢
      · cases hsome
      · exact h.item address hsome

/-- **In a client's table every item has a score or a position.** -/
theorem Reached.membersKept (h : Reached settings geometry journal table) :
    MembersKept settings table :=
  h.invariant (I := fun s => MembersKept settings s.2)
    ⟨(fun _ _ ht => nomatch ht), fun _ hsome => nomatch hsome⟩ fun _ _ hc hs => hs.store hc

/-! ## What clients are told -/

/-- A number is not read as no position. -/
lemma locationFrom_number (geometry : Geometry) (digits : String) :
    GeoIndex.locationFrom geometry (some (.number digits)) ≠ .ok none := by
  rw [GeoIndex.locationFrom]
  rcases (Decimal.parse? digits).map Decimal.truncate with _ | (e | n) <;> simp

/-- A command that leaves the table alone is answered what its program returns. -/
lemma answered_iff_of_run {command : Command} {answer result : Except Error Answer}
    (hrun : (command.program ⟨settings, table.pageBound⟩ geometry).run settings.layout.store table =
      (answer, table)) : Answered settings geometry table command result ↔ answer = result := by
  rw [Answered, runCommand_of_run hrun, Prod.mk.injEq]
  exact and_iff_left rfl

section Told

variable (h : ClientTable settings table) (geometry : Geometry) (key member : String)

include h

/-- The score of a member is told by the value that is kept. -/
lemma answered_score_iff (result : Except Error Answer) :
    Answered settings geometry table (.score key member) result ↔
      (scoreFrom (table.attribute? ⟨key, member⟩ settings.scoreName)).map
        (fun told => .score told.1 told.2) = result := by
  have htable : ClientTable (Client.mk settings table.pageBound).settings table := h
  refine answered_iff_of_run ?_
  rw [Command.program, Program.run_bind, SortedSet.run_score_eq htable]
  cases scoreFrom (table.attribute? ⟨key, member⟩ settings.scoreName) <;> rfl

/-- The position of a member is told by the value that is kept. -/
lemma answered_positions_iff (result : Except Error Answer) :
    Answered settings geometry table (.positions key [member]) result ↔
      (GeoIndex.locatedAfter geometry (fun m => table.attribute? ⟨key, m⟩ settings.locationName)
        [] [member]).map .locations = result := by
  have htable : ClientTable (Client.mk settings table.pageBound).settings table := h
  refine answered_iff_of_run ?_
  rw [Command.program, GeoIndex.positions, ← bind_pure_comp, Program.run_bind,
    GeoIndex.run_positionsAfter htable]
  cases GeoIndex.locatedAfter geometry _ [] [member] <;> rfl

end Told

/-- A client is told the score of a member. -/
def IsScored (settings : Settings) (geometry : Geometry) (table : Table) (key member : String) :
    Prop :=
  ∃ x, Answered settings geometry table (.score key member) (.ok (.score x true))

/-- Positions do not leave a member out. -/
def IsPlaced (settings : Settings) (geometry : Geometry) (table : Table) (key member : String) :
    Prop :=
  ¬Answered settings geometry table (.positions key [member]) (.ok (.locations []))

section Known

variable (h : ClientTable settings table) (hkept : MembersKept settings table)
  (geometry : Geometry) (key member : String)

include h hkept

/-- A member is told to have a score if one is kept as a text, and to have none else. -/
lemma isScored_or :
    (∃ t, table.attribute? ⟨key, member⟩ settings.scoreName = some (.text t)) ∧
        IsScored settings geometry table key member ∨
      (∀ t, table.attribute? ⟨key, member⟩ settings.scoreName ≠ some (.text t)) ∧
        Answered settings geometry table (.score key member) (.ok (.score 0.0 false)) := by
  by_cases htext : ∃ t, table.attribute? ⟨key, member⟩ settings.scoreName = some (.text t)
  · obtain ⟨t, ht⟩ := htext
    obtain ⟨x, hx⟩ := hkept.score _ t ht
    obtain ⟨y, hdecode, -⟩ := Score.encode_decode hx
    refine .inl ⟨⟨t, ht⟩, y, (answered_score_iff h geometry key member _).mpr ?_⟩
    rw [ht, scoreFrom, hdecode]
    rfl
  · have htext := not_exists.mp htext
    refine .inr ⟨htext, (answered_score_iff h geometry key member _).mpr ?_⟩
    cases hvalue : table.attribute? ⟨key, member⟩ settings.scoreName with
    | none => rfl
    | some value =>
        cases value with
        | text t => exact absurd hvalue (htext t)
        | _ => rfl

/-- **A client is told of a member, by its score or by its position, just if it has an item.** -/
theorem isSome_find?_iff :
    (table.find? ⟨key, member⟩).isSome ↔
      IsScored settings geometry table key member ∨
        IsPlaced settings geometry table key member := by
  constructor
  · intro hsome
    rcases hkept.item _ hsome with hscore | ⟨digits, hdigits⟩
    · rcases isScored_or h hkept geometry key member with ⟨-, hscored⟩ | ⟨hnone, -⟩
      · exact .inl hscored
      · exact absurd hscore.choose_spec (hnone _)
    · refine .inr fun hleft => ?_
      rw [answered_positions_iff h, GeoIndex.locatedAfter, hdigits] at hleft
      cases hlocation : GeoIndex.locationFrom geometry (some (.number digits)) with
      | error e =>
          rw [hlocation] at hleft
          cases hleft
      | ok location =>
          rw [hlocation] at hleft
          cases location with
          | none => exact locationFrom_number geometry digits hlocation
          | some location => cases hleft
  · intro htold
    by_contra hnone
    rw [Option.not_isSome_iff_eq_none] at hnone
    have hattribute : ∀ name, table.attribute? ⟨key, member⟩ name = none := fun name => by
      rw [Table.attribute?, hnone]
      rfl
    rcases htold with ⟨x, hscored⟩ | hplaced
    · rw [answered_score_iff h, hattribute] at hscored
      cases hscored
    · refine hplaced ((answered_positions_iff h geometry key member _).mpr ?_)
      rw [GeoIndex.locatedAfter, hattribute]
      rfl

end Known

/-! ## Writes under flags -/

/-- Whether flags let a member be written that there is, or that there is not. -/
def AddFlags.admits (flags : AddFlags) (present : Bool) : Bool :=
  (!flags.onlyNew || !present) && (!flags.onlyExisting || present)

lemma AddFlags.admits_iff {flags : AddFlags} {present : Bool} :
    flags.admits present = true ↔
      (flags.onlyNew = true → present = false) ∧ (flags.onlyExisting = true → present = true) := by
  rw [admits]
  cases flags.onlyNew <;> cases flags.onlyExisting <;> cases present <;> decide

/-- The entries that flags let be written into a collection. -/
def AddFlags.admitted {α : Type} (flags : AddFlags) (table : Table) (key : String)
    (entries : Assoc α) : Assoc α :=
  entries.filter fun e => flags.admits (table.find? ⟨key, e.1⟩).isSome

/-- The conditions that flags put on a write hold just if they let it be made. -/
lemma check_conditions (layout : Layout) (address : ItemKey) (current : Option Attributes)
    (flags : AddFlags) :
    flags.admits current.isSome = true ∧
        layout.check address current (SortedSet.AddFlags.conditions flags) = .ok () ∨
      flags.admits current.isSome = false ∧ ∃ miss,
        layout.check address current (SortedSet.AddFlags.conditions flags) =
          .error (.conditionFailed miss) := by
  obtain ⟨onlyNew, onlyExisting⟩ := flags
  cases onlyNew <;> cases onlyExisting <;> cases current <;>
    first
    | exact .inl ⟨rfl, rfl⟩
    | exact .inr ⟨rfl, _, rfl⟩

/-- **A write of a score takes effect if the flags let it be made**, and misses its conditions
else. -/
theorem update_score (h : ClientTable settings table) (address : ItemKey) (encoded : String)
    (flags : AddFlags) :
    flags.admits (table.find? address).isSome = true ∧ (∃ table',
        settings.layout.update table address [(settings.scoreName, .text encoded)]
          (SortedSet.AddFlags.conditions flags) = .ok table') ∨
      flags.admits (table.find? address).isSome = false ∧ ∃ miss,
        settings.layout.update table address [(settings.scoreName, .text encoded)]
          (SortedSet.AddFlags.conditions flags) = .error (.conditionFailed miss) := by
  have hupdate := h.update_text address settings.scoreName encoded
    (SortedSet.AddFlags.conditions flags)
  have hcheck := check_conditions settings.layout address
    ((table.find? address).map Item.attributes) flags
  rw [Option.isSome_map, ← hupdate] at hcheck
  generalize settings.layout.update table address [(settings.scoreName, .text encoded)]
    (SortedSet.AddFlags.conditions flags) = updated at hcheck ⊢
  rcases hcheck with ⟨hadmits, hcheck⟩ | ⟨hadmits, miss, hcheck⟩
  · cases updated with
    | ok table' => exact .inl ⟨hadmits, table', rfl⟩
    | error e => cases hcheck
  · cases updated with
    | ok table' => cases hcheck
    | error e => exact .inr ⟨hadmits, miss, congrArg Except.error (Except.error.inj hcheck)⟩

/-- The entries that flags admit do not depend on what is written under other names. -/
lemma AddFlags.admitted_congr {α : Type} {flags : AddFlags} {one other : Table}
    {entries : Assoc α}
    (hsame : ∀ e ∈ entries, one.find? ⟨key, e.1⟩ = other.find? ⟨key, e.1⟩) :
    flags.admitted one key entries = flags.admitted other key entries :=
  List.filter_congr fun e he => by rw [hsame e he]

/-! ## Batches of scores -/

/-- The encoding of a score; the empty text for NaN. -/
def encodedScore (x : Float) : String :=
  (Score.encode x).toOption.getD ""

/-- A score that is a number is encoded, and read back without the sign of a zero. -/
lemma encodedScore_ok {x : Float} (h : x.isNaN = false) :
    Score.encode x = .ok (encodedScore x) ∧
      Score.decode (encodedScore x) = .ok (if (x == 0.0) = true then 0.0 else x) := by
  obtain ⟨t, ht, hdecode⟩ := Score.decode_encode h
  have hencoded : encodedScore x = t := by
    rw [encodedScore, ht]
    rfl
  exact ⟨hencoded ▸ ht, hencoded ▸ hdecode⟩

/-- The members of an addition with their encodings. -/
def encodedScores (members : Assoc Float) : Assoc String :=
  members.map fun e => (e.1, encodedScore e.2)

lemma names_encodedScores (members : Assoc Float) :
    (encodedScores members).names = members.names := by
  rw [Assoc.names, encodedScores, List.map_map]
  rfl

lemma encodeAll_eq {members : Assoc Float} (h : ∀ e ∈ members, e.2.isNaN = false) :
    SortedSet.encodeAll members = .ok (encodedScores members) := by
  refine mapM_ok fun e he => ?_
  obtain ⟨member, x⟩ := e
  dsimp only
  rw [(encodedScore_ok (h _ he)).1]
  rfl

/-- The write of a score under flags. -/
def scoreWrite (settings : Settings) (key : String) (flags : AddFlags) (e : String × Float) :
    Write :=
  .update ⟨key, e.1⟩ [(settings.scoreName, .text (encodedScore e.2))]
    (SortedSet.AddFlags.conditions flags)

lemma obeys_scoreWrite (h : ClientTable settings table) (key : String) (flags : AddFlags)
    (e : String × Float) :
    (scoreWrite settings key flags e).Obeys settings.layout table flags.admits := by
  rcases update_score h ⟨key, e.1⟩ (encodedScore e.2) flags with
    ⟨hadmits, table', hok⟩ | ⟨hadmits, miss, hmissed⟩
  · refine Write.obeys_of_ok hadmits ?_
    change (Layout.commit table _).1 = .ok ()
    rw [hok]
    rfl
  · refine .inr ⟨hadmits, miss, ?_⟩
    change Layout.commit table _ = _
    rw [hmissed]
    rfl

/-- Scores can be written as a batch. -/
lemma isBatch_scoreWrite (key : String) (flags : AddFlags) {members : Assoc Float}
    (hscores : ∀ e ∈ members, e.2.isNaN = false) :
    IsBatch settings.layout (ClientTable settings) .update flags.admits true
      (members.map (scoreWrite settings key flags)) where
  kept := List.forall_mem_map.mpr fun e he _ h =>
    h.write (.score _ _ (encodedScore_ok (hscores e he)).1)
  obeys := List.forall_mem_map.mpr fun e _ _ h => obeys_scoreWrite h key flags e
  misses := .inl rfl
  calls := List.forall_mem_map.mpr fun _ _ => rfl

/-- An addition makes the writes of its scores as a batch. -/
lemma add_eq (client : Client) (key : String) (flags : AddFlags) {members : Assoc Float}
    (hscores : ∀ e ∈ members, e.2.isNaN = false) :
    SortedSet.add client key members flags = Program.countWrites true 0
      ((members.map (scoreWrite client.settings key flags)).map Write.program) := by
  rw [SortedSet.add, Program.lift, encodeAll_eq hscores, encodedScores]
  change Program.countWrites true 0 _ = _
  rw [List.map_map, List.map_map]
  rfl

/-- **The scores that the flags admit are written and counted**; all other scores are as they
were. -/
theorem applied_scoreWrite (h : ClientTable settings table) {members : Assoc Float}
    (hnames : members.names.Nodup) (hscores : ∀ e ∈ members, e.2.isNaN = false)
    (flags : AddFlags) :
    ∃ table', settings.layout.applied flags.admits (members.map (scoreWrite settings key flags))
        table = ((flags.admitted table key members).length, table') ∧
      ∀ address, table'.attribute? address settings.scoreName =
        (if address.partition = key then
          (Assoc.get? (encodedScores (flags.admitted table key members)) address.member).map
            Value.text
        else none).or (table.attribute? address settings.scoreName) := by
  induction members generalizing table with
  | nil =>
      refine ⟨table, rfl, fun address => ?_⟩
      rw [AddFlags.admitted, List.filter_nil, encodedScores, List.map_nil, Assoc.get?,
        Option.map_none, ite_self, Option.none_or]
  | cons entry rest ih =>
      obtain ⟨member, x⟩ := entry
      obtain ⟨hnew, hrest⟩ := List.nodup_cons.mp hnames
      replace hnew : member ∉ Assoc.names rest := hnew
      have hscoresRest := fun e he => hscores e (List.mem_cons_of_mem _ he)
      rw [List.map_cons, Layout.applied, AddFlags.admitted, List.filter_cons]
      rcases obeys_scoreWrite h key flags (member, x) with
        ⟨hadmits, written, hbare, -⟩ | ⟨hadmits, -⟩
      · have hupdate := Layout.update_of_write hbare
        have hnext : ClientTable settings written :=
          h.update (fun _ _ => ⟨x, _, rfl, (encodedScore_ok (hscores _ (List.mem_cons_self ..))).1⟩)
            rfl hupdate
        replace hadmits : flags.admits (table.find? ⟨key, member⟩).isSome = true := hadmits
        have hsame : ∀ e ∈ rest, written.find? ⟨key, e.1⟩ = table.find? ⟨key, e.1⟩ := by
          intro e he
          have hne : (⟨key, member⟩ : ItemKey) ≠ ⟨key, e.1⟩ := fun heq =>
            hnew (by rw [(ItemKey.mk.inj heq).2]; exact List.mem_map_of_mem he)
          rw [Layout.find?_update hupdate, if_neg hne]
        obtain ⟨table', happlied, hattribute⟩ := ih hnext hrest hscoresRest
        rw [AddFlags.admitted_congr hsame] at happlied hattribute
        refine ⟨table', ?_, fun address => ?_⟩
        · refine (if_pos hadmits).trans ?_
          rw [hbare, happlied, if_pos hadmits, List.length_cons, AddFlags.admitted]
        · have hfirst : Assoc.get? (encodedScores (flags.admitted table key rest)) member = none :=
            Assoc.get?_of_not_mem fun hmem =>
              hnew ((List.filter_sublist.map Prod.fst).subset (names_encodedScores _ ▸ hmem))
          have hget : Assoc.get? (encodedScores ((member, x) :: flags.admitted table key rest))
              address.member = if member = address.member then some (encodedScore x)
                else Assoc.get? (encodedScores (flags.admitted table key rest)) address.member := rfl
          rw [hattribute, if_pos hadmits, ← AddFlags.admitted, hget]
          by_cases haddress : (⟨key, member⟩ : ItemKey) = address
          · have hscore : written.attribute? address settings.scoreName =
                some (.text (encodedScore x)) := by
              rw [Layout.attribute?_write hupdate, if_pos ⟨haddress, rfl⟩]
            rw [hscore, ← haddress, if_pos rfl, if_pos rfl, if_pos rfl, hfirst]
            rfl
          · have hold : written.attribute? address settings.scoreName =
                table.attribute? address settings.scoreName := by
              rw [Layout.attribute?_write hupdate, if_neg fun hboth => haddress hboth.1]
            rw [hold]
            by_cases hpartition : address.partition = key
            · rw [if_neg fun heq => haddress (ItemKey.ext hpartition.symm heq)]
            · rw [if_neg hpartition, if_neg hpartition]
      · have hrefused : ¬flags.admits (table.find? ⟨key, member⟩).isSome = true :=
          Bool.eq_false_iff.mp hadmits
        rw [if_neg hrefused]
        obtain ⟨table', happlied, hattribute⟩ := ih h hrest hscoresRest
        exact ⟨table', (if_neg hrefused).trans happlied, hattribute⟩

/-! ## Additions -/

/-- **An addition writes the members that its flags admit**, and no others. -/
theorem runCommand_add (h : ClientTable settings table) (geometry : Geometry)
    {members : Assoc Float} (hnames : members.names.Nodup)
    (hscores : ∀ e ∈ members, e.2.isNaN = false) (flags : AddFlags) :
    ∃ table', (Connection.embedded settings.layout table).runCommand settings geometry
          (.add key members flags) =
        (.ok (.count (flags.admitted table key members).length),
          .embedded settings.layout table') ∧
      ClientTable settings table' ∧
      ∀ address, table'.attribute? address settings.scoreName =
        (if address.partition = key then
          (Assoc.get? (encodedScores (flags.admitted table key members)) address.member).map
            Value.text
        else none).or (table.attribute? address settings.scoreName) := by
  obtain ⟨table', happlied, hattribute⟩ := applied_scoreWrite h hnames hscores flags
  have hrun := (isBatch_scoreWrite key flags hscores).run_store h
  rw [happlied, ← add_eq ⟨settings, table.pageBound⟩ key flags hscores] at hrun
  have hanswer := Program.run_map Answer.count hrun
  have htable := h.run (.add key members flags) table.pageBound geometry
  rw [Command.program, hanswer] at htable
  exact ⟨table', runCommand_of_run hanswer, htable, hattribute⟩

/-! ## What clients are answered -/

/-- **Flags decide by what a client is told of a member**: an addition of new members writes just
those of which neither a score nor a position is told, and one to existing members just the others.
What is written is counted and read back, and no other score changes. -/
theorem add_writes_admitted (h : Reached settings geometry journal table) (key : String)
    {members : Assoc Float} (hnames : members.names.Nodup)
    (hscores : ∀ e ∈ members, e.2.isNaN = false) (flags : AddFlags) :
    (∀ member, IsScored settings geometry table key member ∨
      Answered settings geometry table (.score key member) (.ok (.score 0.0 false))) ∧
    ∃ (written : Assoc Float) (table' : Table),
      written.Sublist members ∧
      (∀ e ∈ members, e ∈ written ↔
        (flags.onlyNew = true → ¬IsScored settings geometry table key e.1 ∧
          ¬IsPlaced settings geometry table key e.1) ∧
        (flags.onlyExisting = true → IsScored settings geometry table key e.1 ∨
          IsPlaced settings geometry table key e.1)) ∧
      (Connection.embedded settings.layout table).runCommand settings geometry
          (.add key members flags) =
        (.ok (.count written.length), .embedded settings.layout table') ∧
      (∀ e ∈ written, Answered settings geometry table' (.score key e.1)
        (.ok (.score (if (e.2 == 0.0) = true then 0.0 else e.2) true))) ∧
      ∀ other member, other ≠ key ∨ member ∉ written.names → ∀ result,
        Answered settings geometry table' (.score other member) result ↔
          Answered settings geometry table (.score other member) result := by
  have htable := h.clientTable
  have hkept := h.membersKept
  refine ⟨fun member => (isScored_or htable hkept geometry key member).imp And.right And.right, ?_⟩
  obtain ⟨table', hrun, htable', hattribute⟩ :=
    runCommand_add htable geometry hnames hscores flags
  have hsublist : (flags.admitted table key members).Sublist members := List.filter_sublist
  have hwrittenNames : (encodedScores (flags.admitted table key members)).names.Nodup :=
    (names_encodedScores _).symm ▸ hnames.sublist (hsublist.map Prod.fst)
  refine ⟨flags.admitted table key members, table', hsublist, fun e he => ?_, hrun,
    fun e he => ?_, fun other member hother result => ?_⟩
  · have hsome := isSome_find?_iff htable hkept geometry key e.1
    rw [AddFlags.admitted, List.mem_filter, AddFlags.admits_iff, ← hsome, ← not_or, ← hsome,
      Bool.not_eq_true]
    exact and_iff_right he
  · have hvalue : table'.attribute? ⟨key, e.1⟩ settings.scoreName =
        some (.text (encodedScore e.2)) := by
      have hget := (Assoc.get?_eq_some_iff hwrittenNames).mpr (List.mem_map_of_mem he)
      rw [hattribute, if_pos rfl, hget]
      rfl
    rw [answered_score_iff htable', hvalue, scoreFrom,
      (encodedScore_ok (hscores e (hsublist.subset he))).2]
    rfl
  · have hsame : table'.attribute? ⟨other, member⟩ settings.scoreName =
        table.attribute? ⟨other, member⟩ settings.scoreName := by
      rw [hattribute]
      rcases hother with hother | hmember
      · rw [if_neg hother, Option.none_or]
      · rw [← names_encodedScores] at hmember
        rw [Assoc.get?_of_not_mem hmember, Option.map_none, ite_self, Option.none_or]
    rw [answered_score_iff htable', answered_score_iff htable, hsame]

/-- Of a member with a score and a new one, an addition of new members writes the second. -/
theorem add_writes_admitted_new :
    ∃ (journal : List Call) (table : Table) (written : Assoc Float) (table' : Table),
      Reached (Installation.mk "ranked" "").defaults .sphere journal table ∧
      ("a", Float.ofBits 0) ∉ written ∧ ("b", Float.ofBits 0) ∈ written ∧
      (Connection.embedded (Installation.mk "ranked" "").defaults.layout table).runCommand
          (Installation.mk "ranked" "").defaults .sphere
          (.add "k" [("a", Float.ofBits 0), ("b", Float.ofBits 0)] { onlyNew := true }) =
        (.ok (.count written.length),
          .embedded (Installation.mk "ranked" "").defaults.layout table') := by
  have hreached : Reached (Installation.mk "ranked" "").defaults .sphere _ _ :=
    .command .empty (.add "k" [("a", Float.ofBits 0)] {}) rfl
  obtain ⟨-, written, table', -, hwritten, hrun, -⟩ := add_writes_admitted hreached "k"
    (show (Assoc.names [("a", Float.ofBits 0), ("b", Float.ofBits 0)]).Nodup by decide)
    (by decide) { onlyNew := true }
  refine ⟨_, _, written, table', hreached, fun ha => ?_, ?_, hrun⟩
  · exact (((hwritten _ (by simp)).mp ha).1 rfl).1 ⟨Float.ofBits 0, rfl⟩
  · refine (hwritten _ (by simp)).mpr ⟨fun _ => ⟨?_, fun hplaced => hplaced rfl⟩, nofun⟩
    rintro ⟨x, hx⟩
    cases hx

/-- A member that was only given a position has no score, but an addition of new members passes it
over, and one to existing members writes it. -/
theorem add_passes_over_placed :
    ∃ journal table, Reached (Installation.mk "ranked" "").defaults oneCell journal table ∧
      Answered (Installation.mk "ranked" "").defaults oneCell table (.score "k" "a")
        (.ok (.score 0.0 false)) ∧
      Answered (Installation.mk "ranked" "").defaults oneCell table
        (.add "k" [("a", Float.ofBits 0)] { onlyNew := true }) (.ok (.count 0)) ∧
      ((Connection.embedded (Installation.mk "ranked" "").defaults.layout table).runCommand
        (Installation.mk "ranked" "").defaults oneCell
        (.add "k" [("a", Float.ofBits 0)] { onlyExisting := true })).1 = .ok (.count 1) :=
  ⟨_, _, .command .empty (.addLocations "k" [("a", ⟨0, 0⟩)]) rfl, rfl, rfl, rfl⟩

end RankedTable

import RankedTable.Proofs.Binary64.Addition
import RankedTable.Proofs.SortedSet.Admission
import RankedTable.Proofs.SortedSet.Increment

/-!
# Increments that nobody comes in between of

An increment that is alone with its table succeeds at once: the guard it makes from what it read
still holds when it writes.  That needs the score to be under a name of its own, for a guard looks
at whatever the item has under that name, and a read at texts only.

* `scoreAt_ne_negativeZero` — a score that is read back is no negative zero.
* `guardAfter_holds` — a guard holds on the table that it was made from.
* `attemptAfter_eq`, `attempt_accepted` — the attempt made from what was read, which is accepted.
* `Incremented` — what is left by an increment, and what it called.
* **`increment_uncontended`** — an increment adds with one read and one write, or is refused.
* `ContendsAlone`, `increment_contention` — under the name of another attribute it may give up.
-/

namespace RankedTable

variable {settings : Settings} {geometry : Geometry} {journal : List Call} {table table' : Table}
  {name : String} {delta : Float}

/-! ## Guards on the table they were made from -/

/-- A score that is read back is no negative zero. -/
lemma ScoresEncoded.scoreAt_ne_negativeZero (h : ScoresEncoded name table) (key : ItemKey) :
    Binary64.ofFloat (table.scoreAt name key) ≠ .zero true := by
  cases hvalue : table.attribute? key name with
  | none =>
      rw [scoreAt_of_none hvalue]
      decide
  | some value =>
      obtain ⟨x, t, rfl, hx⟩ := h key value hvalue
      obtain ⟨t', ht', hdecode⟩ := Score.decode_encode (Score.codes_of_encode hx).1
      obtain rfl : t' = t := Except.ok.inj (ht'.symm.trans hx)
      rw [Except.ok.inj ((scoreAt_encoded hx hvalue).1.symm.trans hdecode)]
      split_ifs with hzero
      · decide
      · exact fun hx => hzero ((Score.beq_zero_iff (Score.codes_of_encode ht').1).mpr ⟨true, hx⟩)

/-- So a sum with it is given back by its encoding, the sign of a zero included. -/
lemma ScoresEncoded.zero_sum (h : ScoresEncoded name table) (key : ItemKey) (delta : Float) :
    (if (table.scoreAt name key + delta == 0.0) = true then 0.0
      else table.scoreAt name key + delta) = table.scoreAt name key + delta := by
  split_ifs with hzero
  · exact (Binary64.eq_zero_of_beq hzero fun hsum =>
      h.scoreAt_ne_negativeZero key (Binary64.negativeZero_of_add hsum).1).symm
  · rfl

/-- **A guard holds on the table that it was made from.** -/
lemma guardAfter_holds {layout : Layout} (hname : layout.IsAttribute name)
    (h : ScoresEncoded name table) {key : ItemKey} {found : Option Item}
    (hfound : found.bind (·.get? name) = table.attribute? key name) :
    ∃ guard, guardAfter name found = .ok (table.scoreAt name key, guard) ∧
      layout.check key ((table.find? key).map Item.attributes) [guard] = .ok () := by
  rw [guardAfter, hfound]
  cases hvalue : table.attribute? key name with
  | none =>
      refine ⟨_, congrArg (fun x => Except.ok (x, _)) (scoreAt_of_none hvalue).symm, ?_⟩
      rw [Layout.check, hname.read, hvalue]
      rfl
  | some value =>
      obtain ⟨x, t, rfl, hx⟩ := h key value hvalue
      obtain ⟨hdecode, hencode⟩ := scoreAt_encoded hx hvalue
      refine ⟨Condition.eq name (.text t), ?_, ?_⟩
      · dsimp only
        rw [hdecode]
        change liftScore (Score.encode _) >>= _ = _
        rw [hencode]
        rfl
      · change (Condition.eq name (.text t)).holds (layout.read key _ name) >>= _ = _
        rw [hname.read, hvalue]
        change (if decide (t = t) then _ else _ : Except Error Unit) = _
        rw [decide_eq_true rfl]
        rfl

/-- The attempt made from what was read: a sum that is a number is written, any other is refused. -/
lemma attemptAfter_eq {layout : Layout} (hname : layout.IsAttribute name)
    (h : ScoresEncoded name table) {key : ItemKey} {found : Option Item}
    (hfound : found.bind (·.get? name) = table.attribute? key name) (delta : Float) :
    ((table.scoreAt name key + delta).isNaN = false →
      ∃ guard encoded, Score.encode (table.scoreAt name key + delta) = .ok encoded ∧
        layout.check key ((table.find? key).map Item.attributes) [guard] = .ok () ∧
        attemptAfter name delta found =
          .ok ⟨guard, table.scoreAt name key + delta, encoded⟩) ∧
    ((table.scoreAt name key + delta).isNaN = true →
      attemptAfter name delta found = .error (.score .notANumber)) := by
  obtain ⟨guard, hguard, hcheck⟩ := guardAfter_holds hname h hfound
  rw [attemptAfter, hguard, ok_bind]
  dsimp only
  constructor
  · intro hsum
    obtain ⟨encoded, hencoded, -⟩ := Score.encode_codes hsum
    refine ⟨guard, encoded, hencoded, hcheck, ?_⟩
    rw [hencoded]
    rfl
  · intro hsum
    rw [Score.encode_nan hsum]
    rfl

/-! ## Increments -/

/-- What an increment leaves that came to a sum, and what it called: it read the item once, and then
wrote it once with success.  The score is told to be the sum, and all else is as it was. -/
structure Incremented (settings : Settings) (geometry : Geometry) (table : Table)
    (key member : String) (delta sum : Float) (table' : Table) : Prop where
  returned : (Connection.embedded settings.layout table).runCommand settings geometry
      (.increment key member delta) = (.ok (.number sum), .embedded settings.layout table')
  called : ∃ encoded guard,
    ((Command.increment key member delta).program ⟨settings, table.pageBound⟩ geometry).run
        (settings.layout.store.interrupted FaultPlan.none) ([], table) =
      (.ok (.number sum),
        [.update ⟨key, member⟩ [(settings.scoreName, .text encoded)] [guard],
          .get ⟨key, member⟩ (some [settings.scoreName])], table') ∧
    settings.layout.store
        (.update ⟨key, member⟩ [(settings.scoreName, .text encoded)] [guard]) table =
      (.ok (), table')
  told : Answered settings geometry table' (.score key member) (.ok (.score sum true))
  attributes : ∀ address name, ¬(address = ⟨key, member⟩ ∧ name = settings.scoreName) →
    table'.attribute? address name = table.attribute? address name
  items : ∀ address, address ≠ ⟨key, member⟩ → table'.find? address = table.find? address

/-- What an increment did that came to no number: it read the item once, and was refused. -/
structure IncrementRefused (settings : Settings) (geometry : Geometry) (table : Table)
    (key member : String) (delta : Float) : Prop where
  returned : (Connection.embedded settings.layout table).runCommand settings geometry
      (.increment key member delta) =
    (.error (.score .notANumber), .embedded settings.layout table)
  called :
    ((Command.increment key member delta).program ⟨settings, table.pageBound⟩ geometry).run
        (settings.layout.store.interrupted FaultPlan.none) ([], table) =
      (.error (.score .notANumber), [.get ⟨key, member⟩ (some [settings.scoreName])], table)

/-- A command that is run with its calls kept is answered the same. -/
lemma runCommand_of_run_interrupted {command : Command} {result : Except Error Answer}
    {calls : List Call}
    (hrun : (command.program ⟨settings, table.pageBound⟩ geometry).run
      (settings.layout.store.interrupted FaultPlan.none) ([], table) = (result, calls, table')) :
    (Connection.embedded settings.layout table).runCommand settings geometry command =
      (result, .embedded settings.layout table') := by
  obtain ⟨hresult, htable⟩ := Program.run_interrupted_none settings.layout.store
    (command.program ⟨settings, table.pageBound⟩ geometry) [] table
  rw [hrun] at hresult htable
  exact runCommand_of_run (Prod.ext hresult.symm htable.symm)

section Client

variable (h : ClientTable settings table) (hscores : ScoresEncoded settings.scoreName table)
  (hname : settings.layout.IsAttribute settings.scoreName) (hattempts : 1 ≤ settings.maxAttempts)
  (hdelta : delta.isNaN = false) (geometry : Geometry) (key member : String)

include hdelta hattempts in
/-- An increment that may be tried starts with its first attempt. -/
lemma program_increment (maxPages : ℕ) : ∃ attempts,
    (Command.increment key member delta).program ⟨settings, maxPages⟩ geometry =
      Answer.number <$> SortedSet.incrementWithin ⟨settings, maxPages⟩ key member delta
        (attempts + 1) := by
  obtain ⟨attempts, hattempts⟩ := Nat.exists_eq_add_of_le'
    (show 1 ≤ settings.maxAttempts.toNat by omega)
  refine ⟨attempts, ?_⟩
  rw [Command.program, SortedSet.increment, if_neg (by rw [hdelta]; decide), hattempts]

include h hscores

/-- The score that is read is told. -/
lemma answered_scoreAt : ∃ found,
    Answered settings geometry table (.score key member)
      (.ok (.score (table.scoreAt settings.scoreName ⟨key, member⟩) found)) ∧
    (found = false → table.scoreAt settings.scoreName ⟨key, member⟩ = 0.0) := by
  cases hvalue : table.attribute? ⟨key, member⟩ settings.scoreName with
  | none =>
      refine ⟨false, (answered_score_iff h geometry key member _).mpr ?_,
        fun _ => scoreAt_of_none hvalue⟩
      rw [hvalue, scoreAt_of_none hvalue]
      rfl
  | some value =>
      obtain ⟨x, t, rfl, hx⟩ := hscores _ value hvalue
      refine ⟨true, (answered_score_iff h geometry key member _).mpr ?_, nofun⟩
      rw [hvalue, scoreFrom, (scoreAt_encoded hx hvalue).1]
      rfl

include hname

/-- An attempt that comes to a number is accepted by the table that it was made from. -/
lemma attempt_accepted {found : Option Item}
    (hfound : found.bind (·.get? settings.scoreName) =
      table.attribute? ⟨key, member⟩ settings.scoreName)
    (hsum : (table.scoreAt settings.scoreName ⟨key, member⟩ + delta).isNaN = false) :
    ∃ guard encoded table',
      Score.encode (table.scoreAt settings.scoreName ⟨key, member⟩ + delta) = .ok encoded ∧
        attemptAfter settings.scoreName delta found =
          .ok ⟨guard, table.scoreAt settings.scoreName ⟨key, member⟩ + delta, encoded⟩ ∧
        settings.layout.update table ⟨key, member⟩ [(settings.scoreName, .text encoded)]
          [guard] = .ok table' := by
  obtain ⟨guard, encoded, hencoded, hcheck, hattempt⟩ :=
    (attemptAfter_eq hname hscores hfound delta).1 hsum
  have hmap := h.update_text ⟨key, member⟩ settings.scoreName encoded [guard]
  rw [hcheck] at hmap
  cases hupdate : settings.layout.update table ⟨key, member⟩
      [(settings.scoreName, .text encoded)] [guard] with
  | ok table' => exact ⟨guard, encoded, table', hencoded, hattempt, hupdate⟩
  | error e =>
      rw [hupdate] at hmap
      cases hmap

include hattempts hdelta

/-- **An increment that comes to a number writes it at its first attempt.** -/
theorem incremented
    (hsum : (table.scoreAt settings.scoreName ⟨key, member⟩ + delta).isNaN = false) :
    ∃ table', Incremented settings geometry table key member delta
      (table.scoreAt settings.scoreName ⟨key, member⟩ + delta) table' := by
  obtain ⟨attempts, hprogram⟩ := program_increment hattempts hdelta geometry key member
    table.pageBound
  obtain ⟨found, hfound, hget⟩ := h.store_get ⟨key, member⟩ settings.scoreName
  obtain ⟨guard, encoded, table', hencoded, hattempt, hupdate⟩ :=
    attempt_accepted h hscores hname key member hfound hsum
  have hstore : settings.layout.store (.update ⟨key, member⟩
      [(settings.scoreName, .text encoded)] [guard]) table = (.ok (), table') := by
    rw [Layout.store, hupdate]
    rfl
  have hrun : ((Command.increment key member delta).program ⟨settings, table.pageBound⟩
      geometry).run (settings.layout.store.interrupted FaultPlan.none) ([], table) =
        (.ok (.number (table.scoreAt settings.scoreName ⟨key, member⟩ + delta)),
          [.update ⟨key, member⟩ [(settings.scoreName, .text encoded)] [guard],
            .get ⟨key, member⟩ (some [settings.scoreName])], table') := by
    rw [hprogram]
    refine Program.run_map _ ?_
    rw [incrementWithin_succ, Program.run_call_kept hget, ok_bind, hattempt]
    exact Program.run_call_kept hstore _ _
  have hattribute := Layout.attribute?_write hupdate
  refine ⟨table', runCommand_of_run_interrupted hrun, ⟨encoded, guard, hrun, hstore⟩, ?_, ?_, ?_⟩
  · have htable' : ClientTable settings table' :=
      h.update (fun _ _ => ⟨_, encoded, rfl, hencoded⟩) rfl hupdate
    rw [answered_score_iff htable', hattribute, if_pos ⟨rfl, rfl⟩, scoreFrom]
    obtain ⟨t, ht, hdecode⟩ := Score.decode_encode hsum
    obtain rfl : t = encoded := Except.ok.inj (ht.symm.trans hencoded)
    rw [hdecode, hscores.zero_sum ⟨key, member⟩ delta]
    rfl
  · intro address name hother
    rw [hattribute, if_neg fun hsame => hother ⟨hsame.1.symm, hsame.2.symm⟩]
  · intro address hother
    rw [Layout.find?_update hupdate, if_neg hother.symm]

/-- **An increment that comes to no number writes nothing.** -/
theorem increment_refused
    (hsum : (table.scoreAt settings.scoreName ⟨key, member⟩ + delta).isNaN = true) :
    IncrementRefused settings geometry table key member delta := by
  obtain ⟨attempts, hprogram⟩ := program_increment hattempts hdelta geometry key member
    table.pageBound
  obtain ⟨found, hfound, hget⟩ := h.store_get ⟨key, member⟩ settings.scoreName
  have hattempt := (attemptAfter_eq hname hscores hfound delta).2 hsum
  have hrun : ((Command.increment key member delta).program ⟨settings, table.pageBound⟩
      geometry).run (settings.layout.store.interrupted FaultPlan.none) ([], table) =
        (.error (.score .notANumber), [.get ⟨key, member⟩ (some [settings.scoreName])],
          table) := by
    rw [hprogram, incrementWithin_succ, ← bind_pure_comp, Program.run_bind,
      Program.run_call_kept hget, ok_bind, hattempt]
    rfl
  exact ⟨runCommand_of_run_interrupted hrun, hrun⟩

end Client

/-! ## Every table reached -/

/-- **An increment that is alone with its table reads once and writes once**, at its first attempt:
it returns the sum of the increment and the score, which is zero if there was none, the sum is told
as the score afterwards, and all else is as it was.  A sum that is no number is refused, with
nothing written. -/
theorem increment_uncontended (h : Reached settings geometry journal table)
    (hne : settings.scoreName ≠ settings.locationName)
    (hname : settings.layout.IsAttribute settings.scoreName) (hattempts : 1 ≤ settings.maxAttempts)
    (key member : String) (hdelta : delta.isNaN = false) :
    ∃ old found, Answered settings geometry table (.score key member) (.ok (.score old found)) ∧
      (found = false → old = 0.0) ∧
      ((old + delta).isNaN = false →
        ∃ table', Incremented settings geometry table key member delta (old + delta) table') ∧
      ((old + delta).isNaN = true →
        IncrementRefused settings geometry table key member delta) := by
  have htable := h.clientTable
  have hscores := htable.score hne
  obtain ⟨found, htold, hnone⟩ := answered_scoreAt htable hscores geometry key member
  exact ⟨_, found, htold, hnone,
    incremented htable hscores hname hattempts hdelta geometry key member,
    increment_refused htable hscores hname hattempts hdelta geometry key member⟩

/-- A member that was only given a position is incremented to one, and what comes to no number is
refused: of two infinities one is taken from the other. -/
theorem increment_uncontended_placed :
    (∃ journal table table', Reached (Installation.mk "ranked" "").defaults oneCell journal table ∧
      Incremented (Installation.mk "ranked" "").defaults oneCell table "k" "a" 1.0 (0.0 + 1.0)
        table') ∧
    ∃ journal table, Reached (Installation.mk "ranked" "").defaults oneCell journal table ∧
      IncrementRefused (Installation.mk "ranked" "").defaults oneCell table "k" "a"
        (floatOfBits true infinityBits) := by
  have hname : (Installation.mk "ranked" "").defaults.layout.IsAttribute "sk2" :=
    ⟨by decide, by decide, by decide⟩
  constructor
  · obtain ⟨journal, table, hreached, hzero⟩ : ∃ journal table,
        Reached (Installation.mk "ranked" "").defaults oneCell journal table ∧
          Answered (Installation.mk "ranked" "").defaults oneCell table (.score "k" "a")
            (.ok (.score 0.0 false)) :=
      ⟨_, _, .command .empty (.addLocations "k" [("a", ⟨0, 0⟩)]) rfl, rfl⟩
    obtain ⟨old, found, htold, -, hsum, -⟩ := increment_uncontended hreached (by decide) hname
      (by decide) "k" "a" (show (1.0 : Float).isNaN = false by decide)
    obtain ⟨rfl, rfl⟩ := Answer.score.inj (Except.ok.inj (Prod.mk.inj (htold.symm.trans hzero)).1)
    obtain ⟨table', hincremented⟩ := hsum (by decide)
    exact ⟨journal, table, table', hreached, hincremented⟩
  · obtain ⟨journal, table, hreached, hinfinity⟩ : ∃ journal table,
        Reached (Installation.mk "ranked" "").defaults oneCell journal table ∧
          Answered (Installation.mk "ranked" "").defaults oneCell table (.score "k" "a")
            (.ok (.score (floatOfBits false infinityBits) true)) :=
      ⟨_, _, .command .empty (.add "k" [("a", floatOfBits false infinityBits)] {}) rfl, rfl⟩
    obtain ⟨old, found, htold, -, -, hnone⟩ := increment_uncontended hreached (by decide) hname
      (by decide) "k" "a" (show (floatOfBits true infinityBits).isNaN = false by decide)
    obtain ⟨rfl, rfl⟩ :=
      Answer.score.inj (Except.ok.inj (Prod.mk.inj (htold.symm.trans hinfinity)).1)
    exact ⟨journal, table, hreached, hnone (by decide)⟩

/-- With scores under a name, an increment that is alone with its table gives up: the member was
only given a position, and there is something under the name that is no score. -/
def ContendsAlone (name : String) : Prop :=
  ∃ journal table,
    Reached { (Installation.mk "ranked" "").defaults with scoreName := name } oneCell journal
      table ∧
    Answered { (Installation.mk "ranked" "").defaults with scoreName := name } oneCell table
      (.increment "k" "a" 1.0) (.error (.contention ⟨"k", "a"⟩ 3))

/-- What stands against an increment is a position, a part of the key, or the key itself. -/
theorem increment_contention :
    ContendsAlone "sk3" ∧ ContendsAlone "pk" ∧ ContendsAlone "sk" ∧ ContendsAlone "@key" := by
  refine ⟨?_, ?_, ?_, ?_⟩
  all_goals
    exact ⟨_, _, .command .empty (.addLocations "k" [("a", ⟨0, 0⟩)]) rfl, rfl⟩

end RankedTable

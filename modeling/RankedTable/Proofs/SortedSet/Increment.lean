import RankedTable.Proofs.Command.Replies
import RankedTable.Proofs.Score.Sum
import RankedTable.Proofs.Store.Interleaving

/-!
# Increments of clients that share a table

An increment reads a score, and writes the sum if what it read is still there.  That compares
texts, not versions: in between the score may have been changed, deleted and restored.  This does no
harm, for where the guard holds, the score is the one that was read.

* `Table.scoreAt` — the score at an address.
* `Guarded` — the guard made from a score; `Guarded.scoreAt_eq` — where it holds, the score is that.
* `Attempt`, `incrementWithin_succ` — what an attempt writes, and an increment step by step.
* `Tried`, `tried_incrementWithin` — what an increment does, whatever comes between its calls.
* `scoreAt_chained` — where only increments write, their sum is left.
* `returned_wrote`, `wrote_returned`, `scoreAt_writers` — what increments do in a shared run.
* **`increments_not_lost`** — in a shared run no increment is lost.
-/

namespace RankedTable

variable {layout : Layout} {table table' : Table} {key : ItemKey} {name : String} {delta : Float}

/-! ## Scores at an address -/

/-- The score of the item at an address; zero if it has none. -/
def Table.scoreAt (table : Table) (name : String) (key : ItemKey) : Float :=
  match table.attribute? key name with
  | some (.text encoded) => (Score.decode encoded).toOption.getD 0.0
  | _ => 0.0

/-- A score that was encoded is read back. -/
lemma scoreAt_encoded {x : Float} {t : String} (hx : Score.encode x = .ok t)
    (h : table.attribute? key name = some (.text t)) :
    Score.decode t = .ok (table.scoreAt name key) ∧
      Score.encode (table.scoreAt name key) = .ok t := by
  obtain ⟨y, hdecode, hencode⟩ := Score.encode_decode hx
  have hscore : table.scoreAt name key = y := by
    rw [Table.scoreAt, h]
    simp only [hdecode, Except.toOption, Option.getD_some]
  rw [hscore]
  exact ⟨hdecode, hencode⟩

lemma scoreAt_of_none (h : table.attribute? key name = none) : table.scoreAt name key = 0.0 := by
  rw [Table.scoreAt, h]

/-- Where scores are encodings, the score at an address is a number. -/
lemma ScoresEncoded.isNaN_scoreAt (h : ScoresEncoded name table) (key : ItemKey) :
    (table.scoreAt name key).isNaN = false := by
  cases hvalue : table.attribute? key name with
  | none =>
      rw [scoreAt_of_none hvalue]
      decide
  | some value =>
      obtain ⟨x, t, rfl, hx⟩ := h key value hvalue
      exact (Score.codes_of_encode (scoreAt_encoded hx hvalue).2).1

/-- Calls that write nothing but scores keep all scores encoded, under whatever name they write. -/
lemma ScoresEncoded.store {settings : Settings} (h : ScoresEncoded name table) {c : Call}
    (hc : SetCall settings c) (layout : Layout) : ScoresEncoded name (layout.store c table).2 := by
  refine Layout.store_invariant h ?_ ?_
  · rintro key updates conditions table' rfl hok
    cases hc with
    | @score _ _ x encoded hx =>
        intro address v hv
        rw [Layout.attribute?_update hok, Assoc.latest?, Assoc.latest?, Option.none_or] at hv
        split_ifs at hv with hkey hname
        · rw [Option.some_or, Option.some_inj] at hv
          exact ⟨x, encoded, hv.symm, hx⟩
        · exact h key v hv
        · exact h address v hv
  · rintro key conditions table' - hok address v hv
    obtain ⟨-, rfl⟩ := Layout.delete_ok hok
    exact h address v (Table.attribute?_of_remove hv)

/-! ## Guards -/

/-- The guards that a score puts on a write: its encoding has to be there, or nothing if there was
no score. -/
inductive Guarded (name : String) : Float → Condition → Prop
  | found {x : Float} {t : String} (hx : Score.encode x = .ok t)
      (hdecode : Score.decode t = .ok x) : Guarded name x (Condition.eq name (.text t))
  | absent : Guarded name 0.0 ⟨name, .absent, []⟩

lemma Guarded.subject_eq {x : Float} {guard : Condition} (h : Guarded name x guard) :
    guard.subject = name := by
  cases h <;> rfl

/-- A guard is met or missed; there is no other way for it to fail. -/
lemma Guarded.check_error {x : Float} {guard : Condition} (h : Guarded name x guard)
    {current : Option Attributes} {e : Error}
    (hcheck : layout.check key current [guard] = .error e) : e.isMiss = true := by
  obtain ⟨b, hb⟩ : ∃ b, guard.holds (layout.read key current guard.subject) = .ok b := by
    cases h with
    | found hx hdecode =>
        cases hread : layout.read key current name with
        | none => exact ⟨false, congrArg (Condition.holds _) hread⟩
        | some value => exact ⟨_, congrArg (Condition.holds _) hread⟩
    | absent => exact ⟨_, rfl⟩
  rw [Layout.check, hb] at hcheck
  cases b with
  | true => cases hcheck
  | false =>
      rw [← Except.error.inj hcheck]
      rfl

/-- **Where a guard holds, the score is the one it was made from**, whatever was written since. -/
theorem Guarded.scoreAt_eq {x : Float} {guard : Condition} (h : Guarded name x guard)
    (hname : layout.IsAttribute name)
    (hcheck : layout.check key ((table.find? key).map Item.attributes) [guard] = .ok ()) :
    table.scoreAt name key = x := by
  have hholds : guard.holds (layout.read key ((table.find? key).map Item.attributes)
      guard.subject) = .ok true := by
    rw [Layout.check] at hcheck
    obtain ⟨b, hb, hcheck⟩ := bind_eq_ok.mp hcheck
    cases b with
    | true => exact hb
    | false => cases hcheck
  cases h with
  | @found x t hx hdecode =>
      change (Condition.eq name (.text t)).holds (layout.read key _ name) = .ok true at hholds
      rw [hname.read] at hholds
      rcases hvalue : table.attribute? key name with _ | ⟨s⟩ | _
      case some.text =>
        rw [hvalue] at hholds
        obtain rfl : s = t := of_decide_eq_true (Except.ok.inj hholds)
        exact Except.ok.inj ((scoreAt_encoded hx hvalue).1.symm.trans hdecode)
      all_goals
        rw [hvalue] at hholds
        cases hholds
  | absent =>
      change Except.ok (layout.read key _ name).isNone = .ok true at hholds
      rw [hname.read] at hholds
      exact scoreAt_of_none (Option.isNone_iff_eq_none.mp (Except.ok.inj hholds))

/-! ## Attempts -/

/-- What an attempt to add to a score writes, and its guard. -/
structure Attempt where
  guard : Condition
  sum : Float
  encoded : String

/-- The score of an item that was read, with the guard made from it. -/
def guardAfter (name : String) (found : Option Item) : Except Error (Float × Condition) :=
  match found.bind (·.get? name) with
  | some (.text encoded) => do
    let old ← liftScore (Score.decode encoded)
    let guard ← liftScore (Score.encode old)
    return (old, Condition.eq name (.text guard))
  | _ => .ok (0.0, ⟨name, .absent, []⟩)

/-- The attempt that is made after an item was read. -/
def attemptAfter (name : String) (delta : Float) (found : Option Item) : Except Error Attempt := do
  let (old, guard) ← guardAfter name found
  let encoded ← liftScore (Score.encode (old + delta))
  return ⟨guard, old + delta, encoded⟩

/-- A guard is made from the score that was read. -/
lemma guardAfter_ok {found : Option Item} {old : Float} {guard : Condition}
    (hfound : ∀ value, found.bind (·.get? name) = some value →
      ∃ x t, value = .text t ∧ Score.encode x = .ok t)
    (h : guardAfter name found = .ok (old, guard)) : Guarded name old guard := by
  rw [guardAfter] at h
  cases hvalue : found.bind (·.get? name) with
  | none =>
      rw [hvalue] at h
      obtain ⟨rfl, rfl⟩ := Prod.mk.inj (Except.ok.inj h)
      exact .absent
  | some value =>
      obtain ⟨x, t, rfl, hx⟩ := hfound value hvalue
      obtain ⟨y, hdecode, hencode⟩ := Score.encode_decode hx
      rw [hvalue] at h
      dsimp only at h
      rw [hdecode] at h
      change liftScore (Score.encode y) >>= _ = _ at h
      rw [hencode] at h
      obtain ⟨rfl, rfl⟩ := Prod.mk.inj (Except.ok.inj h)
      exact .found hencode hdecode

/-- **An attempt writes the sum of the score that was read and the increment**, guarded by that
score. -/
lemma attemptAfter_ok {found : Option Item} {attempt : Attempt}
    (hfound : ∀ value, found.bind (·.get? name) = some value →
      ∃ x t, value = .text t ∧ Score.encode x = .ok t)
    (h : attemptAfter name delta found = .ok attempt) :
    ∃ old, Guarded name old attempt.guard ∧ attempt.sum = old + delta ∧
      Score.encode attempt.sum = .ok attempt.encoded := by
  rw [attemptAfter] at h
  obtain ⟨⟨old, guard⟩, hguard, h⟩ := bind_eq_ok.mp h
  obtain ⟨encoded, hencoded, h⟩ := bind_eq_ok.mp h
  obtain rfl := Except.ok.inj h
  exact ⟨old, guardAfter_ok hfound hguard, rfl, liftScore_eq_ok hencoded⟩

/-! ## Answers of a table -/

/-- Whether an error says that a command was tried too often. -/
def Error.IsContention (e : Error) : Prop :=
  ∃ key attempts, e = .contention key attempts

lemma liftScore_error {α : Type} {result : Except ScoreError α} {e : Error}
    (h : liftScore result = .error e) : ¬e.IsContention := by
  rintro ⟨_, _, rfl⟩
  cases result <;> cases h

/-- An attempt that cannot be made does not fail for contention. -/
lemma attemptAfter_error {found : Option Item} {e : Error}
    (h : attemptAfter name delta found = .error e) : ¬e.IsContention := by
  rw [attemptAfter] at h
  rcases bind_eq_error.mp h with h | ⟨⟨old, guard⟩, -, h⟩
  · rw [guardAfter] at h
    split at h
    · rcases bind_eq_error.mp h with h | ⟨old, -, h⟩
      · exact liftScore_error h
      · rcases bind_eq_error.mp h with h | ⟨guard, -, h⟩
        · exact liftScore_error h
        · cases h
    · cases h
  · rcases bind_eq_error.mp h with h | ⟨encoded, -, h⟩
    · exact liftScore_error h
    · cases h

lemma Table.load_error {e : Error} (h : table.load key = .error e) : e = .invalidField := by
  rw [Table.load] at h
  cases hitem : table.find? key with
  | none =>
      rw [hitem] at h
      cases h
  | some item =>
      rw [hitem] at h
      dsimp only at h
      rw [Table.readBack] at h
      split_ifs at h
      · cases h
      · exact (Except.error.inj h).symm

lemma Layout.get_error {names : Option (List String)} {e : Error}
    (h : Layout.get table key names = .error e) : ¬e.IsContention := by
  rw [Layout.get] at h
  rintro ⟨_, _, rfl⟩
  split_ifs at h
  · rcases bind_eq_error.mp h with h | ⟨current, -, h⟩
    · cases Table.load_error h
    · cases h
  · cases h

/-- A guarded write of a text may be missed, but not for contention. -/
lemma Layout.update_error {x : Float} {guard : Condition} (hguard : Guarded name x guard)
    {t : String} {e : Error} (h : layout.update table key [(name, .text t)] [guard] = .error e)
    (hmiss : e.isMiss = false) : ¬e.IsContention := by
  rw [Layout.update] at h
  rintro ⟨_, _, rfl⟩
  split_ifs at h
  · rcases bind_eq_error.mp h with h | ⟨current, -, h⟩
    · cases Table.load_error h
    · rcases bind_eq_error.mp h with h | ⟨_, -, h⟩
      · rw [hguard.check_error h] at hmiss
        cases hmiss
      · dsimp only at h
        split_ifs at h
        · rw [Layout.writeIndex] at h
          split_ifs at h <;> cases h
        · cases h
  · cases h

/-! ## Increments step by step -/

lemma Program.lift_bind {α β : Type} (result : Except Error α) (k : α → Except Error β) :
    Program.lift (result >>= k) = Program.lift result >>= fun a => Program.lift (k a) := by
  cases result <;> rfl

lemma Program.lift_pure {α : Type} (a : α) : Program.lift (pure a) = pure a := rfl

section Steps

variable {client : Client}

/-- What an attempt makes of its write. -/
def attemptOutcome (sum : Float) : Except Error Unit → Program (Option Float)
  | .ok () => pure (some sum)
  | .error e => if e.isMiss then pure none else throw e

/-- An attempt reads the item, and writes what it made of it under a guard. -/
lemma tryIncrement_eq (key member : String) (delta : Float) :
    SortedSet.tryIncrement client key member delta = (do
      let found ← Program.perform (.get ⟨key, member⟩ (some [client.settings.scoreName]))
      let attempt ← Program.lift (attemptAfter client.settings.scoreName delta found)
      let written ←
        (SortedSet.writeScore client key member attempt.encoded [attempt.guard]).attempt
      attemptOutcome attempt.sum written) := by
  rw [SortedSet.tryIncrement, SortedSet.score, bind_assoc]
  refine congrArg (Program.perform _ >>= ·) (funext fun found => ?_)
  rw [attemptAfter, guardAfter]
  rcases found.bind (·.get? client.settings.scoreName) with _ | ⟨encoded⟩ | _
  all_goals
    simp only [Program.lift_bind, Program.lift_pure, bind_assoc, pure_bind, if_true, if_false,
      Bool.false_eq_true]
    rfl

/-- How an increment goes on after its write. -/
def afterWrite (sum : Float) (again : Program Float) : Except Error Unit → Program Float
  | .ok () => .done (.ok sum)
  | .error e => if e.isMiss then again else .done (.error e)

/-- **An increment step by step**: if the guard of an attempt is missed, it starts over. -/
lemma incrementWithin_succ (key member : String) (delta : Float) (attempts : ℕ) :
    SortedSet.incrementWithin client key member delta (attempts + 1) =
      .call (.get ⟨key, member⟩ (some [client.settings.scoreName])) fun reply =>
        match reply >>= attemptAfter client.settings.scoreName delta with
        | .error e => .done (.error e)
        | .ok attempt =>
          .call (.update ⟨key, member⟩ [(client.settings.scoreName, .text attempt.encoded)]
              [attempt.guard])
            (afterWrite attempt.sum
              (SortedSet.incrementWithin client key member delta attempts)) := by
  rw [SortedSet.incrementWithin, tryIncrement_eq]
  refine congrArg (Program.call _) (funext fun reply => ?_)
  cases reply with
  | error e => rfl
  | ok found =>
      change bind (Program.lift (attemptAfter client.settings.scoreName delta found) >>= _) _ =
        match attemptAfter client.settings.scoreName delta found with
        | .error e => _
        | .ok attempt => _
      cases attemptAfter client.settings.scoreName delta found with
      | error e => rfl
      | ok attempt =>
          refine congrArg (Program.call _) (funext fun written => ?_)
          cases written with
          | ok _ => rfl
          | error e =>
              change (if e.isMiss then pure none else throw e : Program (Option Float)) >>= _ =
                if e.isMiss then _ else _
              split_ifs <;> rfl

end Steps

/-! ## What increments do -/

variable {ι : Type}

/-- A call that wrote to an address the sum of the score there and an increment. -/
structure Adds (layout : Layout) (name : String) (key : ItemKey) (delta : Float)
    (e : Event ι Table) : Prop where
  changed : e.changed layout.store = some key
  sum : ∃ t, Score.encode (e.before.scoreAt name key + delta) = .ok t ∧
    (e.after layout.store).attribute? key name = some (.text t)

/-- What an increment of so many attempts has done by the calls it made: it wrote once if it
returned, nothing if not, and tried as often as it could if it gave up. -/
structure Tried (layout : Layout) (name : String) (key : ItemKey) (delta : Float) (attempts : ℕ)
    (events : List (Event ι Table)) (left : Program Float) : Prop where
  returned : ∀ x, left = .done (.ok x) →
    ∃ e, writesOf layout.store events = [e] ∧
      Adds layout name key delta e ∧ x = e.before.scoreAt name key + delta
  unwritten : (∀ x, left ≠ .done (.ok x)) →
    writesOf layout.store events = []
  gaveUp : ∀ e, left = .done (.error e) → e.IsContention →
    (events.filter fun e => e.call.method = .update).length = attempts

namespace Tried

variable {attempts : ℕ} {events : List (Event ι Table)} {left : Program Float}

/-- An increment that is still under way. -/
lemma under_way {c : Call} {next : Except Error c.Reply → Program Float}
    (h : writesOf layout.store events = []) :
    Tried layout name key delta attempts events (.call c next) where
  returned _ hleft := by cases hleft
  unwritten _ := h
  gaveUp _ hleft := by cases hleft

/-- An increment that failed for another reason than contention. -/
lemma failed {e : Error} (he : ¬e.IsContention)
    (h : writesOf layout.store events = []) :
    Tried layout name key delta attempts events (.done (.error e)) where
  returned _ hleft := by cases hleft
  unwritten _ := h
  gaveUp _ hleft hcontention := by
    cases hleft
    exact absurd hcontention he

/-- An increment whose last call was its write. -/
lemma wrote {e : Event ι Table} {x : Float} (hadds : Adds layout name key delta e)
    (hx : x = e.before.scoreAt name key + delta)
    (h : writesOf layout.store events = [e]) :
    Tried layout name key delta attempts events (.done (.ok x)) where
  returned _ hleft := by
    cases hleft
    exact ⟨e, h, hadds, hx⟩
  unwritten hleft := absurd rfl (hleft _)
  gaveUp _ hleft := by cases hleft

/-- What an increment wrote is its sum, with which it returned. -/
lemma of_mem (h : Tried layout name key delta attempts events left) {e : Event ι Table}
    (he : e ∈ writesOf layout.store events) :
    ∃ x, Adds layout name key delta e ∧ left = .done (.ok x) := by
  by_cases hleft : ∃ x, left = .done (.ok x)
  · obtain ⟨x, hx⟩ := hleft
    obtain ⟨e', hwrites, hadds, -⟩ := h.returned x hx
    rw [hwrites] at he
    exact ⟨x, List.mem_singleton.mp he ▸ hadds, hx⟩
  · rw [h.unwritten (not_exists.mp hleft)] at he
    exact absurd he List.not_mem_nil

/-- An increment that has missed its guard once, and went on. -/
lemma retry {read write : Event ι Table} (h : Tried layout name key delta attempts events left)
    (hread : read.changed layout.store = none) (hget : read.call.method = .get)
    (hwrite : write.changed layout.store = none) (hupdate : write.call.method = .update) :
    Tried layout name key delta (attempts + 1) (read :: write :: events) left := by
  have hfilter : writesOf layout.store (read :: write :: events) =
      writesOf layout.store events := by
    rw [writesOf, List.filter_cons_of_neg (by rw [hread]; exact Bool.false_ne_true),
      List.filter_cons_of_neg (by rw [hwrite]; exact Bool.false_ne_true), writesOf]
  refine ⟨fun x hleft => ?_, fun hleft => hfilter.trans (h.unwritten hleft), fun e hleft he => ?_⟩
  · rw [hfilter]
    exact h.returned x hleft
  · rw [List.filter_cons_of_neg (by simp [hget]), List.filter_cons_of_pos (by simp [hupdate]),
      List.length_cons, h.gaveUp e hleft he]

end Tried

/-- A read changes nothing. -/
lemma changed_get (i : ι) (names : Option (List String)) (s : Table) :
    Event.changed layout.store ⟨i, .get key names, s⟩ = none :=
  ite_self _

lemma store_update_ok {updates : Attributes} {conditions : List Condition}
    (h : layout.update table key updates conditions = .ok table') :
    layout.store (.update key updates conditions) table = (.ok (), table') :=
  Layout.commit_eq_ok.mpr h

lemma store_update_error {updates : Attributes} {conditions : List Condition} {e : Error}
    (h : layout.update table key updates conditions = .error e) :
    layout.store (.update key updates conditions) table = (.error e, table) := by
  change Layout.commit table (layout.update table key updates conditions) = _
  rw [h]
  rfl

/-- Nor does a write that fails. -/
lemma changed_update_error {updates : Attributes} {conditions : List Condition} {e : Error} (i : ι)
    (h : layout.update table key updates conditions = .error e) :
    Event.changed layout.store ⟨i, .update key updates conditions, table⟩ = none := by
  rw [Event.changed, Event.reply, store_update_error h]
  rfl

/-- A guarded write that was made adds to the score that is there. -/
lemma adds_update {i : ι} {s s' : Table} {old sum : Float} {guard : Condition} {encoded : String}
    (hname : layout.IsAttribute name) (hguard : Guarded name old guard) (hsum : sum = old + delta)
    (hencode : Score.encode sum = .ok encoded)
    (h : layout.update s key [(name, .text encoded)] [guard] = .ok s') :
    sum = s.scoreAt name key + delta ∧
      Adds layout name key delta ⟨i, .update key [(name, .text encoded)] [guard], s⟩ := by
  have hstore := store_update_ok h
  have hold := hguard.scoreAt_eq hname (Layout.update_ok h).1
  have hvalue : s'.attribute? key name = some (.text encoded) := by
    rw [Layout.attribute?_update h, if_pos rfl, Assoc.latest?, Assoc.latest?, Option.none_or,
      if_pos rfl, Option.some_or]
  refine ⟨by rw [hold, hsum], ?_, encoded, ?_, ?_⟩
  · rw [Event.changed, Event.reply, hstore]
    rfl
  · change Score.encode (s.scoreAt name key + delta) = _
    rw [hold, ← hsum, hencode]
  · rw [Event.after, hstore]
    exact hvalue

/-- An increment that has read the item tries to write, and starts over if the guard is missed. -/
lemma Tried.of_attempt {old sum : Float} {guard : Condition} {encoded : String}
    {again left : Program Float} {attempts : ℕ} {read : Event ι Table}
    {events : List (Event ι Table)}
    (hname : layout.IsAttribute name) (hguard : Guarded name old guard) (hsum : sum = old + delta)
    (hencode : Score.encode sum = .ok encoded) (hread : read.changed layout.store = none)
    (hget : read.call.method = .get)
    (hagain : ∀ e rest, events = e :: rest → Made layout.store again rest left →
      Tried layout name key delta attempts rest left)
    (h : Made layout.store (.call (.update key [(name, .text encoded)] [guard])
      (afterWrite sum again)) events left) :
    Tried layout name key delta (attempts + 1) (read :: events) left := by
  cases h with
  | nil => exact .under_way (by simp [writesOf, hread])
  | @cons i _ s _ rest _ h =>
      cases hupdate : layout.update s key [(name, .text encoded)] [guard] with
      | ok s' =>
          rw [store_update_ok hupdate] at h
          cases h
          obtain ⟨hscore, hadds⟩ := adds_update (i := i) hname hguard hsum hencode hupdate
          refine .wrote hadds hscore ?_
          rw [writesOf, List.filter_cons_of_neg (by simp [hread]),
            List.filter_cons_of_pos (by rw [hadds.changed]; rfl), List.filter_nil]
      | error e =>
          have hunchanged := changed_update_error i hupdate
          rw [store_update_error hupdate, afterWrite] at h
          split_ifs at h with hmiss
          · exact (hagain _ rest rfl h).retry hread hget hunchanged rfl
          · cases h
            exact .failed (Layout.update_error hguard hupdate (Bool.eq_false_of_not_eq_true hmiss))
              (by simp [writesOf, hread, hunchanged])

/-- **What an increment does**, whatever comes between its calls. -/
theorem tried_incrementWithin {client : Client} {key member : String}
    (hname : layout.IsAttribute client.settings.scoreName) {attempts : ℕ}
    {events : List (Event ι Table)} {left : Program Float}
    (h : Made layout.store (SortedSet.incrementWithin client key member delta attempts) events left)
    (hscores : ∀ e ∈ events, ScoresEncoded client.settings.scoreName e.before) :
    Tried layout client.settings.scoreName ⟨key, member⟩ delta attempts events left := by
  induction attempts generalizing events with
  | zero =>
      cases h
      exact ⟨fun _ hleft => (by cases hleft), fun _ => rfl, fun _ _ _ => rfl⟩
  | succ attempts ih =>
      rw [incrementWithin_succ] at h
      cases h with
      | nil => exact .under_way rfl
      | @cons i _ s _ rest _ h =>
          have hreply : (layout.store (.get ⟨key, member⟩ (some [client.settings.scoreName])) s).1 =
            Layout.get s ⟨key, member⟩ (some [client.settings.scoreName]) := rfl
          rw [hreply] at h
          dsimp only at h
          cases hattempt : Layout.get s ⟨key, member⟩ (some [client.settings.scoreName]) >>=
              attemptAfter client.settings.scoreName delta with
          | error e =>
              rw [hattempt] at h
              cases h
              refine .failed ?_ (by simp [writesOf, changed_get])
              rcases bind_eq_error.mp hattempt with hget | ⟨found, -, hattempt⟩
              · exact Layout.get_error hget
              · exact attemptAfter_error hattempt
          | ok attempt =>
              rw [hattempt] at h
              dsimp only at h
              obtain ⟨found, hget, hattempt⟩ := bind_eq_ok.mp hattempt
              have hread := hscores _ (List.mem_cons_self ..) ⟨key, member⟩
              rw [← Layout.get_ok hget] at hread
              obtain ⟨old, hguard, hsum, hencode⟩ := attemptAfter_ok hread hattempt
              refine .of_attempt hname hguard hsum hencode (changed_get _ _ _) rfl ?_ h
              intro e rest' hrest h'
              exact ih h' fun e he => hscores e
                (List.mem_cons_of_mem _ (hrest ▸ List.mem_cons_of_mem _ he))

/-- What an increment does, also one by NaN. -/
lemma tried_increment {client : Client} {key member : String}
    (hname : layout.IsAttribute client.settings.scoreName) {events : List (Event ι Table)}
    {left : Program Float}
    (h : Made layout.store (SortedSet.increment client key member delta) events left)
    (hscores : ∀ e ∈ events, ScoresEncoded client.settings.scoreName e.before) :
    Tried layout client.settings.scoreName ⟨key, member⟩ delta client.settings.maxAttempts.toNat
      events left := by
  rw [SortedSet.increment] at h
  split_ifs at h
  · cases h
    exact .failed (by rintro ⟨_, _, ⟨⟩⟩) rfl
  · exact tried_incrementWithin hname h hscores

/-! ## Sums -/

/-- A call that does not change an item leaves its attributes. -/
lemma attribute?_unchanged {e : Event ι Table} (h : e.changed layout.store ≠ some key) :
    (e.after layout.store).attribute? key name = e.before.attribute? key name := by
  obtain ⟨i, c, s⟩ := e
  have hstep := layout.step_store c s
  change (if (layout.store c s).1.isOk then c.target? else none) ≠ some key at h
  change (layout.store c s).2.attribute? key name = s.attribute? key name
  generalize (layout.store c s).1.isOk = ok, (layout.store c s).2 = after at hstep h ⊢
  cases hstep with
  | updated hok =>
      rw [Layout.attribute?_update hok, if_neg fun hkey => h (congrArg some hkey)]
  | deleted hok =>
      rw [(Layout.delete_ok hok).2, Table.attribute?_remove,
        if_neg fun hkey => h (congrArg some hkey)]
  | _ => rfl

lemma scoreAt_unchanged {e : Event ι Table} (h : e.changed layout.store ≠ some key) :
    (e.after layout.store).scoreAt name key = e.before.scoreAt name key := by
  simp only [Table.scoreAt, attribute?_unchanged h]

/-- What an increment wrote is numerically the sum. -/
lemma Adds.beq {e : Event ι Table} (h : Adds layout name key delta e) :
    ((e.after layout.store).scoreAt name key == e.before.scoreAt name key + delta) = true := by
  obtain ⟨t, hsum, hvalue⟩ := h.sum
  exact (Score.encode_eq_iff (scoreAt_encoded hsum hvalue).2 hsum).mp rfl

/-- **Where only increments write, their sum is left.** -/
theorem scoreAt_chained {events : List (Event ι Table)} {deltas : ι → Float}
    (h : Chained layout.store table events table')
    (hadds : ∀ e ∈ events, e.changed layout.store = some key →
      Adds layout name key (deltas e.process) e)
    {x : Float} (hx : (table.scoreAt name key == x) = true) :
    (table'.scoreAt name key ==
      (writers layout.store key events).foldl (fun x i => x + deltas i) x) = true := by
  induction h generalizing x with
  | nil s => exact hx
  | @cons i c s s' events hrest ih =>
      have hrest' := fun e he => hadds e (List.mem_cons_of_mem _ he)
      by_cases hchanged : Event.changed layout.store ⟨i, c, s⟩ = some key
      · have hadd := hadds _ (List.mem_cons_self ..) hchanged
        obtain ⟨-, hnumber⟩ := Binary64.isNaN_of_beq hadd.beq
        rw [writers_cons_of_eq hchanged, List.foldl_cons]
        exact ih hrest' (Binary64.beq_trans hadd.beq (Score.beq_add hx hnumber))
      · have hsame : (layout.store c s).2.scoreAt name key = s.scoreAt name key :=
          scoreAt_unchanged hchanged
        rw [writers_cons_of_ne hchanged]
        exact ih hrest' (hsame ▸ hx)

/-! ## Shared runs -/

/-- What one of the programs in a shared run is: a command of a client. -/
structure Job where
  client : Client
  command : Command

/-- The program of a job. -/
def Job.program (job : Job) (geometry : Geometry) : Program Answer :=
  job.command.program job.client geometry

/-- Whether a job adds to the score that a member has under a name. -/
structure Job.Increments (job : Job) (name key member : String) (delta : Float) : Prop where
  name : job.client.settings.scoreName = name
  command : job.command = .increment key member delta

section Shared

variable [DecidableEq ι] {geometry : Geometry} {jobs : ι → Job} {events : List (Event ι Table)}
  {left : ι → Program Answer}

section Runs

variable {key member : String} {i : ι}
  (hrun : Interleaved layout.store (fun i => (jobs i).program geometry) table events left table')
  (hjobs : ∀ i, (jobs i).command.isSortedSet = true) (hname : layout.IsAttribute name)
  (hscores : ScoresEncoded name table)

include hrun hjobs hscores

/-- Commands on sorted sets find all scores encoded, whichever of them come in between. -/
lemma scoresEncoded_before : ∀ e ∈ events, ScoresEncoded name e.before := by
  have hcalls : ∀ i, Program.Calls (SetCall (jobs i).client.settings)
      ((jobs i).program geometry) := fun i => Command.calls_sortedSet _ geometry (hjobs i)
  have hbefore := hrun.invariant (I := ScoresEncoded name) hcalls
    (fun _ _ _ hc hs => hs.store hc layout) hscores
  exact fun e he => (hbefore e he).2

include hname

/-- What an increment does in a shared run. -/
lemma tried_shared (hjob : (jobs i).Increments name key member delta) :
    ∃ q, left i = Answer.number <$> q ∧
      Tried layout name ⟨key, member⟩ delta (jobs i).client.settings.maxAttempts.toNat
        (callsOf i events) q := by
  have hbefore : ∀ e ∈ callsOf i events, ScoresEncoded name e.before := fun e he =>
    scoresEncoded_before hrun hjobs hscores e (List.mem_of_mem_filter he)
  have hmade := hrun.made i
  rw [Job.program, hjob.command] at hmade
  obtain ⟨q, hq, hleft⟩ := hmade.of_map
  obtain ⟨rfl, -⟩ := hjob
  exact ⟨q, hleft, tried_increment hname hq hbefore⟩

/-- An increment that returned has written once. -/
lemma returned_wrote (hjob : (jobs i).Increments name key member delta) {x : Float}
    (hx : left i = .done (.ok (.number x))) :
    ∃ e, writesOf layout.store (callsOf i events) = [e] ∧ Adds layout name ⟨key, member⟩ delta e ∧
      x = e.before.scoreAt name ⟨key, member⟩ + delta := by
  obtain ⟨q, hleft, hq⟩ := tried_shared hrun hjobs hname hscores hjob
  obtain ⟨y, hy, hyx⟩ := Program.map_eq_ok (hleft.symm.trans hx)
  obtain rfl : y = x := Answer.number.inj hyx
  exact hq.returned y hy

/-- An increment that wrote has returned. -/
lemma wrote_returned (hjob : (jobs i).Increments name key member delta) {e : Event ι Table}
    (he : e ∈ writesOf layout.store (callsOf i events)) :
    Adds layout name ⟨key, member⟩ delta e ∧ ∃ x, left i = .done (.ok (.number x)) := by
  obtain ⟨q, hleft, hq⟩ := tried_shared hrun hjobs hname hscores hjob
  obtain ⟨x, hadds, hx⟩ := hq.of_mem he
  exact ⟨hadds, x, hleft.trans (hx ▸ rfl)⟩

section Writers

variable {deltas : ι → Float} (hwriters : ∀ i ∈ writers layout.store ⟨key, member⟩ events,
  (jobs i).Increments name key member (deltas i))

include hwriters

/-- Where only increments write, each that wrote did so once. -/
lemma nodup_writers : (writers layout.store ⟨key, member⟩ events).Nodup := by
  refine List.nodup_iff_count_le_one.mpr fun i => ?_
  by_cases hi : i ∈ writers layout.store ⟨key, member⟩ events
  · obtain ⟨e, he, -⟩ := mem_writers.mp hi
    obtain ⟨-, x, hx⟩ := wrote_returned hrun hjobs hname hscores (hwriters i hi) he
    obtain ⟨e', hwrites, -⟩ := returned_wrote hrun hjobs hname hscores (hwriters i hi) hx
    calc (writers layout.store ⟨key, member⟩ events).count i
        ≤ (writesOf layout.store (callsOf i events)).length := count_writers_le
      _ = 1 := by rw [hwrites, List.length_singleton]
  · rw [List.count_eq_zero_of_not_mem hi]
    exact Nat.zero_le 1

/-- Where only increments write, the score is in the end the sum of what they add. -/
lemma scoreAt_writers : (table'.scoreAt name ⟨key, member⟩ ==
    (writers layout.store ⟨key, member⟩ events).foldl (fun x i => x + deltas i)
      (table.scoreAt name ⟨key, member⟩)) = true := by
  have hstart := Binary64.beq_refl (hscores.isNaN_scoreAt ⟨key, member⟩)
  refine scoreAt_chained hrun.chained (fun e he hchanged => ?_) hstart
  have hmem : e ∈ writesOf layout.store (callsOf e.process events) :=
    List.mem_filter.mpr ⟨List.mem_filter.mpr ⟨he, decide_eq_true rfl⟩, by rw [hchanged]; rfl⟩
  have hwriter := hwriters _ (mem_writers.mpr ⟨e, hmem, hchanged⟩)
  exact (wrote_returned hrun hjobs hname hscores hwriter hmem).1

end Writers

end Runs

end Shared

/-- Two clients that add one to the same score. -/
def contenders (_ : Bool) : Job :=
  ⟨⟨(Installation.mk "ranked" "").defaults, 0⟩, .increment "k" "m" 1.0⟩

/-- The run in which both read the score before one of them writes. -/
def contended : List (Event Bool Table) × (Bool → Program Answer) × Table :=
  Program.interleave (Installation.mk "ranked" "").defaults.layout.store
    (fun i => (contenders i).program .sphere) {} [false, true, false, true, true, true]

end RankedTable

import RankedTable.Command
import RankedTable.Proofs.Except
import RankedTable.Proofs.Store.Calls

/-!
# The calls that commands make

Whatever a store answers, a command writes no more than one attribute at a time: a score, as the
encoding of a double, or a position, as a whole number.

* `ReadCall`, `SetCall`, `ClientCall` — the calls that change nothing, those that commands on sorted
  sets make, and those of all commands.
* `SortedSet.calls_…`, `GeoIndex.calls_…` — what each part of a command can call.
* **`Command.calls_read`**, **`Command.calls_sortedSet`**, **`Command.calls_program`** — commands
  make no other calls.
-/

namespace RankedTable

open Program

/-- The calls that commands on sorted sets make under some settings. -/
inductive SetCall (settings : Settings) : Call → Prop
  | get (key : ItemKey) (names : Option (List String)) : SetCall settings (.get key names)
  | query (request : QueryRequest) : SetCall settings (.query request)
  | delete (key : ItemKey) (conditions : List Condition) : SetCall settings (.delete key conditions)
  | score (key : ItemKey) (conditions : List Condition) {x : Float} {encoded : String}
      (h : Score.encode x = .ok encoded) :
      SetCall settings (.update key [(settings.scoreName, .text encoded)] conditions)

/-- The calls that commands make under some settings. -/
inductive ClientCall (settings : Settings) : Call → Prop
  | get (key : ItemKey) (names : Option (List String)) : ClientCall settings (.get key names)
  | query (request : QueryRequest) : ClientCall settings (.query request)
  | delete (key : ItemKey) (conditions : List Condition) :
      ClientCall settings (.delete key conditions)
  | score (key : ItemKey) (conditions : List Condition) {x : Float} {encoded : String}
      (h : Score.encode x = .ok encoded) :
      ClientCall settings (.update key [(settings.scoreName, .text encoded)] conditions)
  | location (key : ItemKey) (conditions : List Condition) (cell : ℤ) :
      ClientCall settings (.update key [(settings.locationName, .ofInt cell)] conditions)

lemma SetCall.clientCall {settings : Settings} {c : Call} (h : SetCall settings c) :
    ClientCall settings c := by
  cases h with
  | get key names => exact .get key names
  | query request => exact .query request
  | delete key conditions => exact .delete key conditions
  | score key conditions hx => exact .score key conditions hx

lemma liftScore_eq_ok {α : Type} {result : Except ScoreError α} {a : α}
    (h : liftScore result = .ok a) : result = .ok a := by
  cases result with
  | ok b => exact congrArg Except.ok (Except.ok.inj h)
  | error e => cases h

/-- The calls that change nothing. -/
inductive ReadCall : Call → Prop
  | get (key : ItemKey) (names : Option (List String)) : ReadCall (.get key names)
  | query (request : QueryRequest) : ReadCall (.query request)

variable {client : Client} {P : Call → Prop}

/-! ## Sorted sets -/

namespace SortedSet

section Writes

lemma calls_add {key : String} {flags : AddFlags}
    (hwrite : ∀ member x encoded, Score.encode x = .ok encoded →
      P (.update ⟨key, member⟩ [(client.settings.scoreName, .text encoded)]
        (AddFlags.conditions flags)))
    (members : Assoc Float) : Calls P (add client key members flags) := by
  refine calls_lift_bind fun encoded hencoded => calls_countWrites ?_ 0
  intro write hwrites
  obtain ⟨⟨member, text⟩, hmem, rfl⟩ := List.mem_map.mp hwrites
  obtain ⟨⟨name, x⟩, -, hx⟩ := mem_of_mapM_ok hencoded hmem
  obtain ⟨t, ht, htext⟩ := bind_eq_ok.mp hx
  obtain ⟨-, rfl⟩ := Prod.mk.inj (Except.ok.inj htext)
  exact calls_perform (hwrite _ x t (liftScore_eq_ok ht))

lemma calls_remove {key : String} (hdelete : ∀ member, P (.delete ⟨key, member⟩ [.itemPresent]))
    (members : List String) : Calls P (remove key members) := by
  refine calls_countWrites ?_ 0
  intro write hwrite
  obtain ⟨member, -, rfl⟩ := List.mem_map.mp hwrite
  exact calls_perform (hdelete _)

lemma calls_removeFetched {key : String}
    (hdelete : ∀ member, P (.delete ⟨key, member⟩ [.itemPresent])) (members : Assoc Float) :
    Calls P (removeFetched key members) :=
  calls_withSoFar _ (calls_remove hdelete _)

variable (hget : ∀ key, P (.get key (some [client.settings.scoreName])))

include hget

lemma calls_score (key member : String) : Calls P (score client key member) := by
  refine calls_bind (calls_perform (hget _)) fun found => ?_
  split
  · exact calls_bind (calls_lift _) fun _ => calls_pure _
  · exact calls_pure _

variable (hwrite : ∀ key guard x encoded, guard.subject = client.settings.scoreName →
  Score.encode x = .ok encoded →
    P (.update key [(client.settings.scoreName, .text encoded)] [guard]))

include hwrite

lemma calls_tryIncrement (key member : String) (delta : Float) :
    Calls P (tryIncrement client key member delta) := by
  refine calls_bind (calls_score hget key member) fun found => ?_
  obtain ⟨old, found⟩ := found
  cases found
  case' true => refine calls_bind (calls_lift _) fun text => ?_
  all_goals
    -- whichever guard it is, it is on the score
    refine calls_lift_bind fun guard hguard => ?_
    obtain rfl := Except.ok.inj hguard
    refine calls_lift_bind fun encoded hencoded => ?_
    refine calls_bind (calls_attempt (calls_perform (hwrite _ _ _ encoded rfl
      (liftScore_eq_ok hencoded)))) fun result => ?_
    cases result with
    | ok _ => exact calls_pure _
    | error e =>
        dsimp only
        split_ifs
        · exact calls_pure _
        · exact calls_throw _

lemma calls_increment (key member : String) (delta : Float) :
    Calls P (increment client key member delta) := by
  have hwithin : ∀ attempts, Calls P (incrementWithin client key member delta attempts) := by
    intro attempts
    induction attempts with
    | zero => exact calls_throw _
    | succ attempts ih =>
        refine calls_bind (calls_tryIncrement hget hwrite key member delta) fun result => ?_
        cases result with
        | some x => exact calls_pure _
        | none => exact ih
  rw [increment]
  split
  · exact calls_throw _
  · exact hwithin _

end Writes

section Ranges

variable (hquery : ∀ request, P (.query request))

include hquery

lemma calls_count (scan : Scan) : Calls P scan.count :=
  calls_countPages scan hquery _ _ _

lemma calls_countByScore (key : String) (low high : Option Float) :
    Calls P (countByScore client key low high) :=
  calls_bind (calls_lift _) fun _ => calls_count hquery _

lemma calls_rank (hget : ∀ key, P (.get key (some [client.settings.scoreName])))
    (key member : String) (forward : Bool) : Calls P (rank client key member forward) := by
  refine calls_bind (calls_score hget key member) fun ⟨x, found⟩ => ?_
  cases found with
  | true =>
      cases forward with
      | true => exact calls_bind (calls_countByScore hquery _ _ _) fun _ => calls_pure _
      | false => exact calls_bind (calls_countByScore hquery _ _ _) fun _ => calls_pure _
  | false => exact calls_pure _

lemma calls_fetch (request : QueryRequest) (offset count : ℤ) :
    Calls P (fetch client request offset count) :=
  calls_collect _ _ _ hquery

lemma calls_rangeByScore (key : String) (low high : Option Float) (offset count : ℤ)
    (forward : Bool) : Calls P (rangeByScore client key low high offset count forward) :=
  calls_bind (calls_lift _) fun _ => calls_fetch hquery _ _ _

lemma calls_rangeFrom (key : String) (start stop : ℤ) (forward : Bool) :
    Calls P (rangeFrom client key start stop forward) := by
  have hrange := @calls_rangeByScore client P hquery key
  rw [rangeFrom]
  by_cases hnegative : start < 0 ∧ stop < 0
  · rw [if_pos hnegative]
    split
    · exact calls_pure _
    · exact calls_bind (hrange _ _ _ _ _) fun _ => calls_pure _
  · rw [if_neg hnegative]
    by_cases hstop : stop < 0
    · rw [if_pos hstop]
      refine calls_bind (hrange _ _ _ _ _) fun boundary => ?_
      split
      · exact calls_pure _
      · split
        · exact hrange _ _ _ _ _
        · exact hrange _ _ _ _ _
    · rw [if_neg hstop]
      split
      · exact calls_pure _
      · exact hrange _ _ _ _ _

lemma calls_rangeByRank (key : String) (start stop : ℤ) (forward : Bool) :
    Calls P (rangeByRank client key start stop forward) := by
  rw [rangeByRank]
  split_ifs
  · exact calls_bind (calls_count hquery _) fun _ => calls_rangeFrom hquery _ _ _ _
  · exact calls_rangeFrom hquery _ _ _ _

lemma calls_pop {key : String} (hdelete : ∀ member, P (.delete ⟨key, member⟩ [.itemPresent]))
    (count : ℤ) (lowest : Bool) : Calls P (pop client key count lowest) := by
  rw [pop]
  split_ifs
  · exact calls_pure _
  · exact calls_bind (calls_rangeByScore hquery _ _ _ _ _ _) fun _ =>
      calls_bind (calls_removeFetched hdelete _) fun _ => calls_pure _

end Ranges

end SortedSet

/-! ## Geo indexes -/

namespace GeoIndex

variable {geometry : Geometry}

lemma calls_add
    (hwrite : ∀ key cell, P (.update key [(client.settings.locationName, .ofInt cell)] []))
    (key : String) (members : Assoc Location) : Calls P (add client geometry key members) := by
  refine calls_countWrites ?_ 0
  intro write hwrites
  obtain ⟨⟨member, location⟩, -, rfl⟩ := List.mem_map.mp hwrites
  exact calls_bind (calls_lift _) fun cell => calls_perform (hwrite _ cell)

lemma calls_positionsAfter (hget : ∀ key, P (.get key (some [client.settings.locationName])))
    (key : String) (found : Assoc Location) (members : List String) :
    Calls P (positionsAfter client geometry key found members) := by
  induction members generalizing found with
  | nil => exact calls_pure _
  | cons member rest ih =>
      refine calls_bind (calls_withSoFar _ (calls_perform (hget _))) fun item => ?_
      cases item
      case' some item => refine calls_bind (calls_lift _) fun location => ?_
      case' none => refine calls_bind (calls_pure _) fun location => ?_
      all_goals
        cases location with
        | some location => exact ih _
        | none => exact ih _

lemma calls_searchIntervals (hquery : ∀ request, P (.query request)) (key : String) (disc : Disc)
    (found : Assoc Location) (intervals : List (ℕ × ℕ)) :
    Calls P (searchIntervals client geometry key disc found intervals) := by
  induction intervals generalizing found with
  | nil => exact calls_pure _
  | cons interval rest ih =>
      refine calls_bind (calls_foldPages _ _ hquery _ _ _ _) fun ⟨found, error⟩ => ?_
      cases error with
      | some e => exact calls_throw _
      | none =>
          dsimp only
          split_ifs
          · exact calls_pure _
          · exact ih _

lemma calls_radius (hquery : ∀ request, P (.query request)) (key : String) (disc : Disc) :
    Calls P (radius client geometry key disc) := by
  rw [radius]
  split_ifs
  · exact calls_throw _
  · exact calls_bind (calls_lift _) fun _ => calls_searchIntervals hquery _ _ _ _

end GeoIndex

/-! ## Commands -/

/-- Whether a command is one on sorted sets, and not on positions. -/
def Command.isSortedSet : Command → Bool
  | addLocations .. | positions .. | distance .. | geohashes .. | radius .. | radiusByMember .. =>
    false
  | _ => true

/-- Whether a command only reads. -/
def Command.isRead : Command → Bool
  | add .. | increment .. | remove .. | removeByScore .. | removeByName .. | removeByRank ..
  | pop .. | addLocations .. => false
  | _ => true

/-- **Commands that read change nothing**, whatever the store answers. -/
theorem Command.calls_read (client : Client) (geometry : Geometry) {command : Command}
    (h : command.isRead = true) : Calls ReadCall (command.program client geometry) := by
  have hquery : ∀ request, ReadCall (.query request) := .query
  have hpositions := @GeoIndex.calls_positionsAfter client ReadCall geometry fun key => .get key _
  cases command with
  | score key member =>
      exact calls_bind (SortedSet.calls_score (fun key => .get key _) _ _) fun _ => calls_pure _
  | cardinality key => exact calls_map _ (SortedSet.calls_count hquery _)
  | countByScore key low high => exact calls_map _ (SortedSet.calls_countByScore hquery _ _ _)
  | countByName key low high => exact calls_map _ (SortedSet.calls_count hquery _)
  | rank key member forward =>
      exact calls_bind (SortedSet.calls_rank hquery (fun key => .get key _) _ _ _) fun _ =>
        calls_pure _
  | rangeByRank key start stop forward =>
      exact calls_map _ (SortedSet.calls_rangeByRank hquery _ _ _ _)
  | rangeByScore key low high offset count forward =>
      exact calls_map _ (SortedSet.calls_rangeByScore hquery _ _ _ _ _ _)
  | rangeByName key low high offset count forward =>
      exact calls_map _ (SortedSet.calls_fetch hquery _ _ _)
  | combine how => exact calls_throw _
  | positions key members => exact calls_map _ (hpositions _ _ _)
  | distance key first second unit =>
      refine calls_bind (calls_bind (hpositions _ _ _) fun found => ?_) fun _ => calls_pure _
      split
      · exact calls_bind (calls_lift _) fun _ => calls_pure _
      · exact calls_pure _
  | geohashes key members =>
      exact calls_map _ (calls_bind (hpositions _ _ _) fun _ => calls_lift _)
  | radius key disc => exact calls_map _ (GeoIndex.calls_radius hquery _ _)
  | radiusByMember key member limit unit count =>
      refine calls_map _ (calls_bind (hpositions _ _ _) fun found => ?_)
      split
      · exact GeoIndex.calls_radius hquery _ _
      · exact calls_pure _
  | _ => cases h

lemma ReadCall.setCall {settings : Settings} {c : Call} (h : ReadCall c) : SetCall settings c := by
  cases h with
  | get key names => exact .get key names
  | query request => exact .query request

/-- **Commands on sorted sets write nothing but scores**, whatever the store answers. -/
theorem Command.calls_sortedSet (client : Client) (geometry : Geometry) {command : Command}
    (h : command.isSortedSet = true) :
    Calls (SetCall client.settings) (command.program client geometry) := by
  by_cases hread : command.isRead = true
  · exact (Command.calls_read client geometry hread).imp fun _ => ReadCall.setCall
  have hquery : ∀ request, SetCall client.settings (.query request) := .query
  have hdelete : ∀ key member, SetCall client.settings (.delete ⟨key, member⟩ [.itemPresent]) :=
    fun key member => .delete ⟨key, member⟩ _
  cases command with
  | add key members flags =>
      exact calls_map _ (SortedSet.calls_add (fun _ _ _ hx => .score _ _ hx) _)
  | increment key member delta =>
      exact calls_map _ (SortedSet.calls_increment (fun key => .get key _)
        (fun _ _ _ _ _ hx => .score _ _ hx) _ _ _)
  | remove key members => exact calls_map _ (SortedSet.calls_remove (hdelete key) _)
  | removeByScore key low high =>
      exact calls_map _ (calls_bind (SortedSet.calls_rangeByScore hquery _ _ _ _ _ _) fun _ =>
        SortedSet.calls_removeFetched (hdelete key) _)
  | removeByName key low high =>
      exact calls_map _ (calls_bind (SortedSet.calls_fetch hquery _ _ _) fun _ =>
        SortedSet.calls_removeFetched (hdelete key) _)
  | removeByRank key start stop =>
      exact calls_map _ (calls_bind (SortedSet.calls_rangeByRank hquery _ _ _ _) fun _ =>
        SortedSet.calls_removeFetched (hdelete key) _)
  | pop key count lowest => exact calls_map _ (SortedSet.calls_pop hquery (hdelete key) _ _)
  | addLocations key members => cases h
  | _ => exact absurd rfl hread

/-- **Commands make no other calls than those of clients**, whatever the store answers. -/
theorem Command.calls_program (client : Client) (geometry : Geometry) (command : Command) :
    Calls (ClientCall client.settings) (command.program client geometry) := by
  by_cases hset : command.isSortedSet = true
  · exact (Command.calls_sortedSet client geometry hset).imp fun _ => SetCall.clientCall
  by_cases hread : command.isRead = true
  · exact (Command.calls_read client geometry hread).imp fun _ hc => hc.setCall.clientCall
  cases command with
  | addLocations key members =>
      exact calls_map _ (GeoIndex.calls_add (fun key cell => .location key _ cell) _ _)
  | _ => first | exact absurd rfl hset | exact absurd rfl hread

end RankedTable

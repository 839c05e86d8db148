import RankedTable.Proofs.Command.Session
import RankedTable.Proofs.Geo.SharedLocations
import RankedTable.Proofs.SortedSet.SharedScores

/-!
# Scores and locations do not interfere

A sorted set and a geo index may share a collection: they write different attributes of the same
items.  Leaving the locations out of a session leaves a table with fewer items but the same scores,
and leaving the scores out one with the same locations; so the answers about the others stay.

* `Command.onScores`, `Command.onLocations` — the commands whose answers are told by the scores, and
  by the locations.
* `Sharing.alike_onScores`, `Sharing.alike_onLocations` — they are answered alike in tables that
  share these.
* `calls_spare_score`, `calls_spare_location` — the commands that leave them alone.
* **`scores_and_locations_apart`** — sessions without the one have the same answers about the other.
-/

namespace RankedTable

open Program (Alike Still alike_done)

/-! ## Sorts of commands -/

/-- Whether the answer to a command, and what it does to scores, are told by the scores alone.  An
addition without flags does not look at what is there.  Positions of which only the first counts
from the end are told by the number of items. -/
def Command.onScores : Command → Bool
  | add _ _ flags => flags = {}
  | rangeByRank _ start stop _ => ¬(start < 0 ∧ 0 ≤ stop)
  | score .. | countByScore .. | increment .. | rank .. | rangeByScore .. | removeByScore ..
  | pop .. => true
  | _ => false

/-- Whether the answer to a command, and what it does to locations, are told by the locations
alone. -/
def Command.onLocations : Command → Bool
  | addLocations .. | positions .. | distance .. | geohashes .. | radius .. | radiusByMember .. =>
    true
  | _ => false

/-- Whether a command writes scores. -/
def Command.writesScores : Command → Bool
  | add .. | increment .. => true
  | _ => false

/-- Whether a command writes locations. -/
def Command.writesLocations : Command → Bool
  | addLocations .. => true
  | _ => false

lemma Command.onScores_of_writesLocations {command : Command}
    (h : command.writesLocations = true) : command.onScores = false := by
  cases command with
  | addLocations key members => rfl
  | _ => cases h

lemma Command.onLocations_of_writesScores {command : Command} (h : command.writesScores = true) :
    command.onLocations = false := by
  cases command with
  | add key members flags => rfl
  | increment key member delta => rfl
  | _ => cases h

/-! ## Commands on both sides -/

namespace Sharing

variable {settings : Settings} {s t : Table} {m n : ℕ} {command : Command}

/-- **In tables that share the scores, commands on scores are answered alike**, and leave tables
that share them. -/
theorem alike_onScores (h : Sharing settings settings.scoreName s t) (hnames : settings.NamesApart)
    (hs : s.pageBound ≤ m) (ht : t.pageBound ≤ n) (geometry : Geometry)
    (hcommand : command.onScores = true) :
    settings.Alike (Sharing settings settings.scoreName)
      (command.program ⟨settings, m⟩ geometry) (command.program ⟨settings, n⟩ geometry) s t := by
  have hrange := fun key low high (offset count : ℤ) forward (_ : True) =>
    h.alike_rangeByScore hs ht key low high offset count forward
  cases command with
  | add key members flags =>
      obtain rfl : flags = {} := of_decide_eq_true hcommand
      exact (h.alike_add hnames key members).map _
  | score key member =>
      exact (h.alike_score key member).still_bind h fun ⟨x, found⟩ => alike_done _ h
  | countByScore key low high => exact ((h.alike_countByScore hs ht key low high).still h).map _
  | increment key member delta => exact (h.alike_increment hnames key member delta).map _
  | rank key member forward =>
      refine (SortedSet.alike_rank (h.alike_score key member)
        (h.alike_countByScore hs ht key) forward).still_bind h fun ⟨x, found⟩ => alike_done _ h
  | rangeByRank key start stop forward =>
      have hsigns : ¬(start < 0 ∧ 0 ≤ stop) := of_decide_eq_true hcommand
      rw [Command.program, Command.program, SortedSet.rangeByRank, SortedSet.rangeByRank,
        if_neg hsigns, if_neg hsigns]
      exact ((SortedSet.alike_rangeFrom (hrange key) (fun _ _ => trivial) (fun _ _ => trivial)
        trivial (fun _ => trivial) forward).still h).map _
  | rangeByScore key low high offset count forward =>
      exact ((hrange key low high offset count forward trivial).still h).map _
  | removeByScore key low high =>
      exact (h.alike_removeByScore hnames hs ht key low high).map _
  | pop key count lowest => exact (h.alike_pop hnames hs ht key count lowest).map _
  | _ => cases hcommand

/-- **In tables that share the locations, commands on locations are answered alike**, and leave
tables that share them. -/
theorem alike_onLocations (h : Sharing settings settings.locationName s t)
    (hnames : settings.NamesApart) (hs : s.pageBound ≤ m) (ht : t.pageBound ≤ n)
    (geometry : Geometry) (hcommand : command.onLocations = true) :
    settings.Alike (Sharing settings settings.locationName)
      (command.program ⟨settings, m⟩ geometry) (command.program ⟨settings, n⟩ geometry) s t := by
  cases command with
  | addLocations key members => exact (h.alike_addLocations geometry hnames key members).map _
  | positions key members => exact ((h.alike_positions geometry key members).still h).map _
  | distance key first second unit =>
      exact (GeoIndex.alike_distance (h.alike_positions geometry key [first, second])
        unit).still_bind h fun ⟨x, found⟩ => alike_done _ h
  | geohashes key members =>
      exact ((GeoIndex.alike_geohashes (h.alike_positions geometry key members)
        (by rfl)).still h).map _
  | radius key disc => exact ((h.alike_radius geometry hs ht key disc).still h).map _
  | radiusByMember key member limit unit count =>
      exact ((GeoIndex.alike_radiusByMember (h.alike_positions geometry key [member]) fun centre =>
        h.alike_radius geometry hs ht key _).still h).map _
  | _ => cases hcommand

end Sharing

/-! ## Commands on one side -/

section Spared

variable {client : Client} {geometry : Geometry} {command : Command}

lemma latest?_singleton_of_ne {name other : String} (hne : name ≠ other) (value : Value) :
    Assoc.latest? [(name, value)] other = none := by
  rw [Assoc.latest?, Assoc.latest?, if_neg hne]
  rfl

/-- Reads leave every attribute alone. -/
lemma calls_spare_of_read (name : String) (hcommand : command.isRead = true) :
    Program.Calls (fun c => ClientCall client.settings c ∧ c.Spares name)
      (command.program client geometry) := by
  refine (Command.calls_read client geometry hcommand).imp fun c hc =>
    ⟨hc.setCall.clientCall, ?_⟩
  cases hc with
  | get key names => exact .get key names
  | query request => exact .query request

/-- Commands that write locations leave the scores alone. -/
lemma calls_spare_score (hne : client.settings.scoreName ≠ client.settings.locationName)
    (hcommand : command.writesLocations = true) :
    Program.Calls (fun c => ClientCall client.settings c ∧ c.Spares client.settings.scoreName)
      (command.program client geometry) := by
  cases command with
  | addLocations key members =>
      exact Program.calls_map _ (GeoIndex.calls_add (fun key cell =>
        ⟨.location key [] cell, .update key [] (latest?_singleton_of_ne hne.symm _)⟩) key members)
  | _ => cases hcommand

/-- Commands that write scores leave the locations alone. -/
lemma calls_spare_location (hne : client.settings.scoreName ≠ client.settings.locationName)
    (hcommand : command.writesScores = true) :
    Program.Calls (fun c => ClientCall client.settings c ∧ c.Spares client.settings.locationName)
      (command.program client geometry) := by
  cases command with
  | add key members flags =>
      exact Program.calls_map _ (SortedSet.calls_add (fun member x encoded hx =>
        ⟨.score ⟨key, member⟩ _ hx, .update ⟨key, member⟩ _ (latest?_singleton_of_ne hne _)⟩)
        members)
  | increment key member delta =>
      exact Program.calls_map _ (SortedSet.calls_increment (fun key => ⟨.get key _, .get key _⟩)
        (fun key guard x encoded _ hx =>
          ⟨.score key _ hx, .update key _ (latest?_singleton_of_ne hne _)⟩) key member delta)
  | _ => cases hcommand

end Spared

/-! ## Sessions -/

section Sessions

variable {settings : Settings} {geometry : Geometry} {journal : List Call} {table : Table}
  {commands : List Command}

/-- Reads on both sides leave tables that still share an attribute. -/
lemma Sharing.answer_read {name : String} {s t : Table} (h : Sharing settings name s t)
    {command : Command} (hread : command.isRead = true) :
    Sharing settings name (s.answer settings geometry command).2
      (t.answer settings geometry command).2 :=
  ((h.run_spares (@calls_spare_of_read ⟨settings, _⟩ geometry _ name hread)).symm.run_spares
    (@calls_spare_of_read ⟨settings, _⟩ geometry _ name hread)).symm

/-- **Commands that leave an attribute alone may be left out of a session**, as far as those are
looked at whose answers are told by the attribute. -/
theorem session_without (name : String) {seen written : Command → Bool}
    (hseen : ∀ command, seen command = true → ∀ {s t : Table}, Sharing settings name s t →
      settings.Alike (Sharing settings name)
        (command.program ⟨settings, s.pageBound⟩ geometry)
        (command.program ⟨settings, t.pageBound⟩ geometry) s t)
    (hwritten : ∀ command, written command = true → seen command = false ∧
      ∀ maxPages, Program.Calls (fun c => ClientCall settings c ∧ c.Spares name)
        (command.program ⟨settings, maxPages⟩ geometry))
    (h : ClientTable settings table)
    (hcommands : ∀ command ∈ commands,
      seen command = true ∨ command.isRead = true ∨ written command = true) :
    ((Connection.embedded settings.layout table).session settings geometry commands).1.filter
        (fun e => seen e.1) =
      ((Connection.embedded settings.layout table).session settings geometry
        (commands.filter fun command => !written command)).1.filter fun e => seen e.1 := by
  refine session_filter (fun command hmem hkept s t hst => ?_) (fun command hmem hleft => ?_)
    (Sharing.refl h name)
  · cases hlooked : seen command with
    | true => exact ⟨fun _ => (hseen command hlooked hst).1, (hseen command hlooked hst).2⟩
    | false =>
        have hread : command.isRead = true := by
          rcases hcommands command hmem with hs | hread | hw
          · rw [hlooked] at hs
            cases hs
          · exact hread
          · rw [hw] at hkept
            cases hkept
        exact ⟨fun hs => absurd hs Bool.false_ne_true, hst.answer_read hread⟩
  · have hwrites : written command = true := by simpa using hleft
    obtain ⟨hunseen, hcalls⟩ := hwritten command hwrites
    exact ⟨hunseen, fun {s t} hst => hst.run_spares (hcalls s.pageBound)⟩

/-- **Scores and locations that share a collection do not interfere**, if the names of the
attributes are apart.  In a session that adds scores without flags, increments, removes by score,
pops, writes locations and reads, leaving out what writes locations changes no answer that is told
by the scores; and in one that writes scores and locations and reads, leaving out what writes scores
changes no answer that is told by the locations. -/
theorem scores_and_locations_apart (h : Reached settings geometry journal table)
    (hnames : settings.NamesApart) (commands : List Command) :
    ((∀ command ∈ commands, command.onScores = true ∨ command.isRead = true ∨
        command.writesLocations = true) →
      ((Connection.embedded settings.layout table).session settings geometry commands).1.filter
          (fun e => e.1.onScores) =
        ((Connection.embedded settings.layout table).session settings geometry
          (commands.filter fun command => !command.writesLocations)).1.filter
            fun e => e.1.onScores) ∧
    ((∀ command ∈ commands, command.onLocations = true ∨ command.isRead = true ∨
        command.writesScores = true) →
      ((Connection.embedded settings.layout table).session settings geometry commands).1.filter
          (fun e => e.1.onLocations) =
        ((Connection.embedded settings.layout table).session settings geometry
          (commands.filter fun command => !command.writesScores)).1.filter
            fun e => e.1.onLocations) := by
  have hne := hnames.score_ne_location
  constructor
  · refine session_without settings.scoreName (fun command hseen {s t} hst => ?_)
      (fun command hwrites => ?_) h.clientTable
    · exact hst.alike_onScores hnames (Nat.le_refl _) (Nat.le_refl _) geometry hseen
    · exact ⟨Command.onScores_of_writesLocations hwrites, fun maxPages =>
        @calls_spare_score ⟨settings, maxPages⟩ geometry command hne hwrites⟩
  · refine session_without settings.locationName (fun command hseen {s t} hst => ?_)
      (fun command hwrites => ?_) h.clientTable
    · exact hst.alike_onLocations hnames (Nat.le_refl _) (Nat.le_refl _) geometry hseen
    · exact ⟨Command.onLocations_of_writesScores hwrites, fun maxPages =>
        @calls_spare_location ⟨settings, maxPages⟩ geometry command hne hwrites⟩

/-- A member that has a location first and is given a score by an increment, and is then popped with
its location. -/
theorem scores_and_locations_apart_popped :
    Reached (Installation.mk "ranked" "").defaults .sphere [] {} ∧
      (Installation.mk "ranked" "").defaults.NamesApart ∧
      ((Connection.embedded (Installation.mk "ranked" "").defaults.layout {}).session
          (Installation.mk "ranked" "").defaults .sphere
          [.addLocations "k" [("a", ⟨Float.ofBits 0, Float.ofBits 0⟩)],
            .increment "k" "a" (Float.ofBits 0x3ff0000000000000), .cardinality "k",
            .pop "k" 1 true]).1.filter (fun e => e.1.onScores) =
        ((Connection.embedded (Installation.mk "ranked" "").defaults.layout {}).session
          (Installation.mk "ranked" "").defaults .sphere
          [.increment "k" "a" (Float.ofBits 0x3ff0000000000000), .cardinality "k",
            .pop "k" 1 true]).1.filter (fun e => e.1.onScores) ∧
      ((Connection.embedded (Installation.mk "ranked" "").defaults.layout {}).session
          (Installation.mk "ranked" "").defaults .sphere
          [.addLocations "k" [("a", ⟨Float.ofBits 0, Float.ofBits 0⟩)],
            .add "k" [("a", Float.ofBits 0)] { onlyNew := true },
            .increment "k" "a" (Float.ofBits 0x3ff0000000000000),
            .positions "k" ["a", "b"]]).1.filter (fun e => e.1.onLocations) =
        ((Connection.embedded (Installation.mk "ranked" "").defaults.layout {}).session
          (Installation.mk "ranked" "").defaults .sphere
          [.addLocations "k" [("a", ⟨Float.ofBits 0, Float.ofBits 0⟩)],
            .positions "k" ["a", "b"]]).1.filter (fun e => e.1.onLocations) := by
  have hnames : (Installation.mk "ranked" "").defaults.NamesApart := by decide
  refine ⟨.empty, hnames, ?_, ?_⟩
  · exact (scores_and_locations_apart .empty hnames _).1 (by simp [Command.onScores,
      Command.isRead, Command.writesLocations])
  · exact (scores_and_locations_apart .empty hnames _).2 (by simp [Command.onLocations,
      Command.isRead, Command.writesScores])

end Sessions

end RankedTable

import RankedTable.Proofs.Command.Reached
import RankedTable.Proofs.Store.BreakingOff
import RankedTable.Proofs.Table.Transaction

/-!
# Batches that stop

A batch makes its writes one after the other, all under the same conditions on what there is of
their items.  A write whose item is not as the conditions ask for is passed over, and the first
write that fails otherwise ends the batch.  What the writes before it have done is told without a
store that fails: they are made in turn, each if its item admits it.

* `Write.call`, `Write.program` — a write as a call.
* `Layout.applied` — what a batch does to a table, and how many of its writes are made.
* `Write.Obeys` — the conditions of a write let it be made just if its item admits it.
* `IsBatch` — what writes need to be made as a batch.
* **`IsBatch.run`** — a batch that no failure strikes.
* **`IsBatch.run_strikes`** — a batch that one strikes.
-/

namespace RankedTable

variable {layout : Layout} {table : Table}

/-! ## Single writes -/

namespace Write

/-- The call that makes a write. -/
def call : Write → Call
  | update key updates conditions => .update key updates conditions
  | delete key conditions => .delete key conditions

/-- The program that makes this call. -/
def program : Write → Program Unit
  | update key updates conditions => .perform (.update key updates conditions)
  | delete key conditions => .perform (.delete key conditions)

/-- Whether the conditions of a write let it be made just if what there is of its item admits it; if
not, they are missed. -/
def Obeys (layout : Layout) (table : Table) (admits : Bool → Bool) (write : Write) : Prop :=
  admits (table.find? write.key).isSome = true ∧ (∃ table',
      layout.write table write.unconditional = (.ok (), table') ∧
        layout.write table write = (.ok (), table')) ∨
    admits (table.find? write.key).isSome = false ∧ ∃ miss,
      layout.write table write = (.error (.conditionFailed miss), table)

section Outage

variable {outage : Outage} {calls : List Call} {write : Write}

/-- A write that no failure strikes is made by the store itself. -/
lemma run_spared (h : outage write.call.method (callCount write.call.method calls + 1) = none) :
    write.program.run (layout.store.failing outage) (calls, table) =
      ((layout.write table write).1, write.call :: calls, (layout.write table write).2) := by
  cases write <;> exact Store.failing_spared h

lemma run_hit {e : Error}
    (h : outage write.call.method (callCount write.call.method calls + 1) = some e) :
    write.program.run (layout.store.failing outage) (calls, table) =
      (.error e, write.call :: calls, table) := by
  cases write <;> exact Store.failing_hit h

end Outage

/-- A write that is admitted and does not fail obeys its conditions. -/
lemma obeys_of_ok {admits : Bool → Bool} {write : Write}
    (hadmits : admits (table.find? write.key).isSome = true)
    (hok : (layout.write table write).1 = .ok ()) : write.Obeys layout table admits := by
  have hwrite : layout.write table write = (.ok (), (layout.write table write).2) :=
    Prod.ext hok rfl
  exact .inl ⟨hadmits, _,
    (Layout.write_unconditional (Layout.write_ok hok).1).trans hwrite, hwrite⟩

end Write

/-- A client's write leaves its table a client's. -/
lemma ClientTable.write {settings : Settings} (h : ClientTable settings table) {write : Write}
    (hcall : ClientCall settings write.call) :
    ClientTable settings (settings.layout.write table write).2 := by
  have hstore := h.store hcall
  cases write <;> exact hstore

/-! ## Batches -/

/-- What a batch does to a table: each of its writes in turn is made if what there is of its item
then admits it, and is left out if not.  Those that are made are counted. -/
def Layout.applied (layout : Layout) (admits : Bool → Bool) : List Write → Table → ℕ × Table
  | [], table => (0, table)
  | write :: rest, table =>
    if admits (table.find? write.key).isSome then
      let (n, left) := layout.applied admits rest (layout.write table write.unconditional).2
      (n + 1, left)
    else layout.applied admits rest table

/-- Writes that can be made as a batch: each of them keeps what holds of the table and obeys its
conditions, misses are allowed if there can be any, and all are made by calls of one kind. -/
structure IsBatch (layout : Layout) (Inv : Table → Prop) (method : Call.Method)
    (admits : Bool → Bool) (allowMisses : Bool) (writes : List Write) : Prop where
  kept : ∀ write ∈ writes, ∀ table, Inv table → Inv (layout.write table write).2
  obeys : ∀ write ∈ writes, ∀ table, Inv table → write.Obeys layout table admits
  misses : allowMisses = true ∨ ∀ present, admits present = true
  calls : ∀ write ∈ writes, write.call.method = method

namespace IsBatch

variable {admits : Bool → Bool} {allowMisses : Bool} {Inv : Table → Prop} {method : Call.Method}
  {writes part : List Write}

/-- A part of a batch is one. -/
lemma mono (h : IsBatch layout Inv method admits allowMisses writes)
    (hpart : ∀ write ∈ part, write ∈ writes) :
    IsBatch layout Inv method admits allowMisses part where
  kept write hwrite := h.kept write (hpart write hwrite)
  obeys write hwrite := h.obeys write (hpart write hwrite)
  misses := h.misses
  calls write hwrite := h.calls write (hpart write hwrite)

/-- **A batch that no failure strikes** makes the writes that their items admit, and counts them. -/
theorem run (h : IsBatch layout Inv method admits allowMisses writes) (hinv : Inv table)
    (outage : Outage) (calls : List Call)
    (hspared : ∀ n, n ≤ callCount method calls + writes.length → outage method n = none)
    (count : ℤ) :
    (Program.countWrites allowMisses count (writes.map Write.program)).run
        (layout.store.failing outage) (calls, table) =
      (.ok (count + (layout.applied admits writes table).1),
        (writes.map Write.call).reverse ++ calls, (layout.applied admits writes table).2) := by
  induction writes generalizing table calls count with
  | nil => exact congrArg (fun n : ℤ => (Except.ok n, calls, table)) (add_zero count).symm
  | cons write rest ih =>
      have hmem : write ∈ write :: rest := List.mem_cons_self ..
      have hcount : callCount method (write.call :: calls) = callCount method calls + 1 :=
        h.calls write hmem ▸ callCount_cons_self _ calls
      have hnone : outage write.call.method (callCount write.call.method calls + 1) = none := by
        rw [h.calls write hmem]
        exact hspared _ (by rw [List.length_cons]; omega)
      have hrest := fun {table} (hinv : Inv table) =>
        ih (h.mono fun _ => List.mem_cons_of_mem _) hinv (write.call :: calls)
          (fun n hn => hspared n (by rw [List.length_cons]; omega))
      rw [List.map_cons, Program.countWrites, Program.run_bind, Program.run_attempt,
        Write.run_spared hnone, List.map_cons, List.reverse_cons, List.append_assoc, Layout.applied]
      have hnext := h.kept write hmem table hinv
      rcases h.obeys write hmem table hinv with
        ⟨hadmits, table', hbare, hok⟩ | ⟨hadmits, miss, hmissed⟩
      · rw [hok] at hnext ⊢
        rw [hbare, if_pos hadmits]
        refine (hrest hnext (count + 1)).trans ?_
        push_cast
        rw [add_assoc, add_comm (1 : ℤ)]
        rfl
      · have hallowed : allowMisses = true := h.misses.resolve_right fun hall => by
          rw [hall] at hadmits
          cases hadmits
        have hpassed : (allowMisses && (Error.conditionFailed miss).isMiss) = true := by
          rw [hallowed]
          rfl
        rw [hmissed, if_neg (by rw [hadmits]; exact Bool.false_ne_true)]
        exact (congrArg (Program.run _ · _) (if_pos hpassed)).trans (hrest hinv count)

/-- A batch in a store that does not fail. -/
lemma run_store (h : IsBatch layout Inv method admits allowMisses writes) (hinv : Inv table) :
    (Program.countWrites allowMisses 0 (writes.map Write.program)).run layout.store table =
      (.ok (layout.applied admits writes table).1, (layout.applied admits writes table).2) := by
  obtain ⟨hresult, htable⟩ := Program.run_failing_none layout.store
    (Program.countWrites allowMisses 0 (writes.map Write.program)) [] table
  rw [h.run hinv (fun _ _ => none) [] (fun _ _ => rfl) 0, zero_add] at hresult
  rw [h.run hinv (fun _ _ => none) [] (fun _ _ => rfl) 0] at htable
  exact Prod.ext hresult.symm htable.symm

/-- **A batch that a failure strikes stops there**: the writes before it are made as their items
admit, and counted with the failure. -/
theorem run_strikes (h : IsBatch layout Inv method admits allowMisses writes) (hinv : Inv table)
    {outage : Outage} {k : ℕ} {e : Error} (hmiss : e.isMiss = false)
    (hstrikes : outage.Strikes method (writes.map Write.call) k e) {calls : List Call}
    (hnone : callCount method calls = 0) :
    (Program.countWrites allowMisses 0 (writes.map Write.program)).run
        (layout.store.failing outage) (calls, table) =
      (.error (e.withSoFar (.count (layout.applied admits (writes.take (k - 1)) table).1)),
        ((writes.map Write.call).take k).reverse ++ calls,
        (layout.applied admits (writes.take (k - 1)) table).2) := by
  obtain ⟨j, rfl⟩ : ∃ j, k = j + 1 := ⟨k - 1, by have := hstrikes.pos; omega⟩
  have hlt : j < writes.length := by
    have := hstrikes.made
    rw [List.length_map] at this
    omega
  have hlength : (writes.take j).length = j := List.length_take_of_le hlt.le
  have hsplit : writes = writes.take j ++ writes[j] :: writes.drop (j + 1) := by
    rw [List.getElem_cons_drop hlt, List.take_append_drop]
  have hmade : ((writes.map Write.call).take (j + 1)).reverse =
      writes[j].call :: ((writes.take j).map Write.call).reverse := by
    rw [List.take_add_one, List.reverse_append, List.map_take, List.getElem?_map,
      List.getElem?_eq_getElem hlt]
    rfl
  -- the writes before the one that fails
  have hfront := h.mono fun _ => List.mem_of_mem_take (i := j)
  have hrun := hfront.run hinv outage calls (fun n hn => hstrikes.before n (by omega)) 0
  rw [zero_add] at hrun
  -- the one that fails
  have hcalls : callCount method (((writes.take j).map Write.call).reverse ++ calls) = j := by
    have hall : callCount method ((writes.take j).map Write.call).reverse = j := by
      rw [callCount, List.countP_reverse, List.countP_eq_length.mpr, List.length_map, hlength]
      exact List.forall_mem_map.mpr fun write hwrite => decide_eq_true (hfront.calls write hwrite)
    exact List.countP_append.trans (congrArg₂ (· + ·) hall hnone)
  have hhit : outage writes[j].call.method
      (callCount writes[j].call.method (((writes.take j).map Write.call).reverse ++ calls) + 1) =
        some e := by
    rw [h.calls _ (List.getElem_mem hlt), hcalls]
    exact hstrikes.fails
  rw [hmade, Nat.add_sub_cancel]
  conv_lhs => rw [hsplit]
  rw [List.map_append, Program.countWrites_append, Program.run_bind, hrun, List.map_cons]
  dsimp only
  rw [Program.countWrites, Program.run_bind, Program.run_attempt, Write.run_hit hhit]
  dsimp only
  rw [hmiss, Bool.and_false]
  rfl

end IsBatch

end RankedTable

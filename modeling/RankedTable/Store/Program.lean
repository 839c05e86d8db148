import RankedTable.Store.Basic

/-!
# Programs over a store

A command is a program: it ends with a result, or makes a call and goes on with the reply.  A
program is a tree, so that the calls it makes can be told apart from the store that answers them,
failed or interleaved with those of other programs.

* `Program` — the tree; a monad whose errors can be caught.
* `Program.run` — runs a program on a store.
* `Program.withSoFar` — adds what had been gathered to a store's failure.
* `programLawfulMonad` — steps may be regrouped.
* `run_bind`, `run_tryCatch` — a run goes through a program from left to right.
-/

namespace RankedTable

/-- A computation that makes calls to a store. -/
inductive Program (α : Type) where
  | done (result : Except Error α)
  | call (c : Call) (next : Except Error c.Reply → Program α)

namespace Program

variable {α β σ : Type}

/-! ## Building programs -/

/-- Goes on with what the first program returns; an error ends both. -/
def bind (p : Program α) (k : α → Program β) : Program β :=
  match p with
  | done (.ok a) => k a
  | done (.error e) => done (.error e)
  | call c next => call c fun reply => bind (next reply) k

/-- Goes on with the handler if the program ends with an error. -/
def tryCatch (p : Program α) (handler : Error → Program α) : Program α :=
  match p with
  | done (.ok a) => done (.ok a)
  | done (.error e) => handler e
  | call c next => call c fun reply => tryCatch (next reply) handler

instance programMonad : Monad Program where
  pure a := done (.ok a)
  bind := bind

instance programMonadExcept : MonadExcept Error Program where
  throw e := done (.error e)
  tryCatch := tryCatch

/-- Makes one call. -/
def perform (c : Call) : Program c.Reply :=
  call c done

/-- A result that needs no call. -/
def lift (result : Except Error α) : Program α :=
  done result

/-- The same program, with what had been gathered before added to a store's failure. -/
def withSoFar (p : Program α) (gathered : Gathered) : Program α :=
  p.tryCatch fun e => done (.error (e.withSoFar gathered))

protected theorem bind_assoc {γ : Type} (p : Program α) (k : α → Program β) (l : β → Program γ) :
    (p >>= k) >>= l = p >>= fun a => k a >>= l := by
  change bind (bind p k) l = bind p fun a => bind (k a) l
  induction p with
  | done result => cases result <;> rfl
  | call c next ih => exact congrArg (call c) (funext ih)

protected theorem bind_pure (p : Program α) : p >>= pure = p := by
  change bind p (fun a => done (.ok a)) = p
  induction p with
  | done result => cases result <;> rfl
  | call c next ih => exact congrArg (call c) (funext ih)

instance programLawfulMonad : LawfulMonad Program :=
  LawfulMonad.mk' Program Program.bind_pure (fun _ _ => rfl) Program.bind_assoc

/-! ## Running programs -/

/-- Runs a program on a store. -/
def run (store : Store σ) : Program α → σ → Except Error α × σ
  | done result, state => (result, state)
  | call c next, state => run store (next (store c state).1) (store c state).2

@[simp] theorem run_done (store : Store σ) (result : Except Error α) (state : σ) :
    (done result).run store state = (result, state) :=
  rfl

@[simp] theorem run_pure (store : Store σ) (a : α) (state : σ) :
    (pure a : Program α).run store state = (.ok a, state) :=
  rfl

@[simp] theorem run_perform (store : Store σ) (c : Call) (state : σ) :
    (perform c).run store state = store c state :=
  rfl

theorem run_bind (store : Store σ) (p : Program α) (k : α → Program β) (state : σ) :
    (p >>= k).run store state =
      match p.run store state with
      | (.ok a, s) => (k a).run store s
      | (.error e, s) => (.error e, s) := by
  change (bind p k).run store state = _
  induction p generalizing state with
  | done result => cases result <;> rfl
  | call c next ih => exact ih _ _

theorem run_tryCatch (store : Store σ) (p : Program α) (handler : Error → Program α)
    (state : σ) :
    (p.tryCatch handler).run store state =
      match p.run store state with
      | (.ok a, s) => (.ok a, s)
      | (.error e, s) => (handler e).run store s := by
  induction p generalizing state with
  | done result => cases result <;> rfl
  | call c next ih => exact ih _ _

theorem run_withSoFar (store : Store σ) (p : Program α) (gathered : Gathered) (state : σ) :
    (p.withSoFar gathered).run store state =
      ((p.run store state).1.mapError (·.withSoFar gathered), (p.run store state).2) := by
  rw [withSoFar, run_tryCatch]
  rcases p.run store state with ⟨_ | _, s⟩ <;> rfl

end Program

end RankedTable

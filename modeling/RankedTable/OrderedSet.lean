/-!
# Finite sets in canonical order

The members of a set value are kept in ascending order without repetition, so that two sets with
the same members are equal.

* `AscendingOrder` — what the order has to be like; texts have such an order.
* `OrderedSet` — an ascending list with the proof that it ascends.
* `OrderedSet.insert`, `OrderedSet.ofList` — build a set from members in any order.
* `mem_ofList` — the members of `ofList l` are those of `l`.
-/

namespace RankedTable

universe u

/-- An order in which different members come one before the other. -/
class AscendingOrder (α : Type u) [LT α] : Prop where
  trans {a b c : α} : a < b → b < c → a < c
  connected {a b : α} : ¬a < b → a ≠ b → b < a

instance stringAscendingOrder : AscendingOrder String where
  trans := String.lt_trans
  connected h ne := by
    rcases Std.lt_trichotomy (α := String) _ _ with h' | h' | h'
    · exact absurd h' h
    · exact absurd h' ne
    · exact h'

/-- A finite set, its members in ascending order. -/
structure OrderedSet (α : Type u) [LT α] where
  elems : List α
  ascending : elems.Pairwise (· < ·)

namespace OrderedSet

variable {α : Type u} [LT α]

@[ext] theorem ext {a b : OrderedSet α} (h : a.elems = b.elems) : a = b := by
  cases a
  cases b
  simp_all

/-- The empty set. -/
def empty : OrderedSet α := ⟨[], List.Pairwise.nil⟩

instance orderedSetDecidableEq [DecidableEq α] : DecidableEq (OrderedSet α) := fun a b =>
  if h : a.elems = b.elems then isTrue (ext h) else isFalse fun e => h (by rw [e])

variable [DecidableEq α] [DecidableLT α]

/-! ## Insertion -/

/-- Puts a member into its place in an ascending list, unless it is there. -/
def insertElem (x : α) : List α → List α
  | [] => [x]
  | y :: rest =>
    if x = y then y :: rest
    else if x < y then x :: y :: rest
    else y :: insertElem x rest

theorem mem_insertElem {x z : α} (l : List α) : z ∈ insertElem x l ↔ z = x ∨ z ∈ l := by
  induction l with
  | nil => simp [insertElem]
  | cons y rest ih => grind [insertElem]

variable [AscendingOrder α]

theorem insertElem_ascending (x : α) (l : List α) (h : l.Pairwise (· < ·)) :
    (insertElem x l).Pairwise (· < ·) := by
  induction l with
  | nil => simp [insertElem]
  | cons y rest ih =>
    obtain ⟨hy, hrest⟩ := List.pairwise_cons.1 h
    by_cases hxy : x = y
    · simpa [insertElem, hxy] using h
    · by_cases hlt : x < y
      · simp only [insertElem, hxy, hlt, if_false, if_true]
        refine List.pairwise_cons.2 ⟨fun z hz => ?_, h⟩
        rcases List.mem_cons.1 hz with rfl | hz
        · exact hlt
        · exact AscendingOrder.trans hlt (hy z hz)
      · simp only [insertElem, hxy, hlt, if_false]
        refine List.pairwise_cons.2 ⟨fun z hz => ?_, ih hrest⟩
        rcases (mem_insertElem rest).1 hz with rfl | hz
        · exact AscendingOrder.connected hlt hxy
        · exact hy z hz

/-- The set with one more member. -/
def insert (x : α) (s : OrderedSet α) : OrderedSet α :=
  ⟨insertElem x s.elems, insertElem_ascending x s.elems s.ascending⟩

/-- The set of the members of a list. -/
def ofList (l : List α) : OrderedSet α :=
  l.foldr insert empty

theorem mem_ofList {z : α} (l : List α) : z ∈ (ofList l).elems ↔ z ∈ l := by
  induction l with
  | nil => simp [ofList, empty]
  | cons x rest ih =>
    simp only [ofList, List.foldr_cons, insert, List.mem_cons] at ih ⊢
    rw [mem_insertElem, ih]

end OrderedSet

end RankedTable

import RankedTable.Geo.Cap

/-!
# Covering a disc with cells

A search asks one range of leaf cells after the other, so its disc is covered with few cells.
Starting from the cells around its centre, coarse cells are cut as long as the budget allows;
cells that miss the disc are dropped, and cells within the disc are kept whole.

* `Covering.start`, `Covering.refine` — the two phases.
* `Covering.normalize` — a covering without repetition, with four siblings as their parent.
* `coveringOf` — the leaf intervals that cover a disc.
-/

namespace RankedTable

namespace Covering

/-- A cell that meets the disc.  It is settled if it need not be cut. -/
structure Candidate where
  cell : Cell
  settled : Bool
  deriving Inhabited

/-- A cell waiting to be cut, with its parts that meet the disc. -/
structure Pending where
  priority : Nat
  cell : Cell
  parts : List Candidate
  deriving Inhabited

/-- The cells settled so far, and those waiting, the most urgent first. -/
structure State where
  settled : List Cell := []
  waiting : List Pending := []

/-- A cell as a candidate, if it meets the disc. -/
def candidate? (cap : Cap) (cell : Cell) : Option Candidate :=
  if cap.mayIntersect cell then
    some ⟨cell, cell.level = Cell.maxLevel || cap.containsCell cell⟩
  else none

/-- Whether one waiting cell is to be cut before another: the coarser, then that with fewer parts,
then that with fewer settled parts, then that first along the curve. -/
def Pending.before (a b : Pending) : Bool :=
  decide (a.priority < b.priority) || (a.priority = b.priority && decide (a.cell.id < b.cell.id))

/-- Puts a cell into its place among those waiting. -/
def enqueue (p : Pending) : List Pending → List Pending
  | [] => [p]
  | q :: rest => if p.before q then p :: q :: rest else q :: enqueue p rest

/-- Takes a candidate in: settled, or waiting to be cut. -/
def State.add (cap : Cap) (state : State) (c : Candidate) : State :=
  if c.settled then { state with settled := c.cell :: state.settled }
  else
    let parts := c.cell.children.filterMap (candidate? cap)
    let settledParts := parts.countP (·.settled)
    if parts.isEmpty then state
    else if settledParts = 4 then { state with settled := c.cell :: state.settled }
    else
      let priority := (c.cell.level * 4 + parts.length) * 4 + settledParts
      { state with waiting := enqueue ⟨priority, c.cell, parts⟩ state.waiting }

/-! ## The start -/

/-- The finest level whose cells are at least so wide, for an angle. -/
def levelOfWidth (angle : Float) : Nat :=
  if angle ≤ 0 then Cell.maxLevel
  else
    let (_, exponent) := ((2 * (2.0 : Float).sqrt / 3) / angle).frExp
    min Cell.maxLevel (exponent - 1).toNat

/-- The cells to begin with: those around the centre, if they are wide enough for the disc and the
budget allows four, or else the faces. -/
def start (cap : Cap) (maxCells : Int) : Except Error (List Cell) := do
  let level := min (levelOfWidth (2 * cap.angle)) (Cell.maxLevel - 1)
  if 4 ≤ maxCells ∧ 0 < level then
    (← Cell.ofPoint cap.axis).neighboursAt level
  else return (List.range 6).map Cell.ofFace

/-! ## The refinement -/

/-- Cuts waiting cells until none is left.  A cell is cut if it has a single part, or if there is
room for its parts; otherwise it is settled as it is. -/
def refine (cap : Cap) (maxCells : Int) : Nat → State → List Cell
  | 0, state => state.settled
  | steps + 1, state =>
    match state.waiting with
    | [] => state.settled
    | next :: waiting =>
      let room : Int := maxCells - state.settled.length - waiting.length
      let rest := { state with waiting := waiting }
      if next.parts.length = 1 ∨ next.parts.length ≤ room then
        refine cap maxCells steps (next.parts.foldl (State.add cap) rest)
      else refine cap maxCells steps { rest with settled := next.cell :: rest.settled }

/-- How many cells there are, on all levels. -/
def cellCount : Nat := 6 * Nat.pow 4 (Cell.maxLevel + 1)

/-! ## The result -/

/-- Whether four cells are the parts of one. -/
def areSiblings (a b c d : Cell) : Bool :=
  d.level ≠ 0 && (d.parentAt (d.level - 1)).children = [a, b, c, d]

/-- Adds a cell at the end of a normalised covering, which is given in reverse: it may be contained
in the last cell, contain some of the last cells, or complete four siblings. -/
def append (covering : List Cell) (cell : Cell) : List Cell :=
  match covering with
  | c :: b :: a :: rest =>
    if c.contains cell then covering
    else if cell.contains c then append (b :: a :: rest) cell
    else if areSiblings a b c cell then append rest (cell.parentAt (cell.level - 1))
    else cell :: covering
  | c :: rest =>
    if c.contains cell then covering
    else if cell.contains c then append rest cell
    else cell :: covering
  | [] => [cell]
termination_by covering.length

/-- The cells in order, without those contained in others, and with four siblings as their
parent. -/
def normalize (cells : List Cell) : List Cell :=
  ((cells.mergeSort fun a b => a.id ≤ b.id).foldl append []).reverse

end Covering

/-- The cells that cover a disc. -/
def Cap.covering (cap : Cap) (maxCells : Int) : Except Error (List Cell) := do
  let cells ← Covering.start cap maxCells
  let state := (cells.filterMap (Covering.candidate? cap)).foldl (Covering.State.add cap) {}
  return Covering.normalize (Covering.refine cap maxCells Covering.cellCount state)

/-- The mean radius of the earth in metres. -/
def earthRadius : Float := 6372797.560856

/-- The intervals of leaf cells that cover the disc around a location. -/
def coveringOf (centre : Location) (metres : Float) (maxCells : Int) :
    Except Error (List (Nat × Nat)) := do
  if metres < 0 then throw (.negativeRadius metres)
  let axis ← Point.ofLocation centre
  let cap ← Cap.ofRadius axis (metres / earthRadius)
  return (← cap.covering maxCells).map Cell.leaves

end RankedTable

import RankedTable.Geo.Face

/-!
# Cells along a curve

Each face of the cube is cut into four cells, these again, thirty times over.  A curve visits the
leaf cells so that each cell is one stretch of it.  A cell's number has the face in three bits,
two bits for each level of cutting, a one, and zeros; so the leaf cells of any cell form an
interval of numbers.

* `Cell` — a cell, by its number.
* `Cell.ofIndices`, `Cell.indices` — between a leaf's number and its place on its face.
* `Cell.parent`, `Cell.children`, `Cell.leaves` — the hierarchy.
* `Cell.centre`, `Cell.corner`, `Cell.edgeNormal` — where a cell is.
* `Cell.neighboursAt` — the cells around the corner nearest to a leaf.
-/

namespace RankedTable

/-- A cell, by its number. -/
structure Cell where
  id : Nat
  deriving DecidableEq, Repr, Inhabited

namespace Cell

/-- How many numbers a face has. -/
def faceSpan : Nat := 0x2000000000000000

/-- The cell of a number; numbers wrap around at the largest of 64 bits. -/
def ofNumber (n : Int) : Cell :=
  ⟨(n % 0xffffffffffffffff).toNat⟩

/-- The number of cuts down to a leaf. -/
def maxLevel : Nat := 30

/-! ## The curve -/

/-- The quarter that a curve visits first, second, third and fourth, by its orientation: each
quarter as twice its `i` half plus its `j` half. -/
def quarterAt (orientation position : Nat) : Nat :=
  match orientation, position with
  | 0, 0 => 0 | 0, 1 => 1 | 0, 2 => 3 | 0, _ => 2
  | 1, 0 => 0 | 1, 1 => 2 | 1, 2 => 3 | 1, _ => 1
  | 2, 0 => 3 | 2, 1 => 2 | 2, 2 => 0 | 2, _ => 1
  | _, 0 => 3 | _, 1 => 1 | _, 2 => 0 | _, _ => 2

/-- When a curve of some orientation visits a quarter. -/
def positionOf (orientation quarter : Nat) : Nat :=
  if quarterAt orientation 0 = quarter then 0
  else if quarterAt orientation 1 = quarter then 1
  else if quarterAt orientation 2 = quarter then 2
  else 3

/-- The orientation of the curve within the quarter at a position. -/
def orientationWithin (orientation position : Nat) : Nat :=
  orientation ^^^ (match position with | 0 => 1 | 3 => 3 | _ => 0)

/-- The position along the curve of the leaf with the given indices, level by level. -/
def curvePosition (i j : Nat) : Nat → Nat → Nat → Nat
  | 0, _, position => position
  | level + 1, orientation, position =>
    let quarter := 2 * (i / Nat.pow 2 level % 2) + j / Nat.pow 2 level % 2
    let next := positionOf orientation quarter
    curvePosition i j level (orientationWithin orientation next) (4 * position + next)

/-- The leaf of a face with the given indices. -/
def ofIndices (face i j : Nat) : Cell :=
  ofNumber (face * faceSpan + 2 * curvePosition i j maxLevel (face % 2) 0 + 1 : Nat)

/-- The face of a cell; numbers beyond the last face say 6 or 7. -/
def face (cell : Cell) : Nat :=
  cell.id / faceSpan

/-- Follows a position along the curve, level by level. -/
def curveIndices (position : Nat) : Nat → Nat → Nat × Nat → Nat × Nat
  | 0, _, ij => ij
  | level + 1, orientation, (i, j) =>
    let next := position / Nat.pow 4 level % 4
    let quarter := quarterAt orientation next
    curveIndices position level (orientationWithin orientation next)
      (2 * i + quarter / 2, 2 * j + quarter % 2)

/-- The indices of the leaf at which a cell's number lies. -/
def indices (cell : Cell) : Nat × Nat :=
  curveIndices (cell.id / 2) maxLevel (cell.face % 2) (0, 0)

/-- The leaf that a point falls into. -/
def ofPoint (p : Point) : Except Error Cell := do
  let q ← FacePoint.ofPoint p
  return ofIndices q.face (leafIndex (stretch q.u)) (leafIndex (stretch q.v))

/-- The leaf at a location. -/
def ofLocation (location : Location) : Except Error Cell := do
  ofPoint (← Point.ofLocation location)

/-! ## The hierarchy -/

/-- The lowest bit that is set in a number. -/
def lowestBit (n : Nat) : Nat :=
  n - (n &&& (n - 1))

/-- The mark that ends the number of a cell at a level. -/
def mark (level : Nat) : Nat :=
  Nat.pow 4 (maxLevel - level)

/-- The level of a cell. -/
def level (cell : Cell) : Nat :=
  maxLevel - (lowestBit cell.id).log2 / 2

/-- The cell at a level that contains a cell. -/
def parentAt (cell : Cell) (level : Nat) : Cell :=
  ⟨cell.id / (2 * mark level) * (2 * mark level) + mark level⟩

/-- The four cells that a cell is cut into, along the curve. -/
def children (cell : Cell) : List Cell :=
  let bit := lowestBit cell.id
  let quarter := bit / 4
  [⟨cell.id - bit + quarter⟩, ⟨cell.id - bit + 3 * quarter⟩, ⟨cell.id - bit + 5 * quarter⟩,
    ⟨cell.id - bit + 7 * quarter⟩]

/-- The cell of a whole face. -/
def ofFace (face : Nat) : Cell :=
  ⟨face * faceSpan + faceSpan / 2⟩

/-- The numbers of the first and the last leaf of a cell. -/
def leaves (cell : Cell) : Nat × Nat :=
  (cell.id - (lowestBit cell.id - 1), cell.id + (lowestBit cell.id - 1))

/-- Whether one cell contains another. -/
def contains (cell other : Cell) : Bool :=
  decide (cell.leaves.1 ≤ other.id) && decide (other.id ≤ cell.leaves.2)

/-! ## Where a cell is -/

/-- The centre of a cell. -/
def centre (cell : Cell) : Location :=
  let (i, j) := cell.indices
  let delta :=
    if cell.id % 2 = 1 then 1 else if (i ^^^ (cell.id / 4)) % 2 = 1 then 2 else 0
  let half := 0.5 / faceSize.toFloat
  let u := unstretch (half * (2 * i + delta).toFloat)
  let v := unstretch (half * (2 * j + delta).toFloat)
  (FacePoint.toPoint ⟨cell.face, u, v⟩).toLocation

/-- The bounds of a cell on its face. -/
structure Bounds where
  face : Nat
  lowU : Float
  highU : Float
  lowV : Float
  highV : Float

/-- The bounds of a cell on its face. -/
def bounds (cell : Cell) : Bounds :=
  let (i, j) := cell.indices
  let size := Nat.pow 2 (maxLevel - cell.level)
  let unit := 1.0 / faceSize.toFloat
  let at' (n : Nat) : Float := unstretch (unit * n.toFloat)
  ⟨cell.face, at' (i / size * size), at' (i / size * size + size), at' (j / size * size),
    at' (j / size * size + size)⟩

namespace Bounds

/-- The corners in the cube's surface: south-west, south-east, north-east, north-west. -/
def corner (b : Bounds) (k : Nat) : Point :=
  FacePoint.toPoint <| match k with
    | 0 => ⟨b.face, b.lowU, b.lowV⟩
    | 1 => ⟨b.face, b.highU, b.lowV⟩
    | 2 => ⟨b.face, b.highU, b.highV⟩
    | _ => ⟨b.face, b.lowU, b.highV⟩

/-- The corners on the sphere. -/
def vertices (b : Bounds) : List Point :=
  [0, 1, 2, 3].map fun k => (b.corner k).normalize

/-- The normal of the plane in which `u` is constant, to the right. -/
def normalU (face : Nat) (u : Float) : Point :=
  match face with
  | 0 => ⟨u, -1, 0⟩
  | 1 => ⟨1, u, 0⟩
  | 2 => ⟨1, 0, u⟩
  | 3 => ⟨-u, 0, 1⟩
  | 4 => ⟨0, -u, 1⟩
  | _ => ⟨0, -1, -u⟩

/-- The normal of the plane in which `v` is constant, upwards. -/
def normalV (face : Nat) (v : Float) : Point :=
  match face with
  | 0 => ⟨-v, 0, 1⟩
  | 1 => ⟨0, -v, 1⟩
  | 2 => ⟨0, -1, -v⟩
  | 3 => ⟨v, -1, 0⟩
  | 4 => ⟨1, v, 0⟩
  | _ => ⟨1, 0, v⟩

/-- The inward normal of the edge after a corner. -/
def edgeNormal (b : Bounds) (k : Nat) : Point :=
  match k with
  | 0 => normalV b.face b.lowV
  | 1 => normalU b.face b.highU
  | 2 => (normalV b.face b.highV).neg
  | _ => (normalU b.face b.lowU).neg

/-- Whether a point lies over the cell or its border. -/
def containsPoint (b : Bounds) (p : Point) : Bool :=
  if FacePoint.axisComponent b.face p > 0 then
    let q := FacePoint.project b.face p
    decide (b.lowU ≤ q.u) && decide (q.u ≤ b.highU) && decide (b.lowV ≤ q.v) &&
      decide (q.v ≤ b.highV)
  else false

end Bounds

/-! ## Neighbours -/

/-- The leaf with the given indices, which may be just beyond the border of the face. -/
def ofIndicesBeyond (face : Nat) (i j : Int) : Except Error Cell := do
  let size : Int := faceSize
  let clamp (n : Int) : Int := max (-1) (min size n)
  let unit := 1.0 / faceSize.toFloat
  let u := unit * Float.ofInt (2 * clamp i + 1 - size)
  let v := unit * Float.ofInt (2 * clamp j + 1 - size)
  let q ← FacePoint.ofPoint (FacePoint.toPoint ⟨face, u, v⟩)
  return ofIndices q.face (leafIndex (0.5 * (q.u + 1))) (leafIndex (0.5 * (q.v + 1)))

/-- The leaf with the given indices, on the face or beyond it. -/
def ofIndicesAround (face : Nat) (i j : Int) (onFace : Bool) : Except Error Cell :=
  if onFace then .ok (ofIndices face i.toNat j.toNat) else ofIndicesBeyond face i j

/-- The cells at a level that meet at the corner nearest to a leaf: four of them, or three at a
corner of the cube. -/
def neighboursAt (leaf : Cell) (level : Nat) : Except Error (List Cell) := do
  let (i, j) := leaf.indices
  let half := Nat.pow 2 (maxLevel - level - 1)
  let step (n : Nat) : Int := if n / half % 2 = 1 then 2 * half else -(2 * half)
  let stays (n : Int) : Bool := decide (0 ≤ n) && decide (n < faceSize)
  let ni := i + step i
  let nj := j + step j
  let overI ← ofIndicesAround leaf.face ni j (stays ni)
  let overJ ← ofIndicesAround leaf.face i nj (stays nj)
  let diagonal ←
    if stays ni || stays nj then
      (ofIndicesAround leaf.face ni nj (stays ni && stays nj)).map fun cell => [cell]
    else pure []
  return ([leaf, overI, overJ] ++ diagonal).map (·.parentAt level)

end Cell

end RankedTable

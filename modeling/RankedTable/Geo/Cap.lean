import RankedTable.Geo.Cell

/-!
# Discs on the sphere

A disc is kept as its axis and its height: how far the plane that cuts it off is from the sphere's
point on the axis.

* `Cap.ofRadius` — the disc around a point.
* `Cap.mayIntersect`, `Cap.containsCell` — how a cell lies to a disc.
-/

namespace RankedTable

/-- A disc on the sphere. -/
structure Cap where
  axis : Point
  height : Float
  deriving Inhabited

namespace Cap

/-- The disc around a point of the sphere, with its radius as an angle. -/
def ofRadius (axis : Point) (angle : Float) : Except Error Cap :=
  if (axis.norm2 - 1).abs ≤ 1e-15 ∧ angle ≥ 0 then
    if angle ≥ pi then .ok ⟨axis, 2⟩
    else
      let d := (0.5 * angle).sin
      .ok ⟨axis, 2 * d * d⟩
  else .error .degenerate

/-- The radius as an angle. -/
def angle (cap : Cap) : Float :=
  2 * (0.5 * cap.height).sqrt.asin

/-- Whether a point of the sphere is in the disc. -/
def containsPoint (cap : Cap) (p : Point) : Bool :=
  (cap.axis.sub p).norm2 ≤ 2 * cap.height

/-- Whether the disc is the whole sphere. -/
def isFull (cap : Cap) : Bool :=
  cap.height ≥ 2

/-- The rest of the sphere. -/
def complement (cap : Cap) : Cap :=
  ⟨cap.axis.neg,
    if cap.isFull then -1 else 2 - (if cap.height > 0 then cap.height else 0)⟩

/-- Whether the disc meets one of the edges of a cell, from edge `k` on. -/
def meetsEdge (cap : Cap) (b : Cell.Bounds) (vertices : List Point) : Nat → Bool
  | 0 => false
  | left + 1 =>
    let k := 3 - left
    let edge := b.edgeNormal k
    let dot := cap.axis.dot edge
    let sin2 := cap.height * (2 - cap.height)
    if dot > 0 then cap.meetsEdge b vertices left
    else if dot * dot > sin2 * edge.norm2 then false
    else
      let direction := edge.cross cap.axis
      let here := vertices.getD k default
      let next := vertices.getD ((k + 1) % 4) default
      if direction.dot here < 0 ∧ direction.dot next > 0 then true
      else cap.meetsEdge b vertices left

/-- Whether a disc without any of a cell's corners meets the cell. -/
def intersects (cap : Cap) (b : Cell.Bounds) (vertices : List Point) : Bool :=
  if cap.height ≥ 1 then false
  else if cap.height < 0 then false
  else if b.containsPoint cap.axis then true
  else cap.meetsEdge b vertices 4

/-- Whether a cell may meet the disc. -/
def mayIntersect (cap : Cap) (cell : Cell) : Bool :=
  let b := cell.bounds
  let vertices := b.vertices
  vertices.any cap.containsPoint || cap.intersects b vertices

/-- Whether a cell lies within the disc. -/
def containsCell (cap : Cap) (cell : Cell) : Bool :=
  let b := cell.bounds
  let vertices := b.vertices
  vertices.all cap.containsPoint && !cap.complement.intersects b vertices

end Cap

end RankedTable

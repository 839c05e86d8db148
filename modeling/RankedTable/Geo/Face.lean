import RankedTable.Geo.Point

/-!
# The sphere as a cube

The sphere is projected onto the six faces of a cube.  On a face a point has coordinates `(u, v)`
between -1 and 1.  Stretched so that cells have about one size, they become `(s, t)` between 0 and
1, and counted in leaf cells, `(i, j)` between 0 and `2 ^ 30 - 1`.

* `FacePoint` — a point on a face.
* `FacePoint.ofPoint`, `FacePoint.toPoint` — the projection.
* `stretch`, `unstretch`, `leafIndex` — from `u` to `s`, back, and to `i`.
-/

namespace RankedTable

/-- A point on a face of the cube; the faces are numbered from 0 to 5. -/
structure FacePoint where
  face : Nat
  u : Float
  v : Float
  deriving Inhabited

/-- The number of leaf cells along a face: two to the thirtieth power. -/
def faceSize : Nat := 0x40000000

namespace FacePoint

/-- The point of the cube's surface in space. -/
def toPoint (p : FacePoint) : Point :=
  match p.face with
  | 0 => ⟨1, p.u, p.v⟩
  | 1 => ⟨-p.u, 1, p.v⟩
  | 2 => ⟨-p.u, -p.v, 1⟩
  | 3 => ⟨-1, -p.v, -p.u⟩
  | 4 => ⟨p.v, -1, -p.u⟩
  | _ => ⟨p.v, p.u, -1⟩

/-- The face that a point projects to: that of its largest component. -/
def faceOf (p : Point) : Nat :=
  let x := p.x.abs
  let y := p.y.abs
  let z := p.z.abs
  let (axis, component) :=
    if x > y then if x > z then (0, p.x) else (2, p.z)
    else if y > z then (1, p.y) else (2, p.z)
  if component < 0 then axis + 3 else axis

/-- The projection of a point onto a face it lies over. -/
def project (face : Nat) (p : Point) : FacePoint :=
  match face with
  | 0 => ⟨0, p.y / p.x, p.z / p.x⟩
  | 1 => ⟨1, -p.x / p.y, p.z / p.y⟩
  | 2 => ⟨2, -p.x / p.z, -p.y / p.z⟩
  | 3 => ⟨3, p.z / p.x, p.y / p.x⟩
  | 4 => ⟨4, p.z / p.y, -p.x / p.y⟩
  | _ => ⟨5, -p.y / p.z, -p.x / p.z⟩

/-- The component of a point along a face's axis; it is positive over the face. -/
def axisComponent (face : Nat) (p : Point) : Float :=
  match face with
  | 0 => p.x
  | 1 => p.y
  | 2 => p.z
  | 3 => -p.x
  | 4 => -p.y
  | _ => -p.z

/-- The projection of a point; one without proper coordinates has none. -/
def ofPoint (p : Point) : Except Error FacePoint :=
  let face := faceOf p
  if p.dot (toPoint ⟨face, 0, 0⟩) > 0 then .ok (project face p) else .error .degenerate

end FacePoint

/-- From `u` to `s`. -/
def stretch (u : Float) : Float :=
  if u ≥ 0 then 0.5 * (1 + 3 * u).sqrt else 1 - 0.5 * (1 - 3 * u).sqrt

/-- From `s` to `u`. -/
def unstretch (s : Float) : Float :=
  if s ≥ 0.5 then (1.0 / 3.0) * (4 * s * s - 1)
  else (1.0 / 3.0) * (1 - 4 * (1 - s) * (1 - s))

/-- From `s` to the leaf cell it falls into. -/
def leafIndex (s : Float) : Nat :=
  min (faceSize - 1) (faceSize.toFloat * s).floor.toUInt64.toNat

end RankedTable

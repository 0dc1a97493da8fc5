import FormulaFit.LeastSquares.Factorization

namespace FormulaFit.LeastSquares

/-- A column of a lower triangle with the entry of the right-hand side that belongs to it. -/
structure DampedColumn where
  diagonal : Float
  below : List Float
  value : Float

/-- The cosine and the sine of the rotation that takes `(a, d)` to `(r, 0)`. -/
def givens (a d : Float) : Float × Float :=
  if a.abs < d.abs then
    let cotangent := a / d
    let sine := 0.5 / (0.25 + 0.25 * cotangent * cotangent).sqrt
    (sine * cotangent, sine)
  else
    let tangent := d / a
    let cosine := 0.5 / (0.25 + 0.25 * tangent * tangent).sqrt
    (cosine, cosine * tangent)

/-- Rotates a further row `d`, with `q` on its right-hand side, into the triangle. -/
def rotateRow (d : List Float) (q : Float) : List DampedColumn → List DampedColumn
  | [] => []
  | c :: rest =>
    let top := d.headD 0.0
    let tail := d.drop 1
    if top == 0.0 then c :: rotateRow tail q rest
    else
      let (cosine, sine) := givens c.diagonal top
      { diagonal := cosine * c.diagonal + sine * top
        below := List.zipWith (fun r s => cosine * r + sine * s) c.below tail
        value := cosine * c.value + sine * q } ::
      rotateRow (List.zipWith (fun r s => -sine * r + cosine * s) c.below tail)
        (-sine * c.value + cosine * q) rest

/-- Rotates a diagonal matrix into the triangle, one row after another. -/
def dampColumns : List Float → List DampedColumn → List DampedColumn
  | [], _ => []
  | d :: ds, columns =>
    let row := d :: ds.map fun _ => 0.0
    match if d == 0.0 then columns else rotateRow row 0.0 columns with
    | [] => []
    | c :: rest => c :: dampColumns ds rest

/-- Solves `Sᵀ x = b` for the right-hand side kept with the columns of `S`. -/
def solveDamped : List DampedColumn → List Float
  | [] => []
  | c :: rest =>
    let solved := solveDamped rest
    (c.value - dot c.below solved) / c.diagonal :: solved

/-- Solves `S x = b`. -/
def solveDown : List DampedColumn → List Float → List Float
  | c :: columns, y :: b =>
    let x := y / c.diagonal
    x :: solveDown columns (subScaled b x c.below)
  | _, _ => []

/-- The triangle of the damped problem, whose scale is given per column of the matrix. -/
def Factorization.damp (f : Factorization) (scale : List Float) : List DampedColumn :=
  let columns := (f.rows.zip f.rhs).map fun (row, value) =>
    { diagonal := row.headD 0.0, below := row.drop 1, value }
  dampColumns (pick f.order scale) columns

/-- The solution of the damped problem in the order of the matrix's columns. -/
def Factorization.dampedSolution (f : Factorization) (columns : List DampedColumn) : List Float :=
  let regular := columns.takeWhile (·.diagonal != 0.0)
  place f.order (solveDamped regular ++ (columns.drop regular.length).map fun _ => 0.0)

/-- The search for the damping at which the scaled step has length `radius`: bounds of the damping,
its current value and by how much the step was last too long. -/
structure DampingSearch where
  low : Float
  high : Float
  damping : Float
  excess : Float

/-- A step with the damping that yields it. -/
structure DampedStep where
  damping : Float
  step : List Float

def multiply (u v : List Float) : List Float :=
  List.zipWith (· * ·) u v

/-- How much a damping must change, to first order, for `excess` to vanish; `w` is the derivative
of the step's direction. -/
def correction (excess radius : Float) (w : List Float) : Float :=
  let size := norm w
  excess / radius / size / size

/-- The scaled direction of a step, in the order of the factor's columns. -/
def direction (f : Factorization) (scale scaled : List Float) (size : Float) : List Float :=
  pick f.order (multiply scale (scaled.map (· / size)))

/-- Newton's iteration for the damping, at most `tries` steps. -/
def searchDamping (f : Factorization) (scale : List Float) (radius : Float) :
    Nat → DampingSearch → DampedStep
  | tries, s =>
    let damping := if s.damping == 0.0 then greater smallest (0.001 * s.high) else s.damping
    let columns := f.damp (scale.map (damping.sqrt * ·))
    let step := f.dampedSolution columns
    let scaled := multiply scale step
    let size := norm scaled
    let excess := size - radius
    let close := excess.abs ≤ 0.1 * radius || (s.low == 0.0 && excess ≤ s.excess && s.excess < 0.0)
    match tries with
    | 0 => ⟨damping, step⟩
    | tries + 1 =>
      if close then ⟨damping, step⟩
      else
        let change := correction excess radius (solveDown columns (direction f scale scaled size))
        let low := if excess > 0.0 then greater s.low damping else s.low
        let high := if excess < 0.0 then lesser s.high damping else s.high
        searchDamping f scale radius tries ⟨low, high, greater low (damping + change), excess⟩

/-- The step that minimizes the linear model within a trust region of the given radius, starting
from the last damping. -/
def dampedStep (f : Factorization) (scale : List Float) (radius damping : Float) : DampedStep :=
  let step := f.solution
  let scaled := multiply scale step
  let size := norm scaled
  let excess := size - radius
  if excess ≤ 0.1 * radius then ⟨0.0, step⟩
  else
    let low :=
      if f.rank < f.columns.length then 0.0
      else correction excess radius (f.solveTransposed (direction f scale scaled size))
    let gradient := norm (List.zipWith (· / ·) (f.applyTransposed f.rhs) (pick f.order scale))
    let high := gradient / radius
    let high := if high == 0.0 then smallest / lesser radius 0.1 else high
    let damping := lesser (greater damping low) high
    let damping := if damping == 0.0 then gradient / size else damping
    searchDamping f scale radius 9 ⟨low, high, damping, excess⟩

end FormulaFit.LeastSquares

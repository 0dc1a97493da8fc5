import FormulaFit.LeastSquares.Vector

namespace FormulaFit.LeastSquares

/-- A column of a matrix that is being reduced: its place in the matrix, the entries above the
current row, the others, their length, and that length when it was last computed afresh. -/
structure Column where
  index : Nat
  upper : List Float
  rest : List Float
  length : Float
  fresh : Float

/-- A triangular factor, column by column from the top to the diagonal, with the place of each
column in the matrix, the transformed right-hand side and the lengths of the matrix's columns. -/
structure Factorization where
  columns : List (List Float)
  order : List Nat
  rhs : List Float
  lengths : List Float

/-- The index of the longest column, the first of equally long ones. -/
def longest (columns : List Column) : Nat :=
  (columns.zipIdx.foldl (fun (best : Nat × Float) (c, i) =>
    if c.length > best.2 then (i, c.length) else best)
    (0, (columns.head?.map Column.length).getD 0.0)).1

/-- The longest column first, in exchange with the first one. -/
def pivot (columns : List Column) : List Column :=
  match columns, longest columns with
  | first :: rest, i + 1 => (rest[i]?.getD first) :: rest.set i first
  | _, _ => columns

/-- Moves the top entry of the rest above the current row. -/
def Column.descend (c : Column) : Column :=
  { c with upper := c.upper ++ c.rest.take 1, rest := c.rest.drop 1 }

/-- Reflects a vector along `v`, whose first entry is `v0`. -/
def reflect (v : List Float) (v0 : Float) (u : List Float) : List Float :=
  subScaled u (dot v u / v0) v

/-- The column after a reflection and a descent, its length carried along as long as that is
accurate. -/
def Column.reflect (v : List Float) (v0 : Float) (c : Column) : Column :=
  let moved := { c with rest := LeastSquares.reflect v v0 c.rest }.descend
  if c.length == 0.0 then moved
  else
    let t := (moved.upper.getLast?.getD 0.0) / c.length
    let length := c.length * (greater 0.0 (1.0 - t * t)).sqrt
    let r := length / c.fresh
    if 0.05 * r * r ≤ epsilon then
      let length := norm moved.rest
      { moved with length, fresh := length }
    else { moved with length }

/-- Reduces columns by Householder reflections with pivoting; `b` is transformed with them. Yields
the finished columns and the transformed right-hand side. -/
def reduce : Nat → List Column → List Float → List (Nat × List Float) × List Float
  | 0, _, _ => ([], [])
  | n + 1, columns, b =>
    match pivot columns with
    | [] => ([], [])
    | c :: others =>
      let size := norm c.rest
      let top := c.rest.headD 0.0
      let size := if top < 0.0 then -size else size
      let (others, b) :=
        if size == 0.0 then (others.map Column.descend, b)
        else
          let v := match c.rest.map (· / size) with
            | [] => []
            | first :: below => (first + 1.0) :: below
          let v0 := v.headD 1.0
          (others.map (Column.reflect v v0), reflect v v0 b)
      let (finished, rhs) := reduce n others (b.drop 1)
      ((c.index, c.upper ++ [-size]) :: finished, b.headD 0.0 :: rhs)

/-- The factorization of a matrix given by its columns. -/
def factor (matrix : List (List Float)) (b : List Float) : Factorization :=
  let lengths := matrix.map norm
  let columns := (matrix.zip lengths).zipIdx.map fun ((entries, length), index) =>
    { index, upper := [], rest := entries, length, fresh := length }
  let (finished, rhs) := reduce columns.length columns b
  ⟨finished.map Prod.snd, finished.map Prod.fst, rhs, lengths⟩

namespace Factorization

def diagonal (f : Factorization) : List Float :=
  f.columns.map fun c => c.getLast?.getD 0.0

def isFinite (f : Factorization) : Bool :=
  f.columns.all (·.all Float.isFinite)

/-- The number of leading columns without a zero on the diagonal. -/
def rank (f : Factorization) : Nat :=
  (f.diagonal.takeWhile (· != 0.0)).length

/-- The rows of the triangle, each from the diagonal on. -/
def rows (f : Factorization) : List (List Float) :=
  (List.range f.columns.length).map fun k => (f.columns.drop k).map fun c => c.getD k 0.0

/-- Solves `R x = b`; columns and right-hand side are listed from the last row up. -/
def solveUp : List (List Float) → List Float → List Float
  | (d :: column) :: columns, y :: b =>
    let x := y / d
    x :: solveUp columns (subScaled b x column)
  | _, _ => []

/-- The least-squares solution, in the order of the matrix's columns; zero beyond the rank. -/
def solution (f : Factorization) : List Float :=
  let rank := f.rank
  let solved := solveUp ((f.columns.take rank).reverse.map List.reverse) (f.rhs.take rank).reverse
  place f.order (solved.reverse ++ (f.rhs.drop rank).map fun _ => 0.0)

/-- Solves `Rᵀ x = b`. -/
def solveTransposed (f : Factorization) (b : List Float) : List Float :=
  (f.columns.zip b).foldl (fun solved (column, y) =>
    solved ++ [(y - dot column solved) / (column.getLast?.getD 0.0)]) []

/-- `Rᵀ b` -/
def applyTransposed (f : Factorization) (b : List Float) : List Float :=
  f.columns.map (dot · b)

/-- `R x` -/
def apply (f : Factorization) (x : List Float) : List Float :=
  (f.columns.zip x).foldl (fun sums (column, x) =>
    List.zipWith (fun s r => s + r * x) sums column ++ sums.drop column.length)
    (f.columns.map fun _ => 0.0)

end Factorization

end FormulaFit.LeastSquares

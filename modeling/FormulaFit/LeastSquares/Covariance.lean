import FormulaFit.LeastSquares.Factorization

namespace FormulaFit.LeastSquares

/-- Appends a column to an inverse triangle, whose columns are listed from the first on. -/
def extendInverse (inverse : List (List Float)) (column : List Float) (diagonal : Float) :
    List (List Float) :=
  let reciprocal := 1.0 / diagonal
  let start := column.map fun _ => 0.0
  let entries := (inverse.zip column).foldl (fun sums (known, r) =>
    let t := reciprocal * r
    List.zipWith (fun s k => s + -t * k) sums known ++ sums.drop known.length) start
  inverse ++ [entries ++ [reciprocal]]

/-- The columns of the inverse triangle, up to the first diagonal entry that counts as zero. -/
def invertColumns (tolerance : Float) (inverse : List (List Float)) :
    List (List Float) → List (List Float)
  | [] => inverse
  | column :: rest =>
    let diagonal := column.getLast?.getD 0.0
    if diagonal.abs ≤ tolerance then inverse
    else invertColumns tolerance (extendInverse inverse column.dropLast diagonal) rest

/-- The diagonal of `R⁻¹ R⁻ᵀ` from the columns of the inverse triangle: each entry gathers the
squares of a row, from the diagonal on. -/
def rowSquares (inverse : List (List Float)) : List Float :=
  (List.range inverse.length).map fun j =>
    let row := (inverse.drop j).map fun column => column.getD j 0.0
    match row with
    | [] => 0.0
    | first :: rest => rest.foldl (fun sum r => sum + r * r) (first * first)

/-- The standard errors in the order of the matrix's columns: roots of the diagonal of the
covariance matrix, zero for columns that depend on others. -/
def Factorization.standardErrors (f : Factorization) : List Float :=
  let tolerance := 1e-14 * (f.diagonal.headD 0.0).abs
  let variances := rowSquares (invertColumns tolerance [] f.columns)
  let errors := variances.map fun v => if v > 0.0 then v.sqrt else 0.0
  place f.order (errors ++ (f.order.drop errors.length).map fun _ => 0.0)

end FormulaFit.LeastSquares

import FormulaFit.LeastSquares.Minimizer

namespace FormulaFit

/-- What a fit minimizes: the weighted distance of the points from a program, as a function of the
free parameters, all of which are `inside` the vector. The others keep their place in `base`. -/
structure Objective (α : Type) where
  program : Program α
  base : List α
  /-- Indices of the free parameters. -/
  free : List Nat
  points : List (Point α)
  inside : ∀ i ∈ free, i < base.length

namespace Objective

variable {α : Type}

/-- Overwrites the free entries of a vector of all parameters, which is as long as `base`. -/
def write (o : Objective α) (params trial : List α) : List α :=
  (o.free.zip trial).foldl (fun params (i, v) => params.set i v) params

/-- The vector of all parameters at given values of the free ones. -/
def expand (o : Objective α) (trial : List α) : List α :=
  o.write o.base trial

/-- The weighted distance of a point; a large one where the program is not finite. -/
@[specialize]
def deviation [Scalar α] (o : Objective α) (params : List α) (p : Point α) : Except EvalError α :=
  match o.program.evaluate params p.x with
  | .ok v => .ok (if Scalar.isFinite v then (p.y - v) / p.error else 1e13)
  | .error e => .error e

/-- The deviations of all points at a vector of all parameters. -/
@[specialize]
def deviations [Scalar α] (o : Objective α) (params : List α) : Except EvalError (List α) :=
  o.points.mapM (o.deviation params)

/-- One evaluation on a vector that is used again and again: the deviations, and the vector as it
is left behind. -/
@[specialize]
def call [Scalar α] (o : Objective α) (scratch trial : List α) :
    Except EvalError (List α) × List α :=
  (o.deviations (o.write scratch trial), o.write scratch trial)

/-- The sum of the squared weighted residuals at a vector of all parameters. -/
def chi2 [Scalar α] (o : Objective α) (params : List α) : Except EvalError α :=
  o.points.foldlM (fun sum p => do
    let v ← o.program.evaluate params p.x
    let r := (p.y - v) / p.error
    return sum + r * r) 0

end Objective

end FormulaFit

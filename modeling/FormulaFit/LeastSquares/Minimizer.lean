import FormulaFit.Formula.Program
import FormulaFit.Histogram

namespace FormulaFit

/-- A minimum with the standard error of each parameter. -/
structure Minimum (α : Type) where
  values : List α
  errors : List α

/-- Why no minimum is found. -/
inductive MinimizerError
  | noPoints
  | startOutsideLimits
  | emptyLimits
  | tooFewPoints
  | notFinite
  | evaluation (e : EvalError)
  deriving DecidableEq, Repr

def MinimizerError.message : MinimizerError → String
  | noPoints => "no user data points were supplied"
  | startOutsideLimits => "initial values inconsistent with constraints"
  | emptyLimits => "initial constraints inconsistent"
  | tooFewPoints => "not enough degrees of freedom"
  | notFinite => "user function produced non-finite values"
  | evaluation _ => "error during evaluation by user"

/-- A sum of squares to be minimized: `count` residuals as a function of parameters that stay
within limits, and where the parameters start. -/
structure Problem (α : Type) where
  count : Nat
  residuals : List α → Except EvalError (List α)
  start : List α
  limits : List (Interval α)

/-- A method of minimizing sums of squares. -/
abbrev Minimizer (α : Type) := Problem α → Except MinimizerError (Minimum α)

end FormulaFit

import FormulaFit.Report

namespace FormulaFit

/-- A formula with the parameter values it refers to. -/
structure Component (α : Type) where
  program : Program α
  params : List α

namespace Component

variable {α : Type} [Scalar α]

/-- Compiles `recipe` and fills its own parameter vector from the vector of all parameters. -/
def compile (recipe : String) (registry : Registry α) (fitted : List α) :
    Except ModelError (Component α) := do
  let program ← (FormulaFit.compile recipe registry .compact).mapError .formula
  program.verify.mapError .evaluation
  let params ← (program.bind fitted).mapError .evaluation
  return ⟨program, params⟩

/-- The value at `x`, not a number where the program has none. -/
def value (c : Component α) (x : α) : Except EvalError α :=
  match c.program.evaluate c.params x with
  | .error .outOfBounds => .error .outOfBounds
  | .error _ => .ok Scalar.nan
  | .ok v => .ok v

/-- Samples the component. -/
def sample (c : Component α) (xs : List α) : Except EvalError (List (α × α)) :=
  xs.mapM fun x => (c.value x).map fun y => (x, y)

end Component

end FormulaFit

import FormulaFit.Fit.Objective
import FormulaFit.Fit.Options
import FormulaFit.Report

namespace FormulaFit

/-- The result of a fit; all lists are in the order of the parameters. -/
structure Fit (α : Type) where
  names : List String
  values : List α
  /-- Standard errors, zero for parameters that are not free. -/
  errors : List α
  fixed : List Bool
  /-- Number of points used. -/
  count : Nat
  chi2 : α
  /-- Degrees of freedom: points less free parameters. -/
  ndf : Int

/-- Chi squared per degree of freedom, not a number without any. -/
def Fit.chi2PerDegree {α : Type} [Scalar α] (f : Fit α) : α :=
  if 0 < f.ndf then f.chi2 / Scalar.ofNat f.ndf.toNat else Scalar.nan

/-- Why a fit fails. -/
inductive FitError
  | model (e : ModelError)
  | parameterCount (expected found : Nat)
  | noPoints
  | minimizer (e : MinimizerError)
  deriving DecidableEq, Repr

def FitError.report : FitError → Report
  | model e => .ofModelError e
  | parameterCount expected found =>
    .ofText s!"program needs {expected} parameters but {found} were specified"
  | noPoints => .ofText "no points to fit inside the fit range"
  | minimizer e => (Report.ofText e.message).inContext "failed to fit the model to the input data"

variable {α : Type} [Scalar α]

/-- Indices of the parameters that a fit may move. -/
def freeIndices (params : List (ParamSpec α)) : List Nat :=
  (params.zipIdx.filter fun (p, _) => p.isFree).map Prod.snd

theorem lt_of_mem_freeIndices {params : List (ParamSpec α)} {i : Nat}
    (h : i ∈ freeIndices params) : i < params.length := by
  obtain ⟨⟨p, j⟩, member, rfl⟩ := List.mem_map.mp h
  have bounds := List.mem_zipIdx (List.mem_filter.mp member).1
  omega

/-- The points that a fit uses, each with the error that weights it. -/
def preparePoints (options : FitOptions α) (points : List (Point α)) : List (Point α) :=
  (points.filter fun p => options.uses p.x).map fun p =>
    if options.unitWeights || !decide (0 < p.error) then { p with error := 1.0 } else p

/-- What a fit of a program minimizes. -/
def fitObjective (program : Program α) (params : List (ParamSpec α)) (points : List (Point α))
    (options : FitOptions α) : Objective α where
  program
  base := params.map ParamSpec.initial
  free := freeIndices params
  points := preparePoints options points
  inside _ free := by
    rw [List.length_map]
    exact lt_of_mem_freeIndices free

/-- Searches `runs` times, each time from where the last search ended. -/
def minimizeAgain (minimize : Minimizer α) (problem : Problem α) :
    Nat → Minimum α → Except MinimizerError (Minimum α)
  | 0, found => .ok found
  | runs + 1, found =>
    match minimize { problem with start := found.values } with
    | .ok found => minimizeAgain minimize problem runs found
    | .error e => .error e

/-- Fits a program to points. Parameters that are not free keep their starting value. -/
def fitPoints (minimize : Minimizer α) (program : Program α) (params : List (ParamSpec α))
    (points : List (Point α)) (options : FitOptions α) : Except FitError (Fit α) := do
  if params.length ≠ program.paramsLength then
    throw (.parameterCount program.paramsLength params.length)
  program.verify.mapError fun e => .model (.evaluation e)
  let objective := fitObjective program params points options
  if objective.points.isEmpty then throw .noPoints
  let freeParams := params.filter ParamSpec.isFree
  let problem : Problem α :=
    { count := objective.points.length
      residuals := fun trial => (objective.call objective.base trial).1
      start := freeParams.map ParamSpec.initial
      limits := freeParams.map fun p => ⟨p.lower, p.upper⟩ }
  let runs := if objective.free.isEmpty then 0 else if options.improve then 2 else 1
  let found ← (minimizeAgain minimize problem runs
    ⟨problem.start, problem.start.map fun _ => 0⟩).mapError .minimizer
  let values := objective.expand found.values
  let chi2 ← (objective.chi2 values).mapError fun e => .model (.evaluation e)
  return {
    names := params.map ParamSpec.name
    values
    errors := objective.write (params.map fun _ => 0) found.errors
    fixed := params.map fun p => !p.isFree
    count := objective.points.length
    chi2
    ndf := objective.points.length - objective.free.length }

end FormulaFit

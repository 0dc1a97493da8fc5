import FormulaFit.Double
import FormulaFit.LeastSquares.Minimizer
import FormulaFit.LeastSquares.Damping
import FormulaFit.LeastSquares.Covariance

namespace FormulaFit.LeastSquares

/-- Where a search stands. -/
structure SearchState where
  x : List Float
  residuals : List Float
  /-- Length of the residuals. -/
  size : Float
  /-- Scale of each parameter; empty before the first factorization. -/
  scale : List Float
  /-- Length of the scaled parameters. -/
  scaledSize : Float
  /-- Radius of the trust region. -/
  radius : Float
  damping : Float
  /-- Number of points accepted so far. -/
  accepted : Nat

/-- Relative step of the difference quotients. -/
def differenceStep : Float := epsilon.sqrt

/-- A column of difference quotients. The step is taken backwards next to the upper limit. -/
def differenceColumn (problem : Problem Float) (s : SearchState) (j : Nat) (x : Float)
    (limits : Interval Float) : Except EvalError (List Float) := do
  let h := differenceStep * x.abs
  let h := if h == 0.0 then differenceStep else h
  let h := if x > limits.upper - h then -h else h
  let moved ← problem.residuals (s.x.set j (x + h))
  return List.zipWith (fun a b => (a - b) / h) moved s.residuals

/-- A column is cleared when its parameter sits on a limit and would move across it. -/
def clearPegged (s : SearchState) (x : Float) (limits : Interval Float) (column : List Float) :
    List Float :=
  let slope := dot s.residuals column
  if (x == limits.lower && slope > 0.0) || (x == limits.upper && slope < 0.0) then
    column.map fun _ => 0.0
  else column

/-- The derivatives of the residuals, by columns. -/
def derivatives (problem : Problem Float) (s : SearchState) : Except EvalError (List (List Float)) :=
  (s.x.zip problem.limits).zipIdx.mapM fun ((x, limits), j) =>
    return clearPegged s x limits (← differenceColumn problem s j x limits)

/-- The greatest cosine between the residuals and a column of the derivatives. -/
def greatestCosine (f : Factorization) (size : Float) : Float :=
  if size == 0.0 then 0.0
  else
    let products := f.applyTransposed (f.rhs.map (· / size))
    (products.zip (pick f.order f.lengths)).foldl (fun g (product, length) =>
      if length == 0.0 then g else greater g (product / length).abs) 0.0

/-- Updates the scale of the parameters; the first factorization also sets the trust region. -/
def rescale (s : SearchState) (f : Factorization) : SearchState :=
  if s.scale.isEmpty then
    let scale := f.lengths.map fun length => if length == 0.0 then 1.0 else length
    let scaledSize := norm (multiply scale s.x)
    let radius := 100.0 * scaledSize
    { s with scale, scaledSize, radius := if radius == 0.0 then 100.0 else radius }
  else { s with scale := List.zipWith greater s.scale f.lengths }

/-- One coordinate of a step, or nothing where the parameter would leave its limit at once. -/
def blockStep (x step : Float) (limits : Interval Float) : Float :=
  if (x ≤ limits.lower && step < 0.0) || (x ≥ limits.upper && step > 0.0) then 0.0 else step

/-- The fraction of a step that stays within the limits of one parameter. -/
def allowedFraction (x step : Float) (limits : Interval Float) : Float :=
  let blocked := blockStep x step limits
  if step.abs > epsilon then
    if x + blocked < limits.lower then (limits.lower - x) / blocked
    else if x + blocked > limits.upper then (limits.upper - x) / blocked
    else 1.0
  else 1.0

/-- A value that reaches a limit up to rounding is set to it. -/
def snap (limits : Interval Float) (x : Float) : Float :=
  let margin (limit : Float) :=
    if limit == 0.0 then epsilon else 0.0
  let outward (limit : Float) := if limit ≥ 0.0 then 1.0 else -1.0
  let upper := limits.upper * (1.0 - outward limits.upper * epsilon) - margin limits.upper
  let lower := limits.lower * (1.0 + outward limits.lower * epsilon) + margin limits.lower
  let x := if x ≥ upper then limits.upper else x
  if x ≤ lower then limits.lower else x

/-- A step that was tried, with the reductions of the squared size that it brought and that the
linear model predicts, both relative. -/
structure Attempt where
  x : List Float
  residuals : List Float
  size : Float
  length : Float
  actual : Float
  predicted : Float
  slope : Float

/-- Tries a damped step, shortened to respect the limits. -/
def attempt (problem : Problem Float) (s : SearchState) (f : Factorization) (d : DampedStep) :
    Except EvalError Attempt := do
  let full := d.step.map fun v => -v
  let along := (s.x.zip full).zip problem.limits
  let fraction := along.foldl (fun least ((x, step), limits) =>
    lesser least (allowedFraction x step limits)) 1.0
  let step := along.map fun ((x, step), limits) => blockStep x step limits * fraction
  let x := ((s.x.zip step).zip problem.limits).map fun ((x, step), limits) => snap limits (x + step)
  let length := norm (multiply s.scale step)
  let residuals ← problem.residuals x
  let size := norm residuals
  let actual :=
    if 0.1 * size < s.size then
      let r := size / s.size
      1.0 - r * r
    else -1.0
  let linear := norm (f.apply (pick f.order step)) * fraction / s.size
  let damped := (fraction * d.damping).sqrt * length / s.size
  return {
    x, residuals, size, length, actual
    predicted := linear * linear + damped * damped / 0.5
    slope := -(linear * linear + damped * damped) }

def Attempt.ratio (a : Attempt) : Float :=
  if a.predicted != 0.0 then a.actual / a.predicted else 0.0

/-- Widens or narrows the trust region after an attempt. -/
def adjustRadius (s : SearchState) (a : Attempt) : SearchState :=
  if a.ratio ≤ 0.25 then
    let shrink := if a.actual ≥ 0.0 then 0.5 else 0.5 * a.slope / (a.slope + 0.5 * a.actual)
    let shrink := if 0.1 * a.size ≥ s.size || shrink < 0.1 then 0.1 else shrink
    { s with radius := shrink * lesser s.radius (a.length / 0.1), damping := s.damping / shrink }
  else if s.damping == 0.0 || a.ratio ≥ 0.75 then
    { s with radius := a.length / 0.5, damping := 0.5 * s.damping }
  else s

/-- Moves to the point of a successful attempt. -/
def accept (s : SearchState) (a : Attempt) : SearchState :=
  if a.ratio ≥ 1e-4 then
    { s with
      x := a.x, residuals := a.residuals, size := a.size
      scaledSize := norm (multiply s.scale a.x), accepted := s.accepted + 1 }
  else s

/-- Greatest number of points that are visited. -/
def maxAccepted : Nat := 200

/-- Whether neither the residuals nor the parameters change any more, or the search is too long. -/
def isFinished (s : SearchState) (a : Attempt) (cosine : Float) : Bool :=
  let flat (tolerance : Float) :=
    a.actual.abs ≤ tolerance && a.predicted ≤ tolerance && 0.5 * a.ratio ≤ 1.0
  flat 1e-10 || s.radius ≤ 1e-10 * s.scaledSize || maxAccepted ≤ s.accepted ||
    flat epsilon || s.radius ≤ epsilon * s.scaledSize || cosine ≤ epsilon

/-- The derivatives at a point, factored, with the greatest cosine. -/
structure Linearization where
  factor : Factorization
  cosine : Float

def linearize (problem : Problem Float) (s : SearchState) :
    Except MinimizerError Linearization := do
  let columns ← (derivatives problem s).mapError .evaluation
  let f := factor columns s.residuals
  if f.isFinite then return ⟨f, greatestCosine f s.size⟩
  else throw .notFinite

def Linearization.minimum (l : Linearization) (s : SearchState) : Minimum Float :=
  ⟨s.x, l.factor.standardErrors⟩

/-- Tries steps from the current point, and goes on from the first that succeeds. A failed attempt
at least halves the trust region, so `tries` only has to be large. -/
def search (problem : Problem Float) (l : Linearization) (s : SearchState) :
    Nat → Except MinimizerError (Minimum Float)
  | 0 => .ok (l.minimum s)
  | tries + 1 => do
    let d := dampedStep l.factor s.scale s.radius s.damping
    let a ← (attempt problem s l.factor d).mapError .evaluation
    let radius := if s.accepted = 1 then lesser s.radius a.length else s.radius
    let next := accept (adjustRadius { s with radius, damping := d.damping } a) a
    if isFinished next a l.cosine then return l.minimum next
    else if a.ratio < 1e-4 then search problem l next tries
    else
      let l ← linearize problem next
      if l.cosine ≤ 1e-10 then return l.minimum next
      else search problem l (rescale next l.factor) tries

/-- Refuses problems without points, with a start outside its limits, with empty limits or with
fewer points than parameters. -/
def checkProblem (problem : Problem Float) : Except MinimizerError Unit := do
  if problem.count = 0 then throw .noPoints
  for (x, limits) in problem.start.zip problem.limits do
    if x < limits.lower || x > limits.upper then throw .startOutsideLimits
    if limits.lower ≥ limits.upper then throw .emptyLimits
  if problem.count < problem.start.length then throw .tooFewPoints

/-- The Levenberg–Marquardt method with difference quotients for derivatives. -/
def levenbergMarquardt : Minimizer Float := fun problem => do
  checkProblem problem
  let residuals ← (problem.residuals problem.start).mapError .evaluation
  let s : SearchState :=
    { x := problem.start, residuals, size := norm residuals, scale := [], scaledSize := 0.0
      radius := 0.0, damping := 0.0, accepted := 1 }
  let l ← linearize problem s
  if l.cosine ≤ 1e-10 then return l.minimum s
  else search problem l (rescale s l.factor) 500000

end FormulaFit.LeastSquares

import FormulaFit.Scalar

namespace FormulaFit

namespace Dawson

variable {α : Type} [Scalar α]

/-- Spacing of the sampling grid. -/
def spacing : α := 0.4

/-- The even multiple of the spacing nearest to `|x|`, in units of the spacing. -/
def gridIndex (x : α) : α :=
  2.0 * Scalar.round (0.5 * Scalar.abs x / spacing)

/-- What is left of `|x|` beyond its grid point. -/
def gridOffset (x : α) : α :=
  Scalar.abs x - gridIndex x * spacing

/-- The running values of the sum over odd grid points on both sides of the nearest even one:
their distances to the origin, the exponential weight and the sum so far. -/
structure State (α : Type) where
  above : α
  below : α
  weight : α
  sum : α

def start (x : α) : State α where
  above := gridIndex x + 1.0
  below := gridIndex x + 1.0 - 2.0
  weight := Scalar.exp (2.0 * gridOffset x * spacing)
  sum := 0.0

/-- The Gaussian coefficient of the `i`-th odd grid point. -/
def coefficient (i : Nat) : α :=
  let t := (2.0 * Scalar.ofNat i + 1.0) * spacing
  Scalar.exp (-(t * t))

/-- Adds the `i`-th pair of odd grid points; `ratio` is the square of the first weight. -/
def step (ratio : α) (s : State α) (i : Nat) : State α where
  above := s.above + 2.0
  below := s.below - 2.0
  weight := s.weight * ratio
  sum := s.sum + coefficient i * (s.weight / s.above + 1.0 / (s.below * s.weight))

/-- The state after `n` pairs. -/
def stateAt (x : α) (n : Nat) : State α :=
  (List.range n).foldl (step ((start x).weight * (start x).weight)) (start x)

/-- Number of pairs that are summed. -/
def pairs : Nat := 6

/-- The first terms of the power series, for small arguments. -/
def series (x : α) : α :=
  let x2 := x * x
  x * (1.0 - 2.0 / 3.0 * x2 * (1.0 - 0.4 * x2 * (1.0 - 2.0 / 7.0 * x2)))

end Dawson

/-- Dawson's integral `exp (-x²) ∫₀ˣ exp (t²) dt` by Rybicki's method. -/
def dawson {α : Type} [Scalar α] (x : α) : α :=
  if Scalar.abs x < 0.2 then Dawson.series x
  else
    let offset := Dawson.gridOffset x
    1.0 / Scalar.sqrt Scalar.pi * Scalar.signum x * Scalar.exp (-offset * offset) *
      (Dawson.stateAt x Dawson.pairs).sum

end FormulaFit

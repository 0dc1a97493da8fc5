namespace FormulaFit.LeastSquares

/-- The distance from one to the next double. -/
def epsilon : Float := 2.220446049250313e-16

/-- The smallest normal double. -/
def smallest : Float := 2.2250738585072014e-308

def greater (a b : Float) : Float :=
  if a ≥ b || b.isNaN then a else b

def lesser (a b : Float) : Float :=
  if a ≤ b || b.isNaN then a else b

def dot (u v : List Float) : Float :=
  (List.zipWith (· * ·) u v).foldl (· + ·) 0.0

/-- `u - c v` -/
def subScaled (u : List Float) (c : Float) (v : List Float) : List Float :=
  List.zipWith (fun a b => a - c * b) u v

/-- The vector with its entries placed by index. -/
def place (order : List Nat) (v : List Float) : List Float :=
  (order.zip v).foldl (fun placed (i, value) => placed.set i value) (v.map fun _ => 0.0)

/-- The vector with its entries taken in the given order. -/
def pick (order : List Nat) (v : List Float) : List Float :=
  order.map fun i => v.getD i 0.0

/-- Squares are summed apart for large, middling and small entries, the first and the last relative
to the largest among them. -/
structure SquareSums where
  large : Float
  largest : Float
  middle : Float
  small : Float
  greatestSmall : Float

def SquareSums.add (limit : Float) (s : SquareSums) (entry : Float) : SquareSums :=
  let a := entry.abs
  if a > 1.8269129289596699e-153 then
    if a < limit then { s with middle := s.middle + a * a }
    else if a > s.largest then
      let r := s.largest / a
      { s with large := 1.0 + s.large * r * r, largest := a }
    else
      let r := a / s.largest
      { s with large := s.large + r * r }
  else if a > s.greatestSmall then
    let r := s.greatestSmall / a
    { s with small := 1.0 + s.small * r * r, greatestSmall := a }
  else if a == 0.0 then s
  else
    let r := a / s.greatestSmall
    { s with small := s.small + r * r }

/-- Euclidean length, without overflow or underflow on the way. -/
def norm (v : List Float) : Float :=
  let limit := 1.3407807929942596e153 / v.length.toFloat
  let s := v.foldl (SquareSums.add limit) ⟨0.0, 0.0, 0.0, 0.0, 0.0⟩
  if s.large != 0.0 then s.largest * (s.large + s.middle / s.largest / s.largest).sqrt
  else if s.middle != 0.0 then
    if s.middle ≥ s.greatestSmall then
      (s.middle * (1.0 + s.greatestSmall / s.middle * (s.greatestSmall * s.small))).sqrt
    else (s.greatestSmall * (s.middle / s.greatestSmall + s.greatestSmall * s.small)).sqrt
  else s.greatestSmall * s.small.sqrt

end FormulaFit.LeastSquares

namespace FormulaFit

/-- The magnitude `digits * 10 ^ exponent`. -/
structure Decimal where
  digits : Nat
  exponent : Int
  deriving DecidableEq, Repr

/-- What the bits of a double stand for; a finite value is `mantissa * 2 ^ exponent` up to its
sign. -/
inductive Binary64
  | notANumber
  | infinite (negative : Bool)
  | finite (negative : Bool) (mantissa : Nat) (exponent : Int)
  deriving DecidableEq, Repr

def Binary64.ofBits (bits : UInt64) : Binary64 :=
  let negative := bits.toNat / Nat.pow 2 63 == 1
  let field : Nat := bits.toNat / Nat.pow 2 52 % Nat.pow 2 11
  let fraction : Nat := bits.toNat % Nat.pow 2 52
  if field = 2047 then (if fraction = 0 then infinite negative else notANumber)
  else if field = 0 then finite negative fraction (-1074)
  else finite negative (Nat.pow 2 52 + fraction) ((field : Int) - 1075)

/-- A value with the end points of the values that round to it, as numerators over one common
denominator; the end points themselves count when `closed`. -/
structure RoundingInterval where
  low : Nat
  value : Nat
  high : Nat
  denominator : Nat
  closed : Bool

/-- The interval of a positive double. Below a power of two the neighbours are closer. -/
def RoundingInterval.ofBinary (mantissa : Nat) (exponent : Int) : RoundingInterval :=
  let scale := Nat.pow 2 (exponent - 2).toNat
  let below := if mantissa = Nat.pow 2 52 && exponent > -1074 then 1 else 2
  { low := (4 * mantissa - below) * scale
    value := 4 * mantissa * scale
    high := (4 * mantissa + 2) * scale
    denominator := Nat.pow 2 (2 - exponent).toNat
    closed := mantissa % 2 = 0 }

namespace RoundingInterval

/-- The interval in units of `10 ^ k`. -/
def rescale (r : RoundingInterval) (k : Int) : RoundingInterval :=
  let up := Nat.pow 10 (-k).toNat
  { r with
    low := r.low * up
    value := r.value * up
    high := r.high * up
    denominator := r.denominator * Nat.pow 10 k.toNat }

def contains (r : RoundingInterval) (n : Nat) : Bool :=
  let n := n * r.denominator
  if r.closed then r.low ≤ n && n ≤ r.high else r.low < n && n < r.high

/-- The whole number in the interval nearest to its value; of two equally near ones the even. -/
def nearest? (r : RoundingInterval) : Option Nat :=
  let down := r.value / r.denominator
  let excess := 2 * (r.value % r.denominator)
  let first := if excess < r.denominator || (excess = r.denominator && down % 2 = 0)
    then down else down + 1
  [first, down, down + 1].find? r.contains

/-- The position of the leading digit: `10 ^ k ≤ value < 10 ^ (k + 1)`. -/
def magnitude (r : RoundingInterval) : Int :=
  let guess := ((r.value.log2 : Int) - r.denominator.log2) * 30103 / 100000
  let below := r.rescale guess
  if below.value < below.denominator then guess - 1
  else
    let above := r.rescale (guess + 1)
    if above.denominator ≤ above.value then guess + 1 else guess

/-- Tries ever finer decimal grids, starting with units of `10 ^ k`. -/
def searchGrids (r : RoundingInterval) (k : Int) : Nat → Decimal
  | 0 => ⟨(r.rescale k).value / (r.rescale k).denominator, k⟩
  | tries + 1 =>
    match (r.rescale k).nearest? with
    | some digits => ⟨digits, k⟩
    | none => searchGrids r (k - 1) tries

end RoundingInterval

/-- Moves the zeros at the end of the digits into the exponent. -/
def Decimal.normalize (d : Decimal) : Decimal :=
  if h : d.digits % 10 = 0 ∧ d.digits ≠ 0 then
    Decimal.normalize ⟨d.digits / 10, d.exponent + 1⟩
  else d
termination_by d.digits
decreasing_by exact Nat.div_lt_self (Nat.pos_of_ne_zero h.2) (by decide)

/-- The fewest digits that read back as `mantissa * 2 ^ exponent`; among those, the nearest to
it. -/
def Decimal.shortest (mantissa : Nat) (exponent : Int) : Decimal :=
  if mantissa = 0 then ⟨0, 0⟩
  else
    let r := RoundingInterval.ofBinary mantissa exponent
    (r.searchGrids r.magnitude 17).normalize

end FormulaFit

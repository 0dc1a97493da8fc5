import FormulaFit.Scalar
import FormulaFit.Decimal.Notation

namespace FormulaFit

/-- The double nearest to `digits * 10 ^ exponent`; the two tests keep the powers of ten small
where the result is certain. -/
def doubleOfDecimal (digits : Nat) (exponent : Int) : Float :=
  if digits = 0 then 0.0
  else if 400 < exponent then 1.0 / 0.0
  else if digits.log2 + 3 * exponent < -1200 then 0.0
  else Float.ofScientific digits (exponent < 0) exponent.natAbs

/-- One with the sign bit of the argument. -/
def signumDouble (x : Float) : Float :=
  if x.isNaN then x
  else if x.toBits.toNat / Nat.pow 2 63 = 1 then -1.0
  else 1.0

/-- Doubles are written with the fewest digits that read back, never with an exponent. -/
def doubleText (x : Float) : String :=
  (Binary64.ofBits x.toBits).write Decimal.positional

instance : Scalar Float where
  zero := 0.0
  decideLT := inferInstance
  decideLE := inferInstance
  isNaN := Float.isNaN
  isFinite := Float.isFinite
  nan := 0.0 / 0.0
  infinity := 1.0 / 0.0
  decimal := doubleOfDecimal
  abs := Float.abs
  signum := signumDouble
  round := Float.round
  sqrt := Float.sqrt
  exp := Float.exp
  pi := 3.141592653589793
  text := doubleText

end FormulaFit

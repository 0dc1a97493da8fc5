import FormulaFit.Decimal.Numeral
import FormulaFit.Json.Value

namespace FormulaFit.Json

/-- Appends digits to a significand as long as it fits into 64 bits; the rest is left over. -/
def absorbDigits (significand : Nat) : List Char → Nat × List Char
  | [] => (significand, [])
  | c :: rest =>
    let next := 10 * significand + (c.toNat - '0'.toNat)
    if next < Nat.pow 2 64 then absorbDigits next rest else (significand, c :: rest)

/-- `f * 10 ^ exponent` by a product with one power of ten, or none where that is too large. Small
values are reached in several quotients. -/
def scaleDouble? (f : Float) (exponent : Int) : Option Float :=
  if exponent.natAbs ≤ 308 then
    let power := Float.ofScientific 1 false exponent.natAbs
    if exponent < 0 then some (f / power)
    else if (f * power).isInf then none
    else some (f * power)
  else if f == 0.0 then some f
  else if 0 ≤ exponent then none
  else scaleDouble? (f / 1e308) (exponent + 308)
termination_by exponent.natAbs
decreasing_by omega

/-- The exponent's bounds: 32-bit numbers. -/
def clampExponent (e : Int) : Int :=
  max (-2147483648) (min 2147483647 e)

/-- The magnitude of a literal, computed from a significand of 64 bits and one decimal exponent. It
may differ from the nearest double in the last digit. There is none where it is too large. -/
def Literal.magnitude? (n : Literal) : Option Float :=
  let (significand, dropped) := absorbDigits 0 n.whole
  let (significand, ignored) := absorbDigits significand n.fraction
  let shift : Int := dropped.length - (n.fraction.length - ignored.length : Nat)
  match n.exponent with
  | none => scaleDouble? significand.toFloat shift
  | some (negative, digits) =>
    let size := digitsValue digits
    if Nat.pow 2 31 ≤ size then
      if significand = 0 || negative then some 0.0 else none
    else
      let exponent := if negative then shift - size else shift + size
      scaleDouble? significand.toFloat (clampExponent exponent)

/-- The value of a literal. -/
def Literal.value? (n : Literal) : Option Float :=
  n.magnitude?.map fun v => if n.negative then -v else v

end FormulaFit.Json

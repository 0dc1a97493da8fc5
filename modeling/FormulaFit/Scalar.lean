namespace FormulaFit

/-- The arithmetic in which curves and formulas are computed. A value need not be a number, so
the two comparisons may both fail. -/
class Scalar (α : Type) extends Zero α, Add α, Sub α, Mul α, Div α, Neg α, LT α, LE α where
  decideLT : DecidableLT α
  decideLE : DecidableLE α
  isNaN : α → Bool
  isFinite : α → Bool
  nan : α
  infinity : α
  /-- The value nearest to `digits * 10 ^ exponent`. -/
  decimal (digits : Nat) (exponent : Int) : α
  abs : α → α
  /-- One with the sign of the argument. -/
  signum : α → α
  /-- The nearest whole number, halves away from zero. -/
  round : α → α
  sqrt : α → α
  exp : α → α
  pi : α
  /-- The value as it stands in messages and in written formulas. -/
  text : α → String

instance instDecidableLT {α : Type} [Scalar α] : DecidableLT α := Scalar.decideLT

instance instDecidableLE {α : Type} [Scalar α] : DecidableLE α := Scalar.decideLE

instance {α : Type} [Scalar α] : OfScientific α where
  ofScientific digits negative exponent :=
    Scalar.decimal digits (if negative then -(exponent : Int) else exponent)

/-- A count as a value. -/
def Scalar.ofNat {α : Type} [Scalar α] (n : Nat) : α :=
  Scalar.decimal n 0

/-- Membership in a closed interval; false whenever one of the three is not a number. -/
def Scalar.within {α : Type} [Scalar α] (lower upper x : α) : Bool :=
  decide (lower ≤ x) && decide (x ≤ upper)

end FormulaFit

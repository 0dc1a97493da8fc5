import FormulaFit.Histogram
import FormulaFit.Basis.Lednicky

namespace FormulaFit

/-- The degree of a polynomial. The number of coefficients, one more, has to be a machine word. -/
structure Degree where
  value : Nat
  counted : value + 1 < UInt64.size

namespace Degree

instance : OfNat Degree 0 :=
  ⟨⟨0, by decide⟩⟩

instance : OfNat Degree 1 :=
  ⟨⟨1, by decide⟩⟩

theorem counted_of_char (c : Char) : c.toNat - '0'.toNat + 1 < UInt64.size := by
  have word : c.toNat < UInt32.size := c.val.toNat_lt_size
  simp only [UInt32.size, UInt64.size] at word ⊢
  omega

def ofDigit (c : Char) : Degree :=
  ⟨c.toNat - '0'.toNat, counted_of_char c⟩

end Degree

/-- The functions of the abscissa that a term can be built from. -/
inductive Basis (α : Type)
  | polynomial (degree : Degree)
  | gaussian
  | lednicky
  | template (h : Histogram α)
  /-- A continuous function, with the abscissa multiplied by `unit` first. -/
  | curve (f : α → α) (unit : α)

/-- The polynomial whose coefficients are listed from the constant term on, by Horner's rule. -/
def horner {α : Type} [Zero α] [Add α] [Mul α] (x : α) (coefficients : List α) : α :=
  coefficients.foldr (fun c value => value * x + c) 0

/-- A Gaussian of area `norm`. -/
def gaussian {α : Type} [Scalar α] (x norm mean sigma : α) : α :=
  let z := (x - mean) / sigma
  norm / (Scalar.sqrt (2.0 * Scalar.pi) * sigma) * Scalar.exp (-0.5 * z * z)

namespace Basis

variable {α : Type}

/-- The basis functions that have a name: `pol0` to `pol9`, `gaus` and `lednicky`. -/
def ofName? (name : String) : Option (Basis α) :=
  match name.toList with
  | ['p', 'o', 'l', c] => if c.isDigit then some (polynomial (.ofDigit c)) else none
  | ['g', 'a', 'u', 's'] => some gaussian
  | ['l', 'e', 'd', 'n', 'i', 'c', 'k', 'y'] => some lednicky
  | _ => none

def name : Basis α → String
  | polynomial degree => "pol" ++ toString degree.value
  | gaussian => "gaus"
  | lednicky => "lednicky"
  | template _ => "template"
  | curve _ _ => "curve"

/-- The number of parameters, a machine word and at least one. -/
def arity : Basis α → Nat
  | polynomial degree => degree.value + 1
  | gaussian => 3
  | lednicky => 7
  | template _ | curve _ _ => 1

/-- The value at `x`. There is none when the number of parameters is not the arity, or for a
template without a value at `x`. -/
def value? [Scalar α] (basis : Basis α) (x : α) (parameters : List α) : Option α :=
  match basis, parameters with
  | polynomial degree, ps => if ps.length = degree.value + 1 then some (horner x ps) else none
  | gaussian, [norm, mean, sigma] => some (FormulaFit.gaussian x norm mean sigma)
  | lednicky, [re, im, d0, r1, r2, w, norm] =>
    some (FormulaFit.lednicky x ⟨re, im⟩ d0 r1 r2 w norm)
  | template h, [norm] => (h.interpolate? x).map (norm * ·)
  | curve f unit, [norm] => some (norm * f (x * unit))
  | _, _ => none

end Basis

end FormulaFit

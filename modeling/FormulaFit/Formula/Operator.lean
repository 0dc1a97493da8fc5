import FormulaFit.Scalar

namespace FormulaFit

/-- A binary arithmetic operator of formulas. -/
inductive Operator
  | add
  | sub
  | mul
  | div
  deriving DecidableEq, Repr

namespace Operator

def symbol : Operator → Char
  | add => '+'
  | sub => '-'
  | mul => '*'
  | div => '/'

def ofChar? : Char → Option Operator
  | '+' => some add
  | '-' => some sub
  | '*' => some mul
  | '/' => some div
  | _ => none

/-- Binding strength; operators of equal strength group to the left. -/
def precedence : Operator → Nat
  | add | sub => 1
  | mul | div => 2

def apply {α : Type} [Scalar α] : Operator → α → α → α
  | add, a, b => a + b
  | sub, a, b => a - b
  | mul, a, b => a * b
  | div, a, b => a / b

end Operator

end FormulaFit

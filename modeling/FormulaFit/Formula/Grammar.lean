import FormulaFit.Decimal.Numeral
import FormulaFit.Formula.Tree

namespace FormulaFit

/-- A number as formulas write it: digits and points, with a digit and at most one point. -/
def IsNumberText (text : String) : Prop :=
  (∀ c ∈ text.toList, isNumberPart c) ∧ (∃ c ∈ text.toList, c.isDigit) ∧ text.toList.count '.' ≤ 1

variable {α : Type} [Scalar α]

/-- The tokens derive a formula: operands joined by operators, with any part in parentheses. -/
inductive IsFormula (registry : Registry α) : List TokenKind → Prop
  | number {text : String} (h : IsNumberText text) : IsFormula registry [.number text]
  | identifier {name : String} {t : Term α} (h : registry.get? name = some t) :
    IsFormula registry [.identifier name]
  | group {inner : List TokenKind} (h : IsFormula registry inner) :
    IsFormula registry (.openParen :: inner ++ [.closeParen])
  | operate {left right : List TokenKind} (op : Operator) (hl : IsFormula registry left)
    (hr : IsFormula registry right) : IsFormula registry (left ++ .operator op :: right)

/-- The tokens are a formula that means the tree. At level `n` no operator outside parentheses binds
more loosely than `n`; operators of equal strength group to the left. -/
inductive Reads (registry : Registry α) : Nat → List TokenKind → Tree α → Prop
  | number {level : Nat} {text : String} {n : Numeral} (h : Numeral.read text.toList = .ok n) :
    Reads registry level [.number text] (.number n.value)
  | identifier {level : Nat} {name : String} {t : Term α} (h : registry.get? name = some t) :
    Reads registry level [.identifier name] (.term t)
  | group {level : Nat} {inner : List TokenKind} {tree : Tree α} (h : Reads registry 0 inner tree) :
    Reads registry level (.openParen :: inner ++ [.closeParen]) tree
  | operate {level : Nat} {left right : List TokenKind} {a b : Tree α} (op : Operator)
    (strong : level ≤ op.precedence) (hl : Reads registry op.precedence left a)
    (hr : Reads registry (op.precedence + 1) right b) :
    Reads registry level (left ++ .operator op :: right) (.node op a b)

end FormulaFit

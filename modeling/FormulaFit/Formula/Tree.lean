import FormulaFit.Formula.Program

namespace FormulaFit

/-- What a formula means: numbers and terms joined by operators. -/
inductive Tree (α : Type)
  | number (v : α)
  | term (t : Term α)
  | node (op : Operator) (left right : Tree α)

namespace Tree

variable {α : Type}

/-- The instructions in postfix order, with the slices of terms numbered by `offset`. -/
def code (offset : Term α → Nat) : Tree α → List (Instruction α)
  | number v => [.number v]
  | term t => [.term t (offset t)]
  | node op left right => left.code offset ++ right.code offset ++ [.operator op]

/-- The value at `x`, each term on its slice of the vector of all parameters. -/
def value [Scalar α] (params : List α) (x : α) : Tree α → Except EvalError α
  | number v => .ok v
  | term t =>
    match (t.slice? params).bind (t.basis.value? x) with
    | some v => .ok v
    | none => .error .outOfBounds
  | node op left right => do
    let a ← left.value params x
    let b ← right.value params x
    return op.apply a b

/-- The terms at the leaves, from left to right. -/
def terms : Tree α → List (Term α)
  | number _ => []
  | term t => [t]
  | node _ left right => left.terms ++ right.terms

/-- The stack slots that a left-to-right evaluation takes. -/
def need : Tree α → Nat
  | number _ => 1
  | term _ => 1
  | node _ left right => max left.need (1 + right.need)

end Tree

end FormulaFit

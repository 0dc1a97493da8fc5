import FormulaFit.Registry

namespace FormulaFit

/-- How the parameter slices of terms are numbered. -/
inductive Layout
  /-- By the vector of all registered parameters. -/
  | full
  /-- By a vector of the referenced terms' parameters alone, in the order of their first mention. -/
  | compact
  deriving DecidableEq, Repr

/-- A step of a stack program. -/
inductive Instruction (α : Type)
  | number (v : α)
  | term (t : Term α) (offset : Nat)
  | operator (op : Operator)

/-- A slice of the vector of all parameters. -/
structure Binding where
  offset : Nat
  length : Nat
  deriving DecidableEq, Repr

/-- Why a program has no value. -/
inductive EvalError
  | stackUnderflow (position : Nat) (op : Operator)
  | malformedProgram (remaining : Nat)
  | missingParameters (expected found : Nat)
  /-- An access outside the value stack, a parameter vector or a histogram. -/
  | outOfBounds
  deriving DecidableEq, Repr

def EvalError.message : EvalError → String
  | stackUnderflow position op =>
    "operator '" ++ op.symbol.toString ++
      s!"' at program position {position} has fewer than two operands"
  | malformedProgram remaining =>
    s!"program left {remaining} values on the stack, expected exactly one"
  | missingParameters expected found =>
    s!"parameter vector has {found} values, the program needs {expected}"
  | outOfBounds => "access out of bounds"

/-- Capacity of the value stack. -/
def stackCapacity : Nat := 64

/-- A formula in postfix order. -/
structure Program (α : Type) where
  formula : String
  code : List (Instruction α)
  layout : Layout
  bindings : List Binding
  paramsLength : Nat
  depth : Nat

namespace Instruction

variable {α : Type}

def text [Scalar α] : Instruction α → String
  | number v => Scalar.text v
  | term t _ => t.name
  | operator op => op.symbol.toString

def termName? : Instruction α → Option String
  | term t _ => some t.name
  | _ => none

/-- Puts a value on the stack, unless it is full. -/
def push (v : α) (stack : List α) : Except EvalError (List α) :=
  if stack.length < stackCapacity then .ok (v :: stack) else .error .outOfBounds

/-- Runs one instruction on the stack, the latest value first. -/
@[specialize]
def run [Scalar α] (params : List α) (x : α) (position : Nat) (stack : List α) :
    Instruction α → Except EvalError (List α)
  | number v => push v stack
  | term t offset =>
    match (paramSlice? params offset t.arity).bind (t.basis.value? x) with
    | some v => push v stack
    | none => .error .outOfBounds
  | operator op =>
    match stack with
    | b :: a :: rest => .ok (op.apply a b :: rest)
    | _ => .error (.stackUnderflow position op)

/-- Counts the values on the stack after an instruction. -/
def count (position size : Nat) : Instruction α → Except EvalError Nat
  | operator op => if size < 2 then .error (.stackUnderflow position op) else .ok (size - 1)
  | _ => .ok (size + 1)

/-- The stack height after an instruction; an operator counts as if it had its operands. -/
def height (size : Nat) : Instruction α → Nat
  | operator _ => max size 2 - 1
  | _ => size + 1

end Instruction

variable {α : Type}

/-- Runs instructions in order, where the first has the given position. -/
@[specialize]
def runCode [Scalar α] (params : List α) (x : α) (position : Nat) (stack : List α) :
    List (Instruction α) → Except EvalError (List α)
  | [] => .ok stack
  | i :: rest =>
    match i.run params x position stack with
    | .ok stack => runCode params x (position + 1) stack rest
    | .error e => .error e

/-- The stack size that instructions leave. -/
def countCode (position size : Nat) : List (Instruction α) → Except EvalError Nat
  | [] => .ok size
  | i :: rest =>
    match i.count position size with
    | .ok size => countCode (position + 1) size rest
    | .error e => .error e

/-- The greatest stack height from `size` on. -/
def greatestHeight (size : Nat) : List (Instruction α) → Nat
  | [] => 0
  | i :: rest => max (i.height size) (greatestHeight (i.height size) rest)

namespace Program

/-- The referenced terms' names, by first mention. -/
def terms (p : Program α) : List String :=
  (p.code.filterMap Instruction.termName?).foldl
    (fun names name => if names.contains name then names else names ++ [name]) []

/-- The instructions, joined by single spaces. -/
def postfixText [Scalar α] (p : Program α) : String :=
  String.intercalate " " (p.code.map Instruction.text)

/-- Joins the bound slices of a vector of all parameters. -/
def bindSlices (params : List α) : List Binding → Except EvalError (List α)
  | [] => .ok []
  | b :: rest =>
    match paramSlice? params b.offset b.length with
    | none => .error (.missingParameters (b.offset + b.length) params.length)
    | some slice => (bindSlices params rest).map (slice ++ ·)

/-- The program's own parameter vector, out of the vector of all parameters. -/
def bind (p : Program α) (params : List α) : Except EvalError (List α) :=
  match p.layout with
  | .full =>
    if params.length < p.paramsLength then
      .error (.missingParameters p.paramsLength params.length)
    else .ok (params.take p.paramsLength)
  | .compact => bindSlices params p.bindings

/-- Checks that exactly one value remains, without computing any. -/
def verify (p : Program α) : Except EvalError Unit :=
  match countCode 0 0 p.code with
  | .ok 1 => .ok ()
  | .ok remaining => .error (.malformedProgram remaining)
  | .error e => .error e

/-- The value at `x`. -/
@[specialize]
def evaluate [Scalar α] (p : Program α) (params : List α) (x : α) : Except EvalError α :=
  if params.length < p.paramsLength then
    .error (.missingParameters p.paramsLength params.length)
  else match runCode params x 0 [] p.code with
    | .ok [v] => .ok v
    | .ok stack => .error (.malformedProgram stack.length)
    | .error e => .error e

end Program

end FormulaFit

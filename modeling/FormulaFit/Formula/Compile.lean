import FormulaFit.Formula.Program
import FormulaFit.Decimal.Numeral
import FormulaFit.Text.Similarity

namespace FormulaFit

/-- What a formula must go on with. -/
inductive Expected
  | operand
  | operator
  deriving DecidableEq, Repr

/-- Why a formula cannot be compiled, with the place in its text. -/
inductive FormulaError
  | unknownIdentifier (name : String) (span : Span) (similar : Option String)
  | malformedNumber (text : String) (span : Span)
  | unexpectedCharacter (c : Char) (span : Span)
  | unexpectedToken (found : String) (expected : Expected) (span : Span)
  | unbalancedParen (span : Span)
  | tooDeep (depth : Nat)
  deriving DecidableEq, Repr

/-- An operator or opening parenthesis that waits for what follows. -/
inductive Pending
  | operator (op : Operator)
  | openParen (offset : Nat)
  deriving DecidableEq, Repr

/-- A term with the start of its slice in the compact parameter vector. -/
structure Mention (α : Type) where
  term : Term α
  offset : Nat

/-- The state of reading a formula from left to right. -/
structure Scan (α : Type) where
  /-- The instructions so far, the latest first. -/
  code : List (Instruction α)
  /-- What waits for its right operand or parenthesis, the innermost first. -/
  pending : List Pending
  wantsOperand : Bool
  /-- The terms mentioned so far. -/
  mentions : List (Mention α)
  /-- The length of the compact parameter vector. -/
  length : Nat

namespace Scan

variable {α : Type}

def start : Scan α :=
  ⟨[], [], true, [], 0⟩

/-- Appends an operand. -/
def emit (s : Scan α) (i : Instruction α) : Scan α :=
  { s with code := i :: s.code, wantsOperand := false }

/-- Appends an operand for a term, which takes a new slice of the compact vector at its first
mention. -/
def mention (s : Scan α) (layout : Layout) (t : Term α) : Scan α :=
  match layout with
  | .full => s.emit (.term t t.offset)
  | .compact =>
    match s.mentions.find? (·.term.name = t.name) with
    | some m => s.emit (.term t m.offset)
    | none =>
      let longer : Scan α := { s with
        mentions := s.mentions ++ [⟨t, s.length⟩]
        length := s.length + t.arity }
      longer.emit (.term t s.length)

/-- Appends the operators that wait in front and bind at least as strongly as `op`. -/
def popStronger (op : Operator) : List (Instruction α) → List Pending →
    List (Instruction α) × List Pending
  | code, .operator top :: rest =>
    if top.precedence < op.precedence then (code, .operator top :: rest)
    else popStronger op (.operator top :: code) rest
  | code, pending => (code, pending)

/-- Appends the operators that wait up to the innermost open parenthesis, and closes it. -/
def popGroup? : List (Instruction α) → List Pending → Option (List (Instruction α) × List Pending)
  | code, .operator op :: rest => popGroup? (.operator op :: code) rest
  | code, .openParen _ :: rest => some (code, rest)
  | _, [] => none

/-- Appends all operators that wait; an open parenthesis among them is never closed. -/
def popAll : List (Instruction α) → List Pending → Except FormulaError (List (Instruction α))
  | code, .operator op :: rest => popAll (.operator op :: code) rest
  | _, .openParen offset :: _ => .error (.unbalancedParen ⟨offset, 1⟩)
  | code, [] => .ok code

/-- Takes one more token. Operands and operators must alternate. -/
def step [Scalar α] (registry : Registry α) (layout : Layout) (s : Scan α) (t : Token) :
    Except FormulaError (Scan α) :=
  let unexpected (expected : Expected) := FormulaError.unexpectedToken t.text expected t.span
  match t.kind with
  | .number text =>
    if !s.wantsOperand then .error (unexpected .operator)
    else match Numeral.read text.toList with
      | .ok n => .ok (s.emit (.number n.value))
      | .error _ => .error (.malformedNumber text t.span)
  | .identifier name =>
    if !s.wantsOperand then .error (unexpected .operator)
    else match registry.get? name with
      | some term => .ok (s.mention layout term)
      | none =>
        .error (.unknownIdentifier name t.span (mostSimilar? name (registry.terms.map Term.name)))
  | .openParen =>
    if !s.wantsOperand then .error (unexpected .operator)
    else .ok { s with pending := .openParen t.span.offset :: s.pending }
  | .closeParen =>
    match popGroup? s.code s.pending with
    | none => .error (.unbalancedParen t.span)
    | some (code, pending) =>
      if s.wantsOperand then .error (unexpected .operand)
      else .ok { s with code, pending }
  | .operator op =>
    if s.wantsOperand then .error (unexpected .operand)
    else
      let (code, pending) := popStronger op s.code s.pending
      .ok { s with code, pending := .operator op :: pending, wantsOperand := true }
  | .other c => .error (.unexpectedCharacter c t.span)

/-- Takes the tokens in order. -/
def run [Scalar α] (registry : Registry α) (layout : Layout) (s : Scan α) :
    List Token → Except FormulaError (Scan α)
  | [] => .ok s
  | t :: rest =>
    match s.step registry layout t with
    | .ok s => run registry layout s rest
    | .error e => .error e

/-- The program of a formula whose tokens are read. -/
def finish (s : Scan α) (formula : String) (registry : Registry α) (layout : Layout) :
    Except FormulaError (Program α) :=
  match popAll s.code s.pending with
  | .error e => .error e
  | .ok reversed =>
    let code := reversed.reverse
    let depth := greatestHeight 0 code
    if stackCapacity < depth then .error (.tooDeep depth)
    else match layout with
      | .full => .ok ⟨formula, code, layout, [], registry.paramsLength, depth⟩
      | .compact =>
        .ok ⟨formula, code, layout,
          s.mentions.map fun m => ⟨m.term.offset, m.term.arity⟩, s.length, depth⟩

end Scan

/-- Compiles tokens to a postfix program. A trailing operator is left for the program's
verification to report. -/
def compileTokens {α : Type} [Scalar α] (formula : String) (tokens : List Token)
    (registry : Registry α) (layout : Layout) : Except FormulaError (Program α) :=
  match Scan.start.run registry layout tokens with
  | .ok s => s.finish formula registry layout
  | .error e => .error e

/-- Compiles a formula. -/
def compile {α : Type} [Scalar α] (formula : String) (registry : Registry α) (layout : Layout) :
    Except FormulaError (Program α) :=
  compileTokens formula (tokenize formula) registry layout

end FormulaFit

import FormulaFit.Formula.Compile

namespace FormulaFit

/-- Why a model refuses an operation. -/
inductive ModelError
  | registration (e : RegistrationError)
  | unknownBasis (kind : String)
  | formula (e : FormulaError)
  | evaluation (e : EvalError)
  | notCompiled
  | notFitted
  deriving DecidableEq, Repr

/-- A remark on a place in a formula. -/
structure SpanLabel where
  span : Span
  text : String
  deriving DecidableEq, Repr

namespace RegistrationError

def message : RegistrationError → String
  | invalidName name => s!"term name '{name}' is not an identifier"
  | duplicate name => s!"term '{name}' is already registered"
  | frozen name => s!"cannot register term '{name}': the registry is frozen"
  | arityMismatch name expected found =>
    s!"term '{name}' takes {expected} parameters but {found} were supplied"

def code : RegistrationError → String
  | invalidName _ => "termfit::invalid_term_name"
  | duplicate _ => "termfit::duplicate_term"
  | frozen _ => "termfit::registry_frozen"
  | arityMismatch _ _ _ => "termfit::arity_mismatch"

def help? : RegistrationError → Option String
  | invalidName _ =>
    some "names start with a letter or '_' and continue with letters, digits or '_'"
  | frozen _ => some "all terms must be added before the first formula is compiled"
  | _ => none

end RegistrationError

def Expected.text : Expected → String
  | operand => "an operand"
  | operator => "an operator"

namespace FormulaError

def span? : FormulaError → Option Span
  | unknownIdentifier _ span _ | malformedNumber _ span | unexpectedCharacter _ span
  | unexpectedToken _ _ span | unbalancedParen span => some span
  | tooDeep _ => none

def message : FormulaError → String
  | unknownIdentifier name _ _ => s!"unknown identifier '{name}'"
  | malformedNumber text _ => s!"malformed number '{text}'"
  | unexpectedCharacter c _ => s!"unexpected character '{c}'"
  | unexpectedToken found expected _ => s!"expected {expected.text}, found '{found}'"
  | unbalancedParen _ => "unbalanced parenthesis"
  | tooDeep depth =>
    s!"expression needs {depth} stack slots, at most {stackCapacity} are supported"

def code : FormulaError → String
  | unknownIdentifier _ _ _ => "termfit::unknown_identifier"
  | malformedNumber _ _ => "termfit::malformed_number"
  | unexpectedCharacter _ _ => "termfit::unexpected_character"
  | unexpectedToken _ _ _ => "termfit::unexpected_token"
  | unbalancedParen _ => "termfit::unbalanced_paren"
  | tooDeep _ => "termfit::too_deep"

def help? : FormulaError → Option String
  | unknownIdentifier _ _ similar => similar.map fun name => s!"did you mean '{name}'?"
  | unexpectedCharacter _ _ => some "supported operators are + - * / and parentheses"
  | _ => none

/-- The remark at the span of an error that has one. -/
def labelText : FormulaError → String
  | unknownIdentifier _ _ _ => "not a registered term"
  | malformedNumber _ _ => "cannot be read as a number"
  | unbalancedParen _ => "no matching parenthesis"
  | _ => "here"

end FormulaError

def EvalError.code : EvalError → String
  | stackUnderflow _ _ => "termfit::stack_underflow"
  | malformedProgram _ => "termfit::malformed_program"
  | missingParameters _ _ => "termfit::missing_parameters"
  | outOfBounds => "termfit::out_of_bounds"

namespace ModelError

def message : ModelError → String
  | registration e => e.message
  | unknownBasis kind => s!"unknown basis function '{kind}'"
  | formula e => e.message
  | evaluation e => e.message
  | notCompiled => "no model formula has been compiled"
  | notFitted => "the model has not been fitted"

def code : ModelError → String
  | registration e => e.code
  | unknownBasis _ => "termfit::unknown_basis"
  | formula e => e.code
  | evaluation e => e.code
  | notCompiled => "termfit::not_compiled"
  | notFitted => "termfit::not_fitted"

def help? : ModelError → Option String
  | registration e => e.help?
  | unknownBasis _ => some "expected one of pol0..pol9, gaus, lednicky"
  | formula e => e.help?
  | evaluation _ | notCompiled => none
  | notFitted => some "call `fit` before drawing components"

def labels : ModelError → List SpanLabel
  | formula e => (e.span?.map fun span => ⟨span, e.labelText⟩).toList
  | _ => []

end ModelError

/-- A failure as it is shown: texts from the widest context to the cause, and the model's error if
it is one. -/
structure Report where
  chain : List String
  cause : Option ModelError

namespace Report

def ofText (text : String) : Report :=
  ⟨[text], none⟩

def ofModelError (e : ModelError) : Report :=
  ⟨[e.message], some e⟩

def inContext (context : String) (r : Report) : Report :=
  { r with chain := context :: r.chain }

end Report

end FormulaFit

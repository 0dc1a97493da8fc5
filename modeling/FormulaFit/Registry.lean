import FormulaFit.Basis
import FormulaFit.Formula.Token

namespace FormulaFit

/-- One scalar parameter with its starting value and bounds. -/
structure ParamSpec (α : Type) where
  name : String
  initial : α
  lower : α
  upper : α
  deriving DecidableEq, Repr

/-- A starting value outside its bounds that was replaced by their midpoint. -/
structure RangeWarning (α : Type) where
  term : String
  param : String
  initial : α
  lower : α
  upper : α
  clamped : α
  deriving DecidableEq, Repr

/-- Why a term cannot be registered. -/
inductive RegistrationError
  | invalidName (name : String)
  | duplicate (name : String)
  | frozen (name : String)
  | arityMismatch (name : String) (expected found : Nat)
  deriving DecidableEq, Repr

namespace ParamSpec

variable {α : Type}

/-- A parameter held at `value`: its bounds exclude each other. -/
def held [Scalar α] (name : String) (value : α) : ParamSpec α :=
  ⟨name, value, 1.0, -1.0⟩

def isFixed [Scalar α] (p : ParamSpec α) : Bool :=
  p.upper < p.lower

/-- Whether a fit may move the parameter. Equal bounds pin it. -/
def isFree [Scalar α] (p : ParamSpec α) : Bool :=
  p.lower < p.upper

/-- Whether registration replaces the starting value. -/
def isOutside [Scalar α] (p : ParamSpec α) : Bool :=
  !p.isFixed && !Scalar.within p.lower p.upper p.initial

def midpoint [Scalar α] (p : ParamSpec α) : α :=
  0.5 * (p.lower + p.upper)

/-- The parameter as it is stored. -/
def stored [Scalar α] (p : ParamSpec α) : ParamSpec α :=
  if p.isOutside then { p with initial := p.midpoint } else p

/-- The warning that storing the parameter of a term gives rise to. -/
def warning? [Scalar α] (p : ParamSpec α) (term : String) : Option (RangeWarning α) :=
  if p.isOutside then some ⟨term, p.name, p.initial, p.lower, p.upper, p.midpoint⟩ else none

end ParamSpec

def RangeWarning.message {α : Type} [Scalar α] (w : RangeWarning α) : String :=
  s!"initial value {Scalar.text w.initial} of parameter '{w.param}' (term '{w.term}') is " ++
    s!"outside [{Scalar.text w.lower}, {Scalar.text w.upper}], using {Scalar.text w.clamped}"

/-- A registered term; its parameters start at `offset` in the vector of all parameters. -/
structure Term (α : Type) where
  name : String
  basis : Basis α
  offset : Nat

def Term.arity {α : Type} (t : Term α) : Nat :=
  t.basis.arity

/-- The stretch of a parameter vector, if the vector is long enough. -/
def paramSlice? {α : Type} (params : List α) (offset length : Nat) : Option (List α) :=
  if offset + length ≤ params.length then some ((params.drop offset).take length) else none

/-- The term's own parameters within a vector of all parameters. -/
def Term.slice? {α : Type} (t : Term α) (params : List α) : Option (List α) :=
  paramSlice? params t.offset t.arity

/-- An ordered table of terms that only grows, with the parameters of all terms in one list. -/
structure Registry (α : Type) where
  terms : List (Term α)
  params : List (ParamSpec α)
  warnings : List (RangeWarning α)
  frozen : Bool

namespace Registry

variable {α : Type}

def empty : Registry α :=
  ⟨[], [], [], false⟩

def get? (r : Registry α) (name : String) : Option (Term α) :=
  r.terms.find? (·.name = name)

/-- Takes over one parameter of the term of that name, with the warning it gives rise to. -/
def keep [Scalar α] (r : Registry α) (term : String) (p : ParamSpec α) : Registry α :=
  { r with
    params := r.params ++ [p.stored]
    warnings := r.warnings ++ (p.warning? term).toList }

/-- Appends a term and its parameters. The outcome comes with the registry that is left behind,
whether or not the call succeeds. -/
def tryRegister [Scalar α] (r : Registry α) (name : String) (basis : Basis α)
    (params : List (ParamSpec α)) : Except RegistrationError Unit × Registry α :=
  if r.frozen then (.error (.frozen name), r)
  else if !isIdentifier name then (.error (.invalidName name), r)
  else if (r.get? name).isSome then (.error (.duplicate name), r)
  else if params.length ≠ basis.arity then
    (.error (.arityMismatch name basis.arity params.length), r)
  else
    let offset := r.params.length
    let r := params.foldl (keep · name) r
    (.ok (), { r with terms := r.terms ++ [⟨name, basis, offset⟩] })

/-- The registry with one more term, if the term can be registered. -/
def register [Scalar α] (r : Registry α) (name : String) (basis : Basis α)
    (params : List (ParamSpec α)) : Except RegistrationError (Registry α) :=
  let (outcome, next) := r.tryRegister name basis params
  outcome.map fun () => next

/-- No term can be registered from now on. -/
def freeze (r : Registry α) : Registry α :=
  { r with frozen := true }

/-- The length of a vector of all parameters. -/
def paramsLength (r : Registry α) : Nat :=
  r.params.length

def initialValues (r : Registry α) : List α :=
  r.params.map ParamSpec.initial

/-- The parameters' names, each after its term's name and a point. -/
def qualifiedNames (r : Registry α) : List String :=
  r.terms.flatMap fun t =>
    ((r.params.drop t.offset).take t.arity).map fun p => t.name ++ "." ++ p.name

end Registry

end FormulaFit

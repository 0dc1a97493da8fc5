import FormulaFit.Component
import FormulaFit.Fit

namespace FormulaFit

/-- A labelled formula that is drawn after a fit. -/
structure Recipe where
  label : String
  formula : String
  deriving DecidableEq, Repr

/-- Terms are added while a model is being built; the first formula that compiles ends this for
good. -/
inductive Stage
  | building
  | compiled
  deriving DecidableEq, Repr

/-- Registered terms with the last compiled formula and the last fit of it. -/
structure Model (α : Type) where
  registry : Registry α
  program : Option (Program α)
  fit : Option (Fit α)

namespace Model

variable {α : Type}

def empty : Model α :=
  ⟨.empty, none, none⟩

def stage (m : Model α) : Stage :=
  if m.registry.frozen then .compiled else .building

variable [Scalar α]

/-- Registers a term. As for all calls here that change a model, the outcome comes with the model
that is left behind. -/
def tryAdd (m : Model α) (name : String) (basis : Basis α) (params : List (ParamSpec α)) :
    Except ModelError Unit × Model α :=
  let (outcome, registry) := m.registry.tryRegister name basis params
  (outcome.mapError .registration, { m with registry })

/-- The model with one more term, if the term can be registered. -/
def add (m : Model α) (name : String) (basis : Basis α) (params : List (ParamSpec α)) :
    Except ModelError (Model α) :=
  let (outcome, next) := m.tryAdd name basis params
  outcome.map fun () => next

/-- Compiles a formula, freezes the registry and forgets the last fit. -/
def tryCompile (m : Model α) (formula : String) : Except ModelError (Program α) × Model α :=
  match FormulaFit.compile formula m.registry .full with
  | .error e => (.error (.formula e), m)
  | .ok program =>
    let m := { m with registry := m.registry.freeze, fit := none }
    (.ok program, { m with program := some program })

/-- The program of a formula and the model that has compiled it, if it can be compiled. -/
def compile (m : Model α) (formula : String) : Except ModelError (Program α × Model α) :=
  let (outcome, next) := m.tryCompile formula
  outcome.map fun program => (program, next)

/-- The value of the compiled formula at `x`. -/
def evaluate (m : Model α) (params : List α) (x : α) : Except ModelError α :=
  match m.program with
  | none => .error .notCompiled
  | some program => (program.evaluate params x).mapError .evaluation

/-- Compiles a formula and fits it to a histogram. A formula that compiles stays, whether or not
the fit succeeds. -/
def fitTo (m : Model α) (minimize : Minimizer α) (h : Histogram α) (formula : String)
    (options : FitOptions α) : Except FitError (Fit α) × Model α :=
  match m.tryCompile formula with
  | (.error e, m) => (.error (.model e), m)
  | (.ok program, m) =>
    match fitPoints minimize program m.registry.params h.bins options with
    | .error e => (.error e, m)
    | .ok fit =>
      let fit := { fit with names := m.registry.qualifiedNames }
      (.ok fit, { m with fit := some fit })

/-- The fitted parameter values. -/
def fitted (m : Model α) : Except ModelError (List α) :=
  match m.fit with
  | none => .error .notFitted
  | some fit => .ok fit.values

/-- A formula at the fitted values. -/
def component (m : Model α) (recipe : String) : Except ModelError (Component α) := do
  Component.compile recipe m.registry (← m.fitted)

/-- The curve of one recipe at the fitted values. -/
def drawRecipe (m : Model α) (xs : List α) (r : Recipe) : Except ModelError (Graph α) := do
  let component ← m.component r.formula
  let points ← (component.sample xs).mapError .evaluation
  return ⟨r.label, points⟩

/-- The curves of the whole formula and of each recipe, in this order. -/
def draw (m : Model α) (recipes : List Recipe) (xs : List α) :
    Except ModelError (List (Graph α)) :=
  match m.program with
  | none => .error .notCompiled
  | some program => (⟨"model", program.formula⟩ :: recipes).mapM (m.drawRecipe xs)

end Model

/-- Evenly spaced values from `lower` to `upper`; a single one lies in the middle. -/
def linspace {α : Type} [Scalar α] (lower upper : α) (n : Nat) : List α :=
  if n = 1 then [0.5 * (lower + upper)]
  else
    let step := (upper - lower) / Scalar.ofNat (n - 1)
    (List.range n).map fun i => lower + step * Scalar.ofNat i

end FormulaFit

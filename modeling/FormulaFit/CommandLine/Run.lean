import FormulaFit.CommandLine.Arguments
import FormulaFit.CommandLine.Output
import FormulaFit.LeastSquares.LevenbergMarquardt
import FormulaFit.Setup

namespace FormulaFit.CommandLine

/-- What the program mentions on the way. -/
inductive Notice
  | readingInput
  | outOfRange (w : RangeWarning Float)

def Notice.message : Notice → String
  | readingInput => "Reading CSV from stdin"
  | outOfRange w => w.message

/-- What the program finds around it. -/
structure Environment (m : Type → Type) where
  files : FileReader m
  /-- The standard input. -/
  input : m (List UInt8)
  notify : Notice → m Unit

variable {m : Type → Type} [Monad m]

/-- Where the data come from, for reports. -/
def dataContext (a : Arguments) : String :=
  match a.data with
  | some path => "in '" ++ path ++ "'"
  | none => "from stdin"

/-- Reads the data. -/
def readData (e : Environment m) (a : Arguments) : ExceptT Report m (Histogram Float) := do
  let table ← match a.data with
    | some path => loadTable e.files path
    | none => do
      e.notify .readingInput
      pure (Csv.read (← e.input))
  inContext (dataContext a) ((Histogram.ofTable table).mapError TableError.report)

/-- The text that shows a fit. -/
def fitOutput (a : Arguments) (f : Fit Float) : String :=
  let statistics := if a.noStats then [] else statistics f
  match a.format with
  | .table => unlines (tableOutput f ++ statistics)
  | .plain => unlines (plainOutput f ++ statistics)
  | .json => jsonOutput f

/-- The text that shows the curves of a fitted model at `n` points. -/
def drawOutput (model : Model Float) (recipes : List Recipe) (range : Interval Float) (n : Nat) :
    Except Report String :=
  match model.draw recipes (linspace range.lower range.upper n) with
  | .ok graphs => .ok (graphOutput graphs)
  | .error e => .error (.ofModelError e)

/-- Fits the data as described and yields what is written. -/
def run (e : Environment m) (a : Arguments) : ExceptT Report m String := do
  let setup ← Setup.load e.files a.setup
  let data ← readData e a
  let options ← (FitOptions.read setup.options (setup.range.map Interval.lower)
    (setup.range.map Interval.upper)).mapError fun e => Report.ofText e.message
  let model ← (setup.buildModel e.files (parentPath a.setup)).adapt
    (·.inContext ("in '" ++ a.setup ++ "'"))
  if !options.quiet then
    for w in model.registry.warnings do
      e.notify (.outOfRange w)
  let (result, model) :=
    model.fitTo LeastSquares.levenbergMarquardt data setup.formula options
  let fit ← inContext (dataContext a) (result.mapError FitError.report)
  match a.draw with
  | some n => drawOutput model setup.recipes (options.range.getD data.range) n
  | none => return fitOutput a fit

end FormulaFit.CommandLine

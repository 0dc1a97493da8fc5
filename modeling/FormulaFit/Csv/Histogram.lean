import FormulaFit.Csv.Reader
import FormulaFit.Decimal.Numeral
import FormulaFit.Histogram
import FormulaFit.Report
import FormulaFit.Text.Blank

namespace FormulaFit

/-- Column names, without the blanks around them. -/
structure Headers where
  names : List String

namespace Headers

def ofCells (cells : List String) : Headers :=
  ⟨cells.map fun cell => String.ofList (trimBlanks cell.toList)⟩

def length (h : Headers) : Nat :=
  h.names.length

/-- The first column whose name has a property. -/
def find? (h : Headers) (p : String → Bool) : Option Nat :=
  h.names.findIdx? p

/-- The first column of a name, in any ASCII case. -/
def findName? (h : Headers) (name : String) : Option Nat :=
  h.find? fun other => other.toList.map Char.toLower = name.toList.map Char.toLower

end Headers

/-- Why a table is no histogram. -/
inductive TableError (α : Type)
  | unreadableHeader
  | emptyHeader
  | missingColumn (name : String)
  | unreadableRow (row : Nat)
  | unequalRow (row : Nat)
  | cell (row column : Nat) (e : NumeralError)
  | histogram (e : HistogramError α)

def TableError.report {α : Type} [Scalar α] : TableError α → Report
  | unreadableHeader => .ofText "failed to read CSV header row"
  | emptyHeader => .ofText "headers row is empty"
  | missingColumn name => .ofText s!"could not find column '{name}' in headers"
  | unreadableRow row => .ofText s!"failed to read row {row} in CSV"
  | unequalRow row => .ofText s!"row index {row} does not have the same length as the headers"
  | cell row column e =>
    ((Report.ofText e.message).inContext s!"in column index {column}").inContext
      s!"in row index {row}"
  | histogram e => .ofText e.message

/-- The columns of a histogram's centres, contents and errors. -/
structure HistogramColumns where
  x : Nat
  y : Nat
  error : Option Nat

/-- The columns `x` and `y`, and `err` or else `yerr` if there is one. -/
def HistogramColumns.find {α : Type} (h : Headers) : Except (TableError α) HistogramColumns :=
  match h.findName? "x", h.findName? "y" with
  | none, _ => .error (.missingColumn "x")
  | _, none => .error (.missingColumn "y")
  | some x, some y => .ok ⟨x, y, (h.findName? "err").or (h.findName? "yerr")⟩

variable {α : Type} [Scalar α]

/-- The value of a cell in the given row, regardless of blanks around it. -/
def readCell (row : Nat) (cells : List String) (column : Nat) : Except (TableError α) α :=
  match Numeral.read (trimBlanks (cells.getD column "").toList) with
  | .ok n => .ok n.value
  | .error e => .error (.cell row column e)

/-- The bin of a row. Without an error column the error is the root of the content. -/
def readBin (columns : HistogramColumns) (width row : Nat) (cells : Option (List String)) :
    Except (TableError α) (Point α) := do
  match cells with
  | none => throw (.unreadableRow row)
  | some cells =>
    if cells.length ≠ width then throw (.unequalRow row)
    let x ← readCell row cells columns.x
    let y ← readCell row cells columns.y
    match columns.error with
    | some column => return ⟨x, y, ← readCell row cells column⟩
    | none => return ⟨x, y, Scalar.sqrt (Scalar.abs y)⟩

/-- The bins of the rows in order; the first row has the given number. -/
def readBins (columns : HistogramColumns) (width row : Nat) :
    List (Option (List String)) → Except (TableError α) (List (Point α))
  | [] => .ok []
  | cells :: rest => do
    let bin ← readBin columns width row cells
    let bins ← readBins columns width (row + 1) rest
    return bin :: bins

/-- Reads a histogram from a table. -/
def Histogram.ofTable (t : Csv.Table) : Except (TableError α) (Histogram α) :=
  match t.header with
  | none => .error .unreadableHeader
  | some [] => .error .emptyHeader
  | some cells => do
    let headers := Headers.ofCells cells
    let columns ← HistogramColumns.find headers
    let bins ← readBins columns headers.length 1 t.rows
    (Histogram.ofBins bins).mapError .histogram

end FormulaFit

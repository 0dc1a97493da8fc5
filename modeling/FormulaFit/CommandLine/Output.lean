import FormulaFit.Csv.Writer
import FormulaFit.Decimal.Abbreviated
import FormulaFit.Double
import FormulaFit.Fit
import FormulaFit.Json.Printer
import FormulaFit.Text.Width

namespace FormulaFit.CommandLine

/-- A row of the table of parameters. -/
structure ParameterRow where
  name : String
  value : String
  error : String
  status : String

def parameterRows (f : Fit Float) : List ParameterRow :=
  ((f.names.zip f.values).zip (f.errors.zip f.fixed)).map fun ((name, value), (error, fixed)) =>
    ⟨name, Abbreviated.write value, Abbreviated.write error, if fixed then "fixed" else "free"⟩

/-- Lines on the quality of a fit. -/
def statistics (f : Fit Float) : List String :=
  [s!"  Number of points: {f.count}",
    "  Chi-squared: " ++ Abbreviated.write f.chi2,
    s!"  Degrees of freedom: {f.ndf}",
    "  Chi-squared / ndf: " ++ Abbreviated.write f.chi2PerDegree]

def unlines (lines : List String) : String :=
  String.join (lines.map (· ++ "\n"))

inductive Alignment
  | left
  | right

/-- A line of a cell, one space away from its neighbours. -/
def padCell (width : Nat) (alignment : Alignment) (text : String) : String :=
  let padding := String.ofList (List.replicate (width - columns text) ' ')
  match alignment with
  | .left => " " ++ text ++ padding ++ " "
  | .right => " " ++ padding ++ text ++ " "

/-- The lines of a table row, as many as its tallest cell has. -/
def rowLines (widths : List Nat) (alignments : List Alignment) (cells : List String) :
    List String :=
  let texts := cells.map (·.splitOn "\n")
  let height := (texts.map List.length).foldl max 1
  (List.range height).map fun i =>
    String.intercalate " " <|
      ((widths.zip alignments).zip texts).map fun ((width, alignment), lines) =>
        padCell width alignment (lines.getD i "")

/-- The width of the widest line in each column. -/
def columnWidths (rows : List (List String)) : List Nat :=
  rows.foldl (fun widths cells =>
    List.zipWith (fun width cell => ((cell.splitOn "\n").map columns).foldl max width) widths cells)
    ((rows.head?.getD []).map fun _ => 0)

def rule (c : Char) (length : Nat) : String :=
  String.ofList (List.replicate length c)

/-- A table with lines between its rows. -/
def tableLines (header : List String) (alignments : List Alignment) (rows : List (List String)) :
    List String :=
  let widths := columnWidths (header :: rows)
  let total := (widths.map (· + 3)).foldl (· + ·) 0 - 1
  let left := widths.map fun _ => Alignment.left
  let thin := rule '─' total
  let body := (rows.map (rowLines widths alignments)).intersperse [thin]
  [thin] ++ rowLines widths left header ++ [rule '═' total] ++ body.flatten ++ [thin]

/-- The parameters as a table. -/
def tableOutput (f : Fit Float) : List String :=
  tableLines ["Parameter", "Value", "Standard Error", "Status"] [.left, .right, .right, .left]
    ((parameterRows f).map fun r => [r.name, r.value, r.error, r.status])

/-- The parameters, separated by spaces. -/
def plainOutput (f : Fit Float) : List String :=
  "parameter value error status" ::
    (parameterRows f).map fun r => String.intercalate " " [r.name, r.value, r.error, r.status]

open Json in
/-- The fit as a JSON object. -/
def jsonOutput (f : Fit Float) : String :=
  let document : Document := .object [
    ("parameter_names", .array (f.names.map .string)),
    ("parameter_values", .array (f.values.map ofDouble)),
    ("xerrs", .array (f.errors.map ofDouble)),
    ("fixed", .array (f.fixed.map ofBool)),
    ("n", ofInt f.count),
    ("chi2", ofDouble f.chi2),
    ("ndf", ofInt f.ndf)]
  String.ofList (pretty 0 document ++ ['\n'])

/-- Curves side by side, one point a row. -/
def graphOutput (graphs : List (Graph Float)) : String :=
  let header := "x" :: graphs.map Graph.label
  let xs := (graphs.head?.map fun g => g.points.map Prod.fst).getD []
  let rows := xs.zipIdx.map fun (x, i) =>
    doubleText x :: graphs.map fun g => ((g.points[i]?).map fun p => doubleText p.2).getD ""
  Csv.write (header :: rows)

end FormulaFit.CommandLine

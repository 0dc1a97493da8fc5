import FormulaFit.Scalar

namespace FormulaFit

/-- A measured point; for a bin, its centre, content and error. -/
structure Point (α : Type) where
  x : α
  y : α
  error : α
  deriving DecidableEq, Repr

/-- A closed interval of the abscissa. -/
structure Interval (α : Type) where
  lower : α
  upper : α
  deriving DecidableEq, Repr

def Interval.contains {α : Type} [Scalar α] (i : Interval α) (x : α) : Bool :=
  Scalar.within i.lower i.upper x

/-- A curve's name and its sampled values. -/
structure Graph (α : Type) where
  label : String
  points : List (α × α)

/-- A binned observable with at least one bin. -/
structure Histogram (α : Type) where
  bins : List (Point α)
  nonempty : bins ≠ []

inductive HistogramError (α : Type)
  | empty
  | unequalColumns (centres contents errors : Nat)
  | unordered (row : Nat)
  | multiplier (m : α)

def HistogramError.message {α : Type} [Scalar α] : HistogramError α → String
  | empty => "histogram has no bins"
  | unequalColumns centres contents errors =>
    s!"histogram columns differ in length: {centres} centres, {contents} contents, {errors} errors"
  | unordered row => s!"bin centres must be strictly increasing (row index {row})"
  | multiplier m => "unit multiplier must be positive and finite, got " ++ Scalar.text m

/-- The index of the first value that is not above the one before it. -/
def firstUnordered? {α : Type} [Scalar α] : List α → Option Nat
  | x :: y :: rest => if x < y then (firstUnordered? (y :: rest)).map (· + 1) else some 1
  | _ => none

namespace Histogram

variable {α : Type} [Scalar α]

/-- Bin centres must be strictly increasing. -/
def ofBins (bins : List (Point α)) : Except (HistogramError α) (Histogram α) :=
  if h : bins = [] then .error .empty
  else match firstUnordered? (bins.map Point.x) with
    | some row => .error (.unordered row)
    | none => .ok ⟨bins, h⟩

def ofColumns (xs ys errors : List α) : Except (HistogramError α) (Histogram α) :=
  if xs.isEmpty then .error .empty
  else if xs.length = ys.length && xs.length = errors.length then
    ofBins (List.zipWith (fun x p => ⟨x, p.1, p.2⟩) xs (ys.zip errors))
  else .error (.unequalColumns xs.length ys.length errors.length)

def first (h : Histogram α) : Point α :=
  h.bins.head h.nonempty

def last (h : Histogram α) : Point α :=
  h.bins.getLast h.nonempty

/-- The interval spanned by the bin centres. -/
def range (h : Histogram α) : Interval α :=
  ⟨h.first.x, h.last.x⟩

/-- The number of leading bins whose centre is at most `x`. -/
def upperIndex (h : Histogram α) (x : α) : Nat :=
  (h.bins.takeWhile fun bin => bin.x ≤ x).length

/-- The neighbouring bins with `x` between their centres. -/
def bracket? (h : Histogram α) (x : α) : Option (Point α × Point α) :=
  match h.upperIndex x with
  | 0 => none
  | i + 1 => do return (← h.bins[i]?, ← h.bins[i + 1]?)

/-- The straight line through two points. -/
def line (a b : Point α) (x : α) : α :=
  a.y + (b.y - a.y) * (x - a.x) / (b.x - a.x)

/-- Linear interpolation between adjacent bin centres, constant outside their range. There is no
value when `x` is neither outside the range nor between two bins. -/
def interpolate? (h : Histogram α) (x : α) : Option α :=
  if Scalar.isNaN x then some Scalar.nan
  else if x ≤ h.first.x then some h.first.y
  else if h.last.x ≤ x then some h.last.y
  else (h.bracket? x).map fun (a, b) => line a b x

/-- The same bins with the abscissa in another unit. -/
def changeUnits (h : Histogram α) (m : α) : Except (HistogramError α) (Histogram α) :=
  if 0 < m && Scalar.isFinite m then
    .ok ⟨h.bins.map fun bin => { bin with x := bin.x * m }, by simpa using h.nonempty⟩
  else .error (.multiplier m)

/-- The bins as a graph, restricted to a range if one is given. -/
def draw (h : Histogram α) (range : Option (Interval α)) : Graph α where
  label := "data"
  points := (h.bins.filter fun bin => range.all (·.contains bin.x)).map fun bin => (bin.x, bin.y)

end Histogram

end FormulaFit

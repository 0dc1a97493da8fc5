import FormulaFit.Histogram
import FormulaFit.Text.Blank

namespace FormulaFit

/-- Options of a fit: only points inside `range` are used, `quiet` holds back warnings,
`unitWeights` ignores the points' errors, and `improve` repeats the search from where it ended. -/
structure FitOptions (α : Type) where
  range : Option (Interval α)
  quiet : Bool
  unitWeights : Bool
  improve : Bool

/-- The options that a letter can stand for. -/
inductive FitFlag
  | range
  | quiet
  | unitWeights
  | improve
  deriving DecidableEq, Repr

inductive OptionError (α : Type)
  | unknown (c : Char) (options : String)
  | emptyRange (lower upper : α)
  | missingRange
  | halfRange

def OptionError.message {α : Type} [Scalar α] : OptionError α → String
  | unknown c options => s!"unknown fit option '{c}' in '{options}'"
  | emptyRange lower upper => s!"fit range [{Scalar.text lower}, {Scalar.text upper}] is empty"
  | missingRange => "option R requires a fit range"
  | halfRange => "both xmin and xmax must be specified"

/-- Letters in either case. -/
def FitFlag.ofChar? (c : Char) : Option FitFlag :=
  match c.toUpper with
  | 'R' => some range
  | 'Q' => some quiet
  | 'W' => some unitWeights
  | 'M' => some improve
  | _ => none

/-- The flags of the characters, or the first one that is none. -/
def readFlags : List Char → Except Char (List FitFlag)
  | [] => .ok []
  | c :: rest =>
    match FitFlag.ofChar? c with
    | none => .error c
    | some flag => (readFlags rest).map (flag :: ·)

namespace FitOptions

variable {α : Type}

/-- Whether a point at `x` is used. -/
def uses [Scalar α] (o : FitOptions α) (x : α) : Bool :=
  o.range.all (·.contains x)

/-- The range to fit in, if the flags ask for one. Both ends must be given, or neither. -/
def readRange [Scalar α] (wanted : Bool) (xmin xmax : Option α) :
    Except (OptionError α) (Option (Interval α)) :=
  match xmin, xmax with
  | some lower, some upper =>
    if !wanted then .ok none
    else if lower < upper then .ok (some ⟨lower, upper⟩)
    else .error (.emptyRange lower upper)
  | none, none => if wanted then .error .missingRange else .ok none
  | _, _ => .error .halfRange

/-- Reads letters; blanks between them do not count. -/
def read [Scalar α] (options : String) (xmin xmax : Option α) :
    Except (OptionError α) (FitOptions α) :=
  match readFlags (options.toList.filter (!isBlank ·)) with
  | .error c => .error (.unknown c options)
  | .ok flags =>
    (readRange (flags.contains .range) xmin xmax).map fun range =>
      ⟨range, flags.contains .quiet, flags.contains .unitWeights, flags.contains .improve⟩

end FitOptions

end FormulaFit

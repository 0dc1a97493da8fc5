import FormulaFit.Decimal.Numeral

namespace FormulaFit.CommandLine

inductive OutputFormat
  | table
  | plain
  | json
  deriving DecidableEq, Repr

/-- What the program is asked to do. -/
structure Arguments where
  setup : String
  data : Option String
  format : OutputFormat
  noStats : Bool
  /-- Draw this many points instead of writing the result. -/
  draw : Option Nat
  deriving DecidableEq, Repr

/-- Why arguments are not understood, or a request for information. -/
inductive UsageError
  | help
  | version
  | unknownArgument
  | missingArgument
  | invalidValue
  | unreadableValue
  | repeated
  | needlessValue
  deriving DecidableEq, Repr

/-- What takes a value. -/
inductive Slot
  | setup
  | data
  | format
  | draw
  deriving DecidableEq, Repr

/-- Arguments read so far. A slot with its value is `pending` until the next argument shows what
belongs to it. -/
structure ParseState where
  setup : Option String
  data : Option String
  format : Option OutputFormat
  noStats : Bool
  draw : Option Nat
  pending : Option (Slot × Option String)

def OutputFormat.ofName? : String → Option OutputFormat
  | "table" => some table
  | "plain" => some plain
  | "json" => some json
  | _ => none

/-- A count below 2^64, with or without a plus sign. -/
def readCount? (text : String) : Option Nat :=
  let digits := match text.toList with
    | '+' :: rest => rest
    | chars => chars
  if digits.isEmpty || !digits.all Char.isDigit then none
  else
    let n := digitsValue digits
    if n < Nat.pow 2 64 then some n else none

namespace ParseState

def start : ParseState :=
  ⟨none, none, none, false, none, none⟩

/-- Gives a slot its value. Options may be given once. -/
def assign (s : ParseState) (slot : Slot) (value : String) : Except UsageError ParseState :=
  match slot with
  | .setup => if value.isEmpty then .error .invalidValue else .ok { s with setup := some value }
  | .data => if value.isEmpty then .error .invalidValue else .ok { s with data := some value }
  | .format =>
    if s.format.isSome then .error .repeated
    else match OutputFormat.ofName? value with
      | some format => .ok { s with format := some format }
      | none => .error .invalidValue
  | .draw =>
    if s.draw.isSome then .error .repeated
    else match readCount? value with
      | some n => .ok { s with draw := some n }
      | none => .error .unreadableValue

/-- Settles the pending slot. -/
def settle (s : ParseState) : Except UsageError ParseState :=
  match s.pending with
  | none => .ok s
  | some (_, none) => .error .invalidValue
  | some (slot, some value) => { s with pending := none }.assign slot value

/-- An option with its value, if it is attached. -/
def option (s : ParseState) (slot : Slot) (attached : Option String) :
    Except UsageError ParseState := do
  match attached with
  | some value => (← s.settle).assign slot value
  | none => return { ← s.settle with pending := some (slot, none) }

def flag (s : ParseState) : Except UsageError ParseState := do
  let s ← s.settle
  if s.noStats then throw .repeated
  else return { s with noStats := true }

/-- Whether a slot has its value or waits for it. -/
def isTaken (s : ParseState) (slot : Slot) : Bool :=
  s.pending.any (·.1 = slot) || match slot with
    | .setup => s.setup.isSome
    | .data => s.data.isSome
    | .format => s.format.isSome
    | .draw => s.draw.isSome

/-- An argument without dashes that no option waits for: the next of the two paths. -/
def positional (s : ParseState) (value : String) : Except UsageError ParseState := do
  if !s.isTaken .setup then return { ← s.settle with pending := some (.setup, some value) }
  else if !s.isTaken .data then return { ← s.settle with pending := some (.data, some value) }
  else throw .unknownArgument

/-- An argument that starts with two dashes. -/
def long (s : ParseState) (name : String) (attached : Option String) :
    Except UsageError ParseState :=
  match name with
  | "out" => s.option .format attached
  | "draw" => s.option .draw attached
  | "no-stats" => if attached.isSome then .error .needlessValue else s.flag
  | "help" => if attached.isSome then .error .needlessValue else s.settle.bind fun _ => .error .help
  | "version" =>
    if attached.isSome then .error .needlessValue else s.settle.bind fun _ => .error .version
  | _ => .error .unknownArgument

/-- Letters after one dash. The letter of an option takes the rest as its value. -/
def short (s : ParseState) : List Char → Except UsageError ParseState
  | [] => .ok s
  | 'n' :: rest => do short (← s.flag) rest
  | 'o' :: rest =>
    match rest with
    | [] => s.option .format none
    | '=' :: value => s.option .format (some (String.ofList value))
    | value => s.option .format (some (String.ofList value))
  | 'h' :: _ => s.settle.bind fun _ => .error .help
  | 'V' :: _ => s.settle.bind fun _ => .error .version
  | _ => .error .unknownArgument

/-- An argument that is not behind a double dash. -/
def take (s : ParseState) (argument : String) : Except UsageError ParseState :=
  match argument.toList with
  | '-' :: '-' :: rest =>
    match rest.dropWhile (· ≠ '=') with
    | [] => s.long (String.ofList rest) none
    | _ :: value => s.long (String.ofList (rest.takeWhile (· ≠ '='))) (some (String.ofList value))
  | '-' :: c :: rest => s.short (c :: rest)
  | _ =>
    match s.pending with
    | some (slot, none) => .ok { s with pending := some (slot, some argument) }
    | _ => s.positional argument

/-- Takes arguments in order. Behind a double dash all are positional. -/
def takeAll (s : ParseState) (positionalOnly : Bool) : List String → Except UsageError ParseState
  | [] => s.settle
  | argument :: rest =>
    if positionalOnly then do takeAll (← s.positional argument) true rest
    else if argument = "--" then takeAll s true rest
    else do takeAll (← s.take argument) false rest

end ParseState

/-- Reads the command line. -/
def Arguments.read (arguments : List String) : Except UsageError Arguments := do
  let s ← ParseState.start.takeAll false arguments
  match s.setup with
  | none => throw .missingArgument
  | some setup => return ⟨setup, s.data, s.format.getD .table, s.noStats, s.draw⟩

end FormulaFit.CommandLine

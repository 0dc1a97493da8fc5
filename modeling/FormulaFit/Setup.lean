import FormulaFit.Csv.Histogram
import FormulaFit.Double
import FormulaFit.Json.Reader
import FormulaFit.Model
import FormulaFit.Setup.Fields
import FormulaFit.Setup.Path

namespace FormulaFit

/-- A term as a fit's description gives it: a named basis function, or the file of a template whose
abscissa is multiplied by `unit`. -/
structure TermSetup where
  name : String
  basisName : Option String
  file : Option String
  unit : Float
  params : List (ParamSpec Float)

/-- The description of a fit. -/
structure Setup where
  range : Option (Interval Float)
  terms : List TermSetup
  formula : String
  options : String
  recipes : List Recipe

/-- What a path leads to: nothing, something that cannot be read, or bytes. -/
inductive Contents
  | missing
  | unreadable
  | bytes (b : List UInt8)

/-- A way to read files. -/
abbrev FileReader (m : Type → Type) := String → m Contents

namespace Setup

open Json

def readParam? (v : Value) : Option (ParamSpec Float) := do
  match ← fields? ["name", "init", "lower", "upper"] false v with
  | [some name, some initial, some lower, some upper] =>
    return ⟨← string? name, ← double? initial, ← double? lower, ← double? upper⟩
  | _ => none

def readRecipe? (v : Value) : Option Recipe := do
  match ← fields? ["label", "formula"] false v with
  | [some label, some formula] => return ⟨← string? label, ← string? formula⟩
  | _ => none

def readTerm? (v : Value) : Option TermSetup := do
  match ← fields? ["name", "func", "file", "unit_mult", "params"] true v with
  | [some name, basisName, file, unit, some params] =>
    return {
      name := ← string? name
      basisName := ← withDefault? none (nullable? string?) basisName
      file := ← withDefault? none (nullable? string?) file
      unit := ← withDefault? 1.0 double? unit
      params := ← list? readParam? params }
  | _ => none

def readSetup? (v : Value) : Option Setup := do
  match ← fields? ["fit_range", "terms", "model", "options", "draw"] true v with
  | [range, some terms, some formula, options, recipes] =>
    let range ← withDefault? none (nullable? (pair? double?)) range
    return {
      range := range.map fun (lower, upper) => ⟨lower, upper⟩
      terms := ← list? readTerm? terms
      formula := ← string? formula
      options := ← withDefault? "" string? options
      recipes := ← withDefault? [] (list? readRecipe?) recipes }
  | _ => none

/-- Reads a description from JSON. -/
def read (text : String) : Except Report Setup :=
  match (Json.read? text).bind readSetup? with
  | some s => .ok s
  | none => .error (.ofText "failed to parse fit configuration")

end Setup

section

variable {m : Type → Type} [Monad m]

/-- The report on a file that cannot be opened. -/
def unopened (path : String) : Report :=
  .ofText ("failed to open '" ++ path ++ "'")

/-- Adds what a failure happened in. -/
def inContext {α : Type} (context : String) (result : Except Report α) : Except Report α :=
  result.mapError (·.inContext context)

/-- Reads a description from a file. -/
def Setup.load (files : FileReader m) (path : String) : ExceptT Report m Setup := do
  match ← files path with
  | .bytes b =>
    match String.fromUTF8? ⟨b.toArray⟩ with
    | some text => inContext ("in '" ++ path ++ "'") (Setup.read text)
    | none => throw (unopened path)
  | _ => throw (unopened path)

/-- The table in a file. -/
def loadTable (files : FileReader m) (path : String) : ExceptT Report m Csv.Table := do
  match ← files path with
  | .missing => throw (unopened path)
  | .unreadable => return ⟨none, []⟩
  | .bytes b => return Csv.read b

/-- Reads a histogram from a file. -/
def loadHistogram (files : FileReader m) (path : String) : ExceptT Report m (Histogram Float) := do
  let table ← loadTable files path
  inContext ("in '" ++ path ++ "'") ((Histogram.ofTable table).mapError TableError.report)

/-- The basis of a term. Files are named relative to `directory`. -/
def TermSetup.basis (files : FileReader m) (directory : String) (t : TermSetup) :
    ExceptT Report m (Basis Float) := do
  match t.basisName, t.file with
  | some name, none =>
    match Basis.ofName? name with
    | some basis => return basis
    | none => throw (.ofModelError (.unknownBasis name))
  | none, some file =>
    let h ← loadHistogram files (joinPath directory file)
    match h.changeUnits t.unit with
    | .ok h => return .template h
    | .error e => throw (.ofText e.message)
  | some _, some _ => throw (.ofText "a term takes either 'func' or 'file', not both")
  | none, none => throw (.ofText "a term needs one of 'func' or 'file'")

/-- Adds a term of a description to a model. -/
def TermSetup.addTo (files : FileReader m) (directory : String) (model : Model Float)
    (t : TermSetup) : ExceptT Report m (Model Float) := do
  let basis ← (t.basis files directory).adapt (·.inContext s!"in term '{t.name}'")
  match model.add t.name basis t.params with
  | .ok model => return model
  | .error e => throw (.ofModelError e)

/-- A model with the terms of a description. -/
def Setup.buildModel (files : FileReader m) (directory : String) (s : Setup) :
    ExceptT Report m (Model Float) :=
  s.terms.foldlM (TermSetup.addTo files directory) Model.empty

end

end FormulaFit

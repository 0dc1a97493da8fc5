import FormulaFit.Json.Number

namespace FormulaFit.Json

/-- The values of named fields, in the given order, where they are present. An object holds each at
most once; when `strict`, it holds no others. An array holds the first fields in their order. -/
def fields? (names : List String) (strict : Bool) : Value → Option (List (Option Value))
  | .object members =>
    let known := members.filter fun (key, _) => names.any (key = some ·)
    let keys := known.map Prod.fst
    if members.any (fun (key, _) => key.isNone) then none
    else if strict && known.length ≠ members.length then none
    else if keys.eraseDups.length ≠ keys.length then none
    else some (names.map fun name => (known.find? fun (key, _) => key = some name).map Prod.snd)
  | .array items =>
    if names.length < items.length then none
    else some (items.map some ++ List.replicate (names.length - items.length) none)
  | _ => none

def string? : Value → Option String
  | .string s => s
  | _ => none

def double? : Value → Option Float
  | .number n => n.value?
  | _ => none

def list? {α : Type} (item : Value → Option α) : Value → Option (List α)
  | .array items => items.mapM item
  | _ => none

def pair? {α : Type} (item : Value → Option α) : Value → Option (α × α)
  | .array [a, b] => do return (← item a, ← item b)
  | _ => none

/-- A value or null. -/
def nullable? {α : Type} (item : Value → Option α) : Value → Option (Option α)
  | .null => some none
  | v => (item v).map some

/-- A field that may be left out. -/
def withDefault? {α : Type} (default : α) (item : Value → Option α) : Option Value → Option α
  | none => some default
  | some v => item v

end FormulaFit.Json

namespace FormulaFit.Json

/-- A number as it is written: the digits before and after the point, and the exponent. -/
structure Literal where
  negative : Bool
  whole : List Char
  fraction : List Char
  exponent : Option (Bool × List Char)
  deriving DecidableEq, Repr

/-- A JSON value as it is written: members keep their order and may repeat. A text is missing where
its escapes leave half of a surrogate pair alone. -/
inductive Value
  | null
  | bool (b : Bool)
  | number (n : Literal)
  | string (s : Option String)
  | array (items : List Value)
  | object (members : List (Option String × Value))

end FormulaFit.Json

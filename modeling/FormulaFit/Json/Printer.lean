import FormulaFit.Decimal.Notation

namespace FormulaFit.Json

/-- A value to be written; numbers are already text. -/
inductive Document
  | literal (text : List Char)
  | string (s : String)
  | array (items : List Document)
  | object (members : List (String × Document))

/-- The escape of a character within a string. -/
def escapeChar (c : Char) : List Char :=
  if c = '"' then ['\\', '"']
  else if c = '\\' then ['\\', '\\']
  else if c.toNat = 8 then ['\\', 'b']
  else if c.toNat = 9 then ['\\', 't']
  else if c.toNat = 10 then ['\\', 'n']
  else if c.toNat = 12 then ['\\', 'f']
  else if c.toNat = 13 then ['\\', 'r']
  else if c.toNat < 0x20 then
    '\\' :: 'u' :: '0' :: '0' :: [Nat.digitChar (c.toNat / 16), Nat.digitChar (c.toNat % 16)]
  else [c]

def quoted (s : String) : List Char :=
  '"' :: s.toList.flatMap escapeChar ++ ['"']

/-- Positional notation for numbers from 0.00001 up to below 10^16, whole ones with a zero after the
point; else one digit before the point and a signed exponent. -/
def numberText (d : Decimal) : List Char :=
  let point := d.pointPosition
  if d.digits = 0 || (-5 < point && point ≤ 16) then
    let (whole, fraction) := d.split
    whole ++ '.' :: (if fraction.isEmpty then ['0'] else fraction)
  else
    d.scientific fun e => (if e < 0 then ['e', '-'] else ['e', '+']) ++ digitChars e.natAbs

/-- A double with its shortest digits; what is no finite number has no JSON form. -/
def ofDouble (x : Float) : Document :=
  .literal <|
    if x.isFinite then ((Binary64.ofBits x.toBits).write numberText).toList else "null".toList

def ofInt (n : Int) : Document :=
  .literal (toString n).toList

def ofBool (b : Bool) : Document :=
  .literal (if b then "true".toList else "false".toList)

def indent (depth : Nat) : List Char :=
  '\n' :: List.replicate (2 * depth) ' '

mutual

/-- The document with each item and member on a line of its own. -/
def pretty (depth : Nat) : Document → List Char
  | .literal text => text
  | .string s => quoted s
  | .array [] => ['[', ']']
  | .array (item :: items) =>
    '[' :: indent (depth + 1) ++ pretty (depth + 1) item ++ prettyItems (depth + 1) items ++
      indent depth ++ [']']
  | .object [] => ['\x7b', '\x7d']
  | .object ((key, value) :: members) =>
    '\x7b' :: indent (depth + 1) ++ quoted key ++ ':' :: ' ' :: pretty (depth + 1) value ++
      prettyMembers (depth + 1) members ++ indent depth ++ ['\x7d']

def prettyItems (depth : Nat) : List Document → List Char
  | [] => []
  | item :: items => ',' :: indent depth ++ pretty depth item ++ prettyItems depth items

def prettyMembers (depth : Nat) : List (String × Document) → List Char
  | [] => []
  | (key, value) :: members =>
    ',' :: indent depth ++ quoted key ++ ':' :: ' ' :: pretty depth value ++
      prettyMembers depth members

end

end FormulaFit.Json

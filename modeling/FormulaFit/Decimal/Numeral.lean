import FormulaFit.Scalar

namespace FormulaFit

/-- A number as written in decimal; a finite one is `digits * 10 ^ exponent` up to its sign. -/
inductive Numeral
  | finite (negative : Bool) (digits : Nat) (exponent : Int)
  | infinite (negative : Bool)
  | notANumber
  deriving DecidableEq, Repr

/-- Why a text is no numeral. -/
inductive NumeralError
  | empty
  | malformed
  deriving DecidableEq, Repr

def NumeralError.message : NumeralError → String
  | .empty => "cannot parse float from empty string"
  | .malformed => "invalid float literal"

/-- The number that a run of decimal digits denotes. -/
def digitsValue (digits : List Char) : Nat :=
  digits.foldl (fun n c => 10 * n + (c.toNat - '0'.toNat)) 0

namespace Numeral

def takeSign : List Char → Bool × List Char
  | '-' :: rest => (true, rest)
  | '+' :: rest => (false, rest)
  | text => (false, text)

/-- An exponent mark with at least one digit, or nothing at all. -/
def readExponent? : List Char → Option Int
  | [] => some 0
  | mark :: rest =>
    let (negative, digits) := takeSign rest
    if (mark = 'e' || mark = 'E') && !digits.isEmpty && digits.all Char.isDigit then
      some (if negative then -(digitsValue digits : Int) else digitsValue digits)
    else none

/-- Digits with at most one point among them and an optional exponent. -/
def readFinite? (negative : Bool) (text : List Char) : Option Numeral :=
  let whole := text.takeWhile Char.isDigit
  let afterWhole := text.dropWhile Char.isDigit
  let (fraction, rest) := match afterWhole with
    | '.' :: more => (more.takeWhile Char.isDigit, more.dropWhile Char.isDigit)
    | _ => ([], afterWhole)
  if whole.isEmpty && fraction.isEmpty then none
  else (readExponent? rest).map fun exponent =>
    finite negative (digitsValue (whole ++ fraction)) (exponent - fraction.length)

/-- Reads a numeral that takes up the whole text; the words for infinity and for no number are
read in any case. -/
def read (text : List Char) : Except NumeralError Numeral :=
  if text.isEmpty then .error .empty
  else
    let (negative, rest) := takeSign text
    let word := rest.map Char.toLower
    if word = "inf".toList || word = "infinity".toList then .ok (infinite negative)
    else if word = "nan".toList then .ok notANumber
    else match readFinite? negative rest with
      | some numeral => .ok numeral
      | none => .error .malformed

/-- The value a numeral denotes. -/
def value {α : Type} [Scalar α] : Numeral → α
  | finite negative digits exponent =>
    if negative then -Scalar.decimal digits exponent else Scalar.decimal digits exponent
  | infinite negative => if negative then -Scalar.infinity else Scalar.infinity
  | notANumber => Scalar.nan

end Numeral

end FormulaFit

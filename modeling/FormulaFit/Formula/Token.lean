import FormulaFit.Formula.Operator
import FormulaFit.Text.Blank
import FormulaFit.Text.Letter

namespace FormulaFit

/-- A stretch of a text, counted in bytes of UTF-8. -/
structure Span where
  offset : Nat
  length : Nat
  deriving DecidableEq, Repr

inductive TokenKind
  | number (text : String)
  | identifier (name : String)
  | operator (op : Operator)
  | openParen
  | closeParen
  | other (c : Char)
  deriving DecidableEq, Repr

def TokenKind.text : TokenKind → String
  | number text => text
  | identifier name => name
  | operator op => op.symbol.toString
  | openParen => "("
  | closeParen => ")"
  | other c => c.toString

structure Token where
  kind : TokenKind
  span : Span
  deriving DecidableEq, Repr

def Token.text (t : Token) : String :=
  t.kind.text

def isIdentifierStart (c : Char) : Bool :=
  isLetter c || c = '_'

def isIdentifierPart (c : Char) : Bool :=
  isLetter c || isNumeric c || c = '_'

/-- Names of terms: a letter or underscore, then letters, digits and underscores. -/
def isIdentifier (name : String) : Bool :=
  match name.toList with
  | [] => false
  | c :: rest => isIdentifierStart c && rest.all isIdentifierPart

def isNumberPart (c : Char) : Bool :=
  c.isDigit || c = '.'

/-- The token of a character that stands for itself. -/
def TokenKind.ofSymbol (c : Char) : TokenKind :=
  if c = '(' then openParen
  else if c = ')' then closeParen
  else match Operator.ofChar? c with
    | some op => operator op
    | none => other c

/-- The longest token that starts with `c`, and the text after it. -/
def TokenKind.read (c : Char) (rest : List Char) : TokenKind × List Char :=
  if isNumberPart c then
    (number (String.ofList (c :: rest.takeWhile isNumberPart)), rest.dropWhile isNumberPart)
  else if isIdentifierStart c then
    (identifier (String.ofList (c :: rest.takeWhile isIdentifierPart)),
      rest.dropWhile isIdentifierPart)
  else (ofSymbol c, rest)

theorem length_dropWhile_le {α : Type} (p : α → Bool) (xs : List α) :
    (xs.dropWhile p).length ≤ xs.length :=
  (List.dropWhile_sublist p).length_le

theorem TokenKind.length_read_le (c : Char) (rest : List Char) :
    (TokenKind.read c rest).2.length ≤ rest.length := by
  unfold TokenKind.read
  split
  · exact length_dropWhile_le _ _
  · split
    · exact length_dropWhile_le _ _
    · exact Nat.le_refl _

/-- The tokens of a text that starts at `offset`. -/
def tokensFrom (offset : Nat) : List Char → List Token
  | [] => []
  | c :: rest =>
    if isBlank c then tokensFrom (offset + c.utf8Size) rest
    else
      let length := (TokenKind.read c rest).1.text.utf8ByteSize
      ⟨(TokenKind.read c rest).1, ⟨offset, length⟩⟩ ::
        tokensFrom (offset + length) (TokenKind.read c rest).2
termination_by text => text.length
decreasing_by
  · simp
  · exact Nat.lt_succ_of_le (TokenKind.length_read_le c rest)

/-- Splits a formula into tokens. Every text has tokens; faults show when they are compiled. -/
def tokenize (formula : String) : List Token :=
  tokensFrom 0 formula.toList

/-- Tokens joined by single spaces. -/
def printTokens (tokens : List Token) : String :=
  String.intercalate " " (tokens.map Token.text)

end FormulaFit

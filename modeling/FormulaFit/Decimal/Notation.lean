import FormulaFit.Decimal.Shortest

namespace FormulaFit

def zeros (n : Nat) : List Char :=
  List.replicate n '0'

/-- The decimal digits of a number, without leading zeros. -/
def digitChars (n : Nat) : List Char :=
  Nat.toDigits 10 n

namespace Decimal

/-- The number of digits before the point in positional notation; not positive below a tenth. -/
def pointPosition (d : Decimal) : Int :=
  (digitChars d.digits).length + d.exponent

/-- All digits of the whole part and of the fraction. -/
def split (d : Decimal) : List Char × List Char :=
  let digits := digitChars d.digits
  let point := d.pointPosition
  if 0 ≤ d.exponent then (digits ++ zeros d.exponent.toNat, [])
  else if 0 < point then (digits.take point.toNat, digits.drop point.toNat)
  else (['0'], zeros (-point).toNat ++ digits)

/-- All digits with a point before the fraction, if there is one. -/
def positional (d : Decimal) : List Char :=
  let (whole, fraction) := d.split
  if fraction.isEmpty then whole else whole ++ '.' :: fraction

/-- One digit before the point, and the exponent after the given mark. -/
def scientific (d : Decimal) (mark : Int → List Char) : List Char :=
  let digits := digitChars d.digits
  let fraction := digits.drop 1
  digits.take 1 ++ (if fraction.isEmpty then [] else '.' :: fraction) ++ mark (d.pointPosition - 1)

end Decimal

/-- Writes a double: words for what is no finite number, else its shortest digits as `write` sets
them, after a sign. -/
def Binary64.write (b : Binary64) (write : Decimal → List Char) : String :=
  let signed (negative : Bool) (text : List Char) := if negative then '-' :: text else text
  String.ofList <| match b with
    | notANumber => "NaN".toList
    | infinite negative => signed negative "inf".toList
    | finite negative mantissa exponent =>
      signed negative (write (Decimal.shortest mantissa exponent))

end FormulaFit

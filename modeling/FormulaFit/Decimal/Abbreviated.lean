import FormulaFit.Decimal.Notation

namespace FormulaFit.Abbreviated

/-- Digits that are written at least. -/
def leastDigits : Nat := 4

/-- Unit marks for successive factors of a thousand. -/
def units : List String :=
  [" K", " M", " B", " T", " P", " E", " Z", " Y"]

/-- Divides by a thousand as long as the value has four digits before the point and there is a
further unit; yields the value in its unit and the mark of the unit. -/
def scale (x : Float) (mark : String) : List String → Float × String
  | [] => (x, mark)
  | next :: rest => if x.abs ≥ 1000.0 then scale (x / 1000.0) next rest else (x, mark)

/-- Commas between groups of three digits, counted from the right. -/
def groupDigits (digits : List Char) : List Char :=
  digits.zipIdx.flatMap fun (c, i) =>
    if i ≠ 0 && (digits.length - i) % 3 = 0 then [',', c] else [c]

/-- All digits before the point, and as many after it as make up the least number. Digits are cut,
not rounded. -/
def cut (d : Decimal) : List Char :=
  let (whole, fraction) := d.split
  let fraction := if fraction.isEmpty then ['0'] else fraction
  if leastDigits ≤ whole.length then groupDigits whole
  else whole ++ '.' :: fraction.take (leastDigits - whole.length)

/-- `10 ^ n` by repeated squaring; `a` is ten to the power of the current bit. -/
def powerOfTen (r a : Float) (n : Nat) : Float :=
  if h : n = 0 then r
  else powerOfTen (if n % 2 = 1 then r * a else r) (a * a) (n / 2)
termination_by n
decreasing_by exact Nat.div_lt_self (Nat.pos_of_ne_zero h) (by decide)

def powerOfTenInt (n : Int) : Float :=
  let r := powerOfTen 1.0 10.0 n.natAbs
  if n < 0 then 1.0 / r else r

/-- The decimal exponent in scientific form: the logarithm without its fraction, one less below
one. -/
def scientificExponent (x : Float) : Int :=
  let e := x.abs.log10.toInt64.toInt
  if x.abs < 1.0 then e - 1 else e

def writeCut (x : Float) : String :=
  (Binary64.ofBits x.toBits).write cut

def scientific (x : Float) : String :=
  let e := scientificExponent x
  writeCut (x * powerOfTenInt (-e)) ++ "e" ++ toString e

/-- A number for tables: four digits, and a mark for factors of a thousand. Values beyond the marks
are in scientific form. -/
def write (x : Float) : String :=
  if x.isNaN then "NaN"
  else if x.isInf then (if x < 0.0 then "-∞" else "∞")
  else if x == 0.0 then "0"
  else
    let (scaled, mark) := scale x "" units
    if scaled.abs ≥ 1e12 || scaled.abs < 0.001 then scientific x
    else writeCut scaled ++ mark

end FormulaFit.Abbreviated

import Mathlib
import FormulaFit.Scalar

namespace FormulaFit

/-- Exact arithmetic: the operations are those of an ordered field, and every value is a finite
number. Nothing is said of constants, nor of the functions that lead out of such a field. -/
class ExactScalar (K : Type) extends Field K, LinearOrder K, IsStrictOrderedRing K, Scalar K where
  isNaN_eq (x : K) : Scalar.isNaN x = false
  isFinite_eq (x : K) : Scalar.isFinite x = true

/-- The rational numbers, with a choice of the functions that lead out of them. -/
@[reducible] def ExactScalar.rational (sqrt exp : ℚ → ℚ) (pi : ℚ) : ExactScalar ℚ :=
  { (inferInstance : Field ℚ), (inferInstance : LinearOrder ℚ),
    (inferInstance : IsStrictOrderedRing ℚ) with
    decideLT := inferInstance
    decideLE := inferInstance
    isNaN := fun _ => false
    isFinite := fun _ => true
    nan := 0
    infinity := 0
    decimal := fun digits exponent => digits * 10 ^ exponent
    abs := fun x => |x|
    signum := fun x => if x < 0 then -1 else 1
    round := fun x => (if x < 0 then -1 else 1) * ⌊|x| + 1 / 2⌋
    sqrt := sqrt
    exp := exp
    pi := pi
    text := toString
    isNaN_eq := fun _ => rfl
    isFinite_eq := fun _ => rfl }

variable {K : Type} [ExactScalar K]

theorem not_isNaN (x : K) : ¬Scalar.isNaN x :=
  Bool.not_eq_true _ ▸ ExactScalar.isNaN_eq x

/-- Units can be changed by any positive value. -/
theorem isFinite (x : K) : Scalar.isFinite x :=
  ExactScalar.isFinite_eq x

/-- Exact arithmetic with the absolute value and the sign of the ordered field. Of the sign of zero
nothing is said, and numerals may have any values. -/
class SignedScalar (K : Type) [ExactScalar K] : Prop where
  abs_eq (x : K) : Scalar.abs x = |x|
  signum_of_pos (x : K) : 0 < x → Scalar.signum x = 1
  signum_of_neg (x : K) : x < 0 → Scalar.signum x = -1

/-- Exact arithmetic in which numerals have their values and rounding finds a nearest whole number,
whichever way halves go. -/
class DecimalScalar (K : Type) [ExactScalar K] : Prop extends SignedScalar K where
  decimal_eq (digits : ℕ) (exponent : ℤ) :
    (Scalar.decimal digits exponent : K) = digits * 10 ^ exponent
  exists_round (x : K) : ∃ n : ℤ, Scalar.round x = n ∧ |x - n| ≤ 1 / 2

/-- Rounding the distance to zero and giving back the sign is rounding to a nearest whole number. -/
theorem exists_round_rational (x : ℚ) :
    ∃ n : ℤ, (if x < 0 then -1 else 1) * (⌊|x| + 1 / 2⌋ : ℚ) = n ∧ |x - n| ≤ 1 / 2 := by
  have near : |(|x|) - (⌊|x| + 1 / 2⌋ : ℤ)| ≤ 1 / 2 := round_eq |x| ▸ abs_sub_round |x|
  split
  next negative =>
    have mirrored : x - (-⌊|x| + 1 / 2⌋ : ℤ) = -(|x| - (⌊|x| + 1 / 2⌋ : ℤ)) := by
      rw [Int.cast_neg, abs_of_neg negative]
      ring
    refine ⟨-⌊|x| + 1 / 2⌋, by rw [neg_one_mul, Int.cast_neg], ?_⟩
    rwa [mirrored, abs_neg]
  next nonneg =>
    refine ⟨⌊|x| + 1 / 2⌋, one_mul _, ?_⟩
    rwa [abs_of_nonneg (not_lt.mp nonneg)] at near ⊢

theorem DecimalScalar.rational (sqrt exp : ℚ → ℚ) (pi : ℚ) :
    letI := ExactScalar.rational sqrt exp pi
    DecimalScalar ℚ :=
  letI := ExactScalar.rational sqrt exp pi
  { abs_eq := fun _ => rfl
    signum_of_pos := fun _ positive => if_neg positive.le.not_gt
    signum_of_neg := fun _ negative => if_pos negative
    decimal_eq := fun _ _ => rfl
    exists_round := exists_round_rational }

end FormulaFit

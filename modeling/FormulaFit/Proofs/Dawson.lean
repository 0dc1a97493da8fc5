import Mathlib
import FormulaFit.Basis
import FormulaFit.Proofs.Exact

namespace FormulaFit

section

variable {K : Type} [ExactScalar K]

theorem Dawson.series_neg (x : K) : series (-x) = -series x := by
  have square : -x * -x = x * x := neg_mul_neg x x
  simp only [series, square, neg_mul]

variable [SignedScalar K]

theorem scalarAbs_neg (x : K) : Scalar.abs (-x) = Scalar.abs x := by
  rw [SignedScalar.abs_eq, SignedScalar.abs_eq, abs_neg]

theorem signum_neg {x : K} (apart : x ≠ 0) : Scalar.signum (-x) = -Scalar.signum x := by
  rcases lt_or_gt_of_ne apart with negative | positive
  · rw [SignedScalar.signum_of_neg x negative,
      SignedScalar.signum_of_pos (-x) (neg_pos.mpr negative), neg_neg]
  · rw [SignedScalar.signum_of_pos x positive,
      SignedScalar.signum_of_neg (-x) (neg_lt_zero.mpr positive)]

namespace Dawson

theorem gridIndex_neg (x : K) : gridIndex (-x) = gridIndex x := by
  rw [gridIndex, gridIndex, scalarAbs_neg]

theorem gridOffset_neg (x : K) : gridOffset (-x) = gridOffset x := by
  rw [gridOffset, gridOffset, scalarAbs_neg, gridIndex_neg]

theorem stateAt_neg (x : K) (n : ℕ) : stateAt (-x) n = stateAt x n := by
  simp only [stateAt, start, gridIndex_neg, gridOffset_neg]

end Dawson

theorem dawson_neg_of_ne_zero {x : K} (apart : x ≠ 0) : dawson (-x) = -dawson x := by
  rw [dawson, dawson, scalarAbs_neg]
  split
  next => exact Dawson.series_neg x
  next =>
    simp only [Dawson.gridOffset_neg, Dawson.stateAt_neg, signum_neg apart, mul_neg, neg_mul]

/-- At zero the sign is not known, but there the series is taken. -/
theorem dawson_neg (cutoff : 0 < (Scalar.decimal 2 (-1) : K)) (x : K) :
    dawson (-x) = -dawson x := by
  rcases eq_or_ne x 0 with rfl | apart
  · have near : Scalar.abs (0 : K) < Scalar.decimal 2 (-1) := by
      rwa [SignedScalar.abs_eq, abs_zero]
    have value : dawson (0 : K) = 0 := (if_pos near).trans (zero_mul _)
    rw [neg_zero, value, neg_zero]
  · exact dawson_neg_of_ne_zero apart

end

namespace Dawson

section

variable {K : Type} [ExactScalar K] {x ratio : K} {n i : ℕ} {s : State K}

theorem stateAt_succ (x : K) (i : ℕ) :
    stateAt x (i + 1) = step ((start x).weight * (start x).weight) (stateAt x i) i := by
  rw [stateAt, List.range_succ, List.foldl_append]
  rfl

/-- The state before the pair `i`, when the nearest even grid point is the `n`-th: the two odd grid
points of the pair are `2 * i + 1` away from it. -/
structure Reached (n i : ℕ) (s : State K) : Prop where
  above : s.above = (n + (2 * i + 1) : ℤ)
  below : s.below = (n - (2 * i + 1) : ℤ)
  weight : 0 < s.weight

/-- Both distances are odd whole numbers, so neither quotient of the next step is by zero. -/
structure OddDistances (s : State K) : Prop where
  above : ∃ a : ℤ, Odd a ∧ s.above = a
  below : ∃ b : ℤ, Odd b ∧ s.below = b
  above_ne_zero : s.above ≠ 0
  below_ne_zero : s.below * s.weight ≠ 0

theorem Reached.oddDistances (reached : Reached n i s) (even : Even n) : OddDistances s := by
  have odd : Odd (2 * (i : ℤ) + 1) := odd_two_mul_add_one _
  have above : Odd (n + (2 * i + 1) : ℤ) := (even.natCast (α := ℤ)).add_odd odd
  have below : Odd (n - (2 * i + 1) : ℤ) := (even.natCast (α := ℤ)).sub_odd odd
  have nonzero {a : ℤ} (odd : Odd a) : (a : K) ≠ 0 := by
    rw [Int.cast_ne_zero]
    rintro rfl
    exact Int.not_odd_zero odd
  refine ⟨⟨_, above, reached.above⟩, ⟨_, below, reached.below⟩, ?_, ?_⟩
  · rw [reached.above]
    exact nonzero above
  · rw [reached.below]
    exact mul_ne_zero (nonzero below) reached.weight.ne'

variable [DecimalScalar K]

theorem numeral_eq (digits : ℕ) (negative : Bool) (exponent : ℕ) :
    (instOfScientificOfScalar.ofScientific digits negative exponent : K) =
      digits * 10 ^ (if negative then -(exponent : ℤ) else exponent) :=
  DecimalScalar.decimal_eq digits _

theorem one_eq : (1.0 : K) = 1 := by
  rw [numeral_eq]
  norm_num

theorem two_eq : (2.0 : K) = 2 := by
  rw [numeral_eq]
  norm_num

theorem spacing_eq : (spacing : K) = 2 / 5 := by
  rw [spacing, numeral_eq]
  norm_num

theorem exists_round_natCast {t : K} (nonneg : 0 ≤ t) :
    ∃ m : ℕ, Scalar.round t = m ∧ |t - m| ≤ 1 / 2 := by
  obtain ⟨n, round, near⟩ := DecimalScalar.exists_round t
  have above : (-1 : K) < n := by
    have := (abs_le.mp near).2
    linarith
  have whole : 0 ≤ n := by
    have : (-1 : ℤ) < n := by exact_mod_cast above
    omega
  obtain ⟨m, rfl⟩ := Int.eq_ofNat_of_zero_le whole
  exact ⟨m, by simpa using round, by simpa using near⟩

/-- Half the grid index is the whole number nearest to half the distance in units of the grid, so
the offset is at most half of two units. -/
theorem exists_gridIndex (x : K) :
    ∃ n : ℕ, Even n ∧ gridIndex x = n ∧ |gridOffset x| ≤ spacing := by
  have spacing_pos : 0 < (spacing : K) := by
    rw [spacing_eq]
    norm_num
  have half : (0.5 : K) * Scalar.abs x / spacing = |x| / (2 * spacing) := by
    rw [SignedScalar.abs_eq, numeral_eq, spacing_eq]
    norm_num
    ring
  have nonneg : 0 ≤ |x| / (2 * spacing) := by positivity
  obtain ⟨m, round, near⟩ := exists_round_natCast nonneg
  have index : gridIndex x = (2 * m : ℕ) := by
    rw [gridIndex, half, round, two_eq, Nat.cast_mul, Nat.cast_ofNat]
  have offset : gridOffset x = 2 * spacing * (|x| / (2 * spacing) - m) := by
    rw [gridOffset, index, SignedScalar.abs_eq, Nat.cast_mul, Nat.cast_ofNat]
    field_simp
  refine ⟨2 * m, even_two_mul m, index, ?_⟩
  calc |gridOffset x| = 2 * spacing * |(|x| / (2 * spacing) - m)| := by
        rw [offset, abs_mul, abs_of_pos (by positivity)]
    _ ≤ 2 * spacing * (1 / 2) := by gcongr
    _ = spacing := by ring

theorem start_reached (positive : 0 < (start x).weight) (index : gridIndex x = n) :
    Reached n 0 (start x) := by
  refine ⟨?_, ?_, positive⟩
  · rw [start, index, one_eq]
    push_cast
    ring
  · rw [start, index, one_eq, two_eq]
    push_cast
    ring

theorem Reached.step (reached : Reached n i s) (positive : 0 < ratio) :
    Reached n (i + 1) (step ratio s i) := by
  refine ⟨?_, ?_, mul_pos reached.weight positive⟩
  · rw [Dawson.step, reached.above, two_eq]
    push_cast
    ring
  · rw [Dawson.step, reached.below, two_eq]
    push_cast
    ring

theorem stateAt_reached (positive : 0 < (start x).weight) (index : gridIndex x = n) (i : ℕ) :
    Reached n i (stateAt x i) := by
  induction i with
  | zero => exact start_reached positive index
  | succ i ih =>
    rw [stateAt_succ]
    exact ih.step (mul_pos positive positive)

/-- What the loop adds up, with its divisors in sight. -/
theorem stateAt_sum (x : K) (n : ℕ) : (stateAt x n).sum = ∑ i ∈ Finset.range n, coefficient i *
    ((stateAt x i).weight / (stateAt x i).above +
      1 / ((stateAt x i).below * (stateAt x i).weight)) := by
  induction n with
  | zero =>
    change (0.0 : K) = _
    rw [numeral_eq, Nat.cast_zero, zero_mul, Finset.sum_range_zero]
  | succ n ih => rw [Finset.sum_range_succ, ← ih, stateAt_succ, step, one_eq]

/-- The nearest even grid point is at most one spacing away, and however many pairs of odd grid
points around it are summed, the divisors are odd whole numbers, one of them times a positive
weight. -/
theorem divisors_ne_zero (positive : ∀ t : K, 0 < Scalar.exp t) (x : K) :
    |gridOffset x| ≤ spacing ∧ (∃ n : ℕ, Even n ∧ gridIndex x = n) ∧
      (∀ i, OddDistances (stateAt x i)) ∧
      (stateAt x pairs).sum = ∑ i ∈ Finset.range pairs, coefficient i *
        ((stateAt x i).weight / (stateAt x i).above +
          1 / ((stateAt x i).below * (stateAt x i).weight)) := by
  obtain ⟨n, even, index, near⟩ := exists_gridIndex x
  refine ⟨near, ⟨n, even, index⟩, fun i => ?_, stateAt_sum x pairs⟩
  exact (stateAt_reached (positive _) index i).oddDistances even

end

/-- At -1/2 the grid point is 2, and the second pair is on both sides of zero. -/
theorem divisors_ne_zero_half :
    letI := ExactScalar.rational id (fun t => if t < 0 then 1 / (1 - t) else 1 + t) 3
    (∀ t : ℚ, 0 < Scalar.exp t) ∧ gridIndex (-1 / 2 : ℚ) = 2 ∧
      (stateAt (-1 / 2 : ℚ) 1).above = 5 ∧ (stateAt (-1 / 2 : ℚ) 1).below = -1 ∧
      |gridOffset (-1 / 2 : ℚ)| ≤ spacing ∧ ∀ i, OddDistances (stateAt (-1 / 2 : ℚ) i) := by
  let growth : ℚ → ℚ := fun t => if t < 0 then 1 / (1 - t) else 1 + t
  let _ := ExactScalar.rational id growth 3
  have := DecimalScalar.rational id growth 3
  have positive (t : ℚ) : 0 < growth t := by
    dsimp only [growth]
    split
    next negative => exact one_div_pos.mpr (by linarith)
    next nonneg => linarith
  obtain ⟨near, -, odd, -⟩ := divisors_ne_zero positive (-1 / 2 : ℚ)
  exact ⟨positive, by decide +kernel, by decide +kernel, by decide +kernel, near, odd⟩

end Dawson

end FormulaFit

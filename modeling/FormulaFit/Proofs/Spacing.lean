import Mathlib
import FormulaFit.Model
import FormulaFit.Proofs.Quotients

namespace FormulaFit

open Float.Model Float.Model.UnpackedFloat

/-- The size of one of `count` equal steps over a distance. -/
def stepSize (distance count : Nat) : Nat :=
  roundedQuotient (distance * oneSize * oneSize) (countSize count)

/-- The position that is reached from `z` by steps, infinite as soon as the steps alone are. -/
def reach (z : Int) (steps : Nat) : Int :=
  if overflow ≤ steps then overflow else min (nearestPosition (z + steps)) overflow

theorem reach_eq_of_lt {z : Int} {steps : Nat} (h : reach z steps < overflow) :
    reach z steps = nearestPosition (z + steps) := by
  unfold reach at h ⊢
  split_ifs at h ⊢ <;> omega

theorem reach_mono (z : Int) {i j : Nat} (h : i ≤ j) : reach z i ≤ reach z j := by
  have nearer : nearestPosition (z + i) ≤ nearestPosition (z + j) :=
    nearestPosition_mono (by omega)
  unfold reach
  split_ifs <;> omega

theorem stepSize_le {d N : Nat} (some : 0 < N) (exact : roundedSize (d * oneSize) = d) :
    stepSize d N ≤ d := by
  calc stepSize d N ≤ roundedQuotient (d * oneSize * oneSize) (1 * oneSize) := by
        refine roundedQuotient_mono (oneSize_pos.trans_le (oneSize_le_countSize some))
          (Nat.mul_pos Nat.one_pos oneSize_pos) (Nat.mul_le_mul_left _ ?_)
        rw [Nat.one_mul]
        exact oneSize_le_countSize some
    _ = d := by rw [roundedQuotient_mul _ _ oneSize_pos, ← roundedSize_eq, exact]

/-- A step is not rounded if it is a double and the distance so many of it. -/
theorem stepSize_mul {b N : Nat} (some : 0 < N) (narrow : N < 2 ^ 53)
    (exact : roundedSize (b * oneSize) = b) : stepSize (b * N) N = b := by
  have product : b * N * oneSize * oneSize = b * oneSize * (N * oneSize) := by ring
  calc stepSize (b * N) N
      = roundedQuotient (b * oneSize * (N * oneSize)) (1 * (N * oneSize)) := by
        rw [stepSize, countSize_of_lt narrow, product, Nat.one_mul]
    _ = b := by rw [roundedQuotient_mul _ _ (Nat.mul_pos some oneSize_pos), ← roundedSize_eq, exact]

namespace FiniteAt

variable {x y : Float} {z w : Int}

theorem reach_zero (h : FiniteAt x z) : reach z 0 = z := by
  have bounds := h.lt_overflow
  rw [reach, if_neg (Nat.not_le.mpr overflow_pos), Nat.cast_zero, Int.add_zero,
    h.nearestPosition_eq]
  omega

theorem hasSize_step {d N : Nat} (h : FiniteAt x d) (long : 0 < d) (some : 0 < N)
    (word : N < 2 ^ 64) :
    HasSize .positive (stepSize d N) (x / Scalar.ofNat N).toModel.unpack := by
  obtain ⟨size, small⟩ := h.exists_size long
  have count := hasSize_ofNat word
  have bounded : stepSize d N < overflow := (stepSize_le some size.exact).trans_lt small
  have positive := oneSize_pos.trans_le (oneSize_le_countSize some)
  rw [unpack_div]
  exact (size.div count positive (countSize_lt_overflow word)).packed bounded

/-- A number of steps is taken from a bound. -/
theorem hasPosition_reach {a b : Float} {n k : Nat} (h : FiniteAt x z)
    (ha : HasSize .positive n a.toModel.unpack) (hb : HasSize .positive k b.toModel.unpack) :
    HasPosition (x + a * b).toModel.unpack (reach z (roundedSize (n * k))) := by
  have product := ha.mul hb
  have packed := unpack_pack product
  rw [← unpack_mul] at packed
  unfold reach
  split at packed
  next beyond =>
    obtain ⟨s, m, size, -, rfl⟩ := h
    rw [if_pos beyond, unpack_add_of_infinity_right size packed]
    exact .infinity .positive
  next within =>
    rw [← packed] at product
    rw [if_neg within]
    exact h.hasPosition_add product

end FiniteAt

section Errors

variable {d g i N s p : Nat}

theorem countSize_error (n : Nat) :
    |(countSize n : ℚ) - n * oneSize| ≤ n * oneSize / 2 ^ 53 := by
  have error := roundedSize_error_whole (n * oneSize)
  rwa [Nat.cast_mul, ← countSize] at error

theorem countSize_pos (some : 0 < N) : (0 : ℚ) < countSize N :=
  Nat.cast_pos.mpr (oneSize_pos.trans_le (oneSize_le_countSize some))

/-- Counts that are too long for a double are rounded, and so are their ratios. -/
theorem countSize_ratio_error (some : 0 < N) (inside : i ≤ N) :
    |(countSize i / countSize N : ℚ) - i / N| ≤ 5 / 2 / 2 ^ 53 := by
  have first := countSize_error i
  have second := countSize_error N
  have unit : (0 : ℚ) < oneSize := Nat.cast_pos.mpr oneSize_pos
  have counted := countSize_pos some
  have some' : (0 : ℚ) < N := Nat.cast_pos.mpr some
  have nonneg : (0 : ℚ) ≤ i := Nat.cast_nonneg i
  have inside' : (i : ℚ) ≤ N := Nat.cast_le.mpr inside
  generalize (oneSize : ℚ) = one at *
  generalize (countSize i : ℚ) = k at *
  generalize (countSize N : ℚ) = K at *
  have cross : |k * N - i * K| ≤ 2 * (i * one * N) / 2 ^ 53 := by
    calc |k * N - i * K| = |(k - i * one) * N - i * (K - N * one)| := by ring_nf
      _ ≤ |(k - i * one) * N| + |i * (K - N * one)| := abs_sub _ _
      _ = |k - i * one| * N + i * |K - N * one| := by
          rw [abs_mul, abs_mul, abs_of_pos some', abs_of_nonneg nonneg]
      _ ≤ i * one / 2 ^ 53 * N + i * (N * one / 2 ^ 53) :=
          add_le_add (mul_le_mul_of_nonneg_right first some'.le)
            (mul_le_mul_of_nonneg_left second nonneg)
      _ = 2 * (i * one * N) / 2 ^ 53 := by ring
  have whole : (i * one * N : ℚ) - i * one * N / 2 ^ 53 ≤ K * N := by
    calc (i * one * N : ℚ) - i * one * N / 2 ^ 53 = i * (one - one / 2 ^ 53) * N := by ring
      _ ≤ N * (one - one / 2 ^ 53) * N := by gcongr; linarith
      _ ≤ K * N := by
          refine mul_le_mul_of_nonneg_right ?_ some'.le
          linarith [(abs_le.mp second).1]
  rw [div_sub_div _ _ counted.ne' some'.ne', abs_div, abs_of_pos (mul_pos counted some'),
    div_le_iff₀ (mul_pos counted some'), mul_comm K i]
  have part : (0 : ℚ) ≤ i * one * N := by positivity
  linarith

/-- What steps lose of their part of the distance: little more than two roundings of it, and less
than one unit for each step. -/
theorem steps_error (some : 0 < N) (inside : i ≤ N) (distance : roundedSize (g * oneSize) = d)
    (step : stepSize d N = s) (steps : roundedSize (s * countSize i) = p) :
    |(p : ℚ) - d * (countSize i / countSize N)| ≤ 5 / 2 * g / 2 ^ 53 + (3 * N + 2) / 4 := by
  have rounded := roundedSize_error_whole g
  have divided := roundedQuotient_error (d * oneSize * oneSize)
    (oneSize_pos.trans_le (oneSize_le_countSize some))
  have multiplied := roundedSize_error (s * countSize i)
  have count := countSize_error N
  rw [distance] at rounded
  rw [← stepSize, step] at divided
  rw [steps] at multiplied
  -- What is left of them would be computed by the tactics below.
  clear distance step steps
  push_cast at divided multiplied
  have unit : (0 : ℚ) < oneSize := Nat.cast_pos.mpr oneSize_pos
  have counted := countSize_pos some
  have fewer : (countSize i : ℚ) ≤ countSize N := Nat.cast_le.mpr (countSize_mono inside)
  have nonneg : (0 : ℚ) ≤ countSize i := Nat.cast_nonneg _
  generalize (oneSize : ℚ) = one at *
  generalize (countSize i : ℚ) = k at *
  generalize (countSize N : ℚ) = K at *
  have parts : (d * one * one : ℚ) / (K * one) = d * one / K := mul_div_mul_right _ _ unit.ne'
  rw [parts] at divided
  have together : |s * k / one - d * (k / K)| ≤ d * (k / K) / 2 ^ 53 + k / one / 2 := by
    have scale : 0 ≤ k / one := div_nonneg nonneg unit.le
    calc |s * k / one - d * (k / K)| = |((s : ℚ) - d * one / K) * (k / one)| := by
          congr 1
          field_simp
      _ = |(s : ℚ) - d * one / K| * (k / one) := by rw [abs_mul, abs_of_nonneg scale]
      _ ≤ (d * one / K / 2 ^ 53 + 1 / 2) * (k / one) := mul_le_mul_of_nonneg_right divided scale
      _ = d * (k / K) / 2 ^ 53 + k / one / 2 := by field_simp
  have many : k / one ≤ N + N / 2 ^ 53 := by
    rw [div_le_iff₀ unit]
    linarith [(abs_le.mp count).2]
  have part : (d : ℚ) * (k / K) ≤ d :=
    mul_le_of_le_one_right (Nat.cast_nonneg d) ((div_le_one counted).mpr fewer)
  have start : (0 : ℚ) ≤ d * (k / K) := by positivity
  have length : (0 : ℚ) ≤ g := Nat.cast_nonneg g
  have number : (0 : ℚ) ≤ N := Nat.cast_nonneg N
  generalize (s * k / one : ℚ) = S at multiplied together
  generalize (d * (k / K) : ℚ) = D at *
  rw [abs_le] at rounded multiplied together ⊢
  constructor <;> linarith

/-- The part of the distance that so many steps should make up is missed by little more. -/
theorem part_error (some : 0 < N) (inside : i ≤ N) (distance : roundedSize (g * oneSize) = d)
    (step : stepSize d N = s) (steps : roundedSize (s * countSize i) = p) :
    |(p : ℚ) - g * i / N| ≤ 6 * g / 2 ^ 53 + (3 * N + 2) / 4 := by
  have error := steps_error some inside distance step steps
  have ratio := countSize_ratio_error some inside
  have rounded := roundedSize_error_whole g
  have least : (0 : ℚ) ≤ countSize i / countSize N :=
    div_nonneg (Nat.cast_nonneg _) (Nat.cast_nonneg _)
  have most : (countSize i : ℚ) / countSize N ≤ 1 :=
    (div_le_one (countSize_pos some)).mpr (Nat.cast_le.mpr (countSize_mono inside))
  have length : (0 : ℚ) ≤ g := Nat.cast_nonneg g
  rw [distance] at rounded
  generalize (countSize i / countSize N : ℚ) = r at *
  have moved : |(d : ℚ) * r - g * i / N| ≤ g / 2 ^ 53 + g * (5 / 2 / 2 ^ 53) := by
    calc |(d : ℚ) * r - g * i / N| = |((d : ℚ) - g) * r + g * (r - i / N)| := by ring_nf
      _ ≤ |((d : ℚ) - g) * r| + |g * (r - i / N)| := abs_add_le _ _
      _ = |(d : ℚ) - g| * r + g * |r - i / N| := by
          rw [abs_mul, abs_mul, abs_of_nonneg least, abs_of_nonneg length]
      _ ≤ |(d : ℚ) - g| * 1 + g * |r - i / N| := by gcongr
      _ ≤ g / 2 ^ 53 + g * (5 / 2 / 2 ^ 53) := by
          rw [mul_one]
          exact add_le_add rounded (mul_le_mul_of_nonneg_left ratio length)
  calc |(p : ℚ) - g * i / N| ≤ |(p : ℚ) - d * r| + |(d : ℚ) * r - g * i / N| := abs_sub_le _ _ _
    _ ≤ 6 * g / 2 ^ 53 + (3 * N + 2) / 4 := by linarith

/-- All steps are rounded the least, since the count that divides also multiplies. -/
theorem whole_error (some : 0 < N) (distance : roundedSize (g * oneSize) = d)
    (step : stepSize d N = s) (steps : roundedSize (s * countSize N) = p) :
    |(p : ℚ) - g| ≤ 7 / 2 * g / 2 ^ 53 + (3 * N + 2) / 4 := by
  have error := steps_error some (Nat.le_refl N) distance step steps
  have rounded := roundedSize_error_whole g
  rw [distance] at rounded
  rw [div_self (countSize_pos some).ne', mul_one] at error
  calc |(p : ℚ) - g| ≤ |(p : ℚ) - d| + |(d : ℚ) - g| := abs_sub_le _ _ _
    _ ≤ 7 / 2 * g / 2 ^ 53 + (3 * N + 2) / 4 := by linarith

/-- The last addition is rounded too. -/
theorem reach_error {z : Int} {x c : ℚ} (moderate : c ≤ 6 * g)
    (steps : |(p : ℚ) - x| ≤ c / 2 ^ 53 + (3 * N + 2) / 4) :
    |(nearestPosition (z + p) : ℚ) - (z + x)| ≤ (|z + x| + (c + g / 2)) / 2 ^ 53 + (N + 1) := by
  have added := nearestPosition_error (z + p)
  generalize (nearestPosition (z + p) : ℚ) = r at added ⊢
  have split : ((z + p : Int) : ℚ) = z + x + (p - x) := by
    push_cast
    ring
  have size := abs_add_le (z + x : ℚ) (p - x)
  rw [split] at added
  have length : (0 : ℚ) ≤ g := Nat.cast_nonneg g
  have number : (0 : ℚ) ≤ N := Nat.cast_nonneg N
  calc |r - (z + x)| = |r - (z + x + (p - x)) + (p - x)| := by ring_nf
    _ ≤ |r - (z + x + (p - x))| + |(p : ℚ) - x| := abs_add_le _ _
    _ ≤ (|z + x| + (c + g / 2)) / 2 ^ 53 + (N + 1) := by linarith

theorem cast_overflow : (overflow : ℚ) = 2 * (2 ^ 1023 * oneSize) := by
  have units : overflow = 2 * (2 ^ 1023 * oneSize) := by decide +kernel
  rw [units, Nat.cast_mul, Nat.cast_mul, Nat.cast_pow, Nat.cast_two]

/-- Neither the steps nor the sum can double what is at most half of the least infinite size. -/
theorem reach_lt_overflow {z : Int} (word : N < 2 ^ 64)
    (steps : |(p : ℚ) - g| ≤ 7 / 2 * g / 2 ^ 53 + (3 * N + 2) / 4)
    (short : (g : ℚ) ≤ 2 ^ 1023 * oneSize) (low : (z + g : ℚ) ≤ 2 ^ 1023 * oneSize) :
    reach z p < overflow := by
  have length : (0 : ℚ) ≤ g := Nat.cast_nonneg g
  have error := reach_error (z := z) (by linarith : 7 / 2 * (g : ℚ) ≤ 6 * g) steps
  have room := cast_overflow
  have large : (2 : ℚ) ^ 70 ≤ overflow :=
    calc (2 : ℚ) ^ 70 = ((2 ^ 70 : Nat) : ℚ) := by rw [Nat.cast_pow, Nat.cast_two]
      _ ≤ overflow := Nat.cast_le.mpr (Nat.pow_le_pow_right Nat.two_pos (by decide))
  have count : (N : ℚ) ≤ 2 ^ 64 := by exact_mod_cast word.le
  generalize (2 ^ 1023 * oneSize : ℚ) = half at low short room
  have within : p < overflow := by
    have less : (p : ℚ) < overflow := by
      rw [abs_le] at steps
      linarith
    exact_mod_cast less
  have below : nearestPosition (z + p) < overflow := by
    have less : (nearestPosition (z + p) : ℚ) < overflow := by
      rw [abs_le] at error
      rcases abs_cases (z + g : ℚ) with ⟨size, -⟩ | ⟨size, -⟩
      · rw [size] at error
        linarith
      · rw [size] at error
        linarith
    exact_mod_cast less
  rw [reach, if_neg (Nat.not_le.mpr within)]
  omega

end Errors

/-- So many points that start at a bound and never fall back. -/
structure Climbs (lower : Float) (n : Nat) (points : List Float) : Prop where
  count : points.length = n
  start : ∃ first, points.head? = some first ∧ first == lower
  climbing : points.Pairwise (· ≤ ·)
  above : ∀ p ∈ points, lower ≤ p

/-- Points that stay in a range and take both of its ends. -/
structure Covers (lower upper : Float) (n : Nat) (points : List Float) : Prop extends
    Climbs lower n points where
  below : ∀ p ∈ points, p ≤ upper
  finish : ∃ last, points.getLast? = some last ∧ last == upper

/-- The length of a range and of each of so many steps over it are doubles. -/
def Divides (lower upper : Float) (steps : Nat) : Prop :=
  ∃ width step : Float, width.isFinite ∧ step.isFinite ∧
    exactValue width = exactValue upper - exactValue lower ∧
    exactValue step * steps = exactValue width

/-- Where one of so many evenly spaced points lies between two numbers. -/
def evenly (lower upper : ℚ) (n i : Nat) : ℚ :=
  lower + (upper - lower) * i / (n - 1 : Nat)

/-- One of the points over a range. -/
def gridPoint (lower upper : Float) (n i : Nat) : Float :=
  lower + (upper - lower) / Scalar.ofNat (n - 1) * Scalar.ofNat i

theorem linspace_eq {lower upper : Float} {n : Nat} (many : 2 ≤ n) :
    linspace lower upper n = (List.range n).map (gridPoint lower upper n) := by
  rw [linspace, if_neg (by omega)]
  rfl

theorem getLast?_linspace {lower upper : Float} {n : Nat} (many : 2 ≤ n) :
    (linspace lower upper n).getLast? = some (gridPoint lower upper n (n - 1)) := by
  rw [linspace_eq many, List.getLast?_map, List.getLast?_range, if_neg (by omega)]
  rfl

theorem eq_gridPoint_of_getElem? {lower upper p : Float} {n i : Nat} (many : 2 ≤ n)
    (found : (linspace lower upper n)[i]? = some p) : i < n ∧ gridPoint lower upper n i = p := by
  rw [linspace_eq many, List.getElem?_map, Option.map_eq_some_iff] at found
  obtain ⟨j, here, same⟩ := found
  obtain ⟨inside, rfl⟩ := List.getElem?_eq_some_iff.mp here
  rw [List.getElem_range] at same
  exact ⟨by rwa [List.length_range] at inside, same⟩

/-- Two finite bounds in order, and the distance that is computed between them. -/
structure Spanned (lower upper : Float) (z : Int) (g d : Nat) : Prop where
  start : FiniteAt lower z
  finish : FiniteAt upper (z + g)
  apart : 0 < g
  distance : FiniteAt (upper - lower) d
  rounded : roundedSize (g * oneSize) = d

theorem exists_spanned {lower upper : Float} (start : lower.isFinite) (finish : upper.isFinite)
    (ordered : lower < upper) (span : (upper - lower).isFinite) :
    ∃ z g d, Spanned lower upper z g d := by
  obtain ⟨z, hl⟩ := exists_finiteAt start
  obtain ⟨w, hu⟩ := exists_finiteAt finish
  have below := (lt_iff_of_position hl.hasPosition hu.hasPosition).mp ordered
  obtain ⟨g, apart⟩ := Int.le.dest below.le
  obtain rfl := apart
  have distance := hu.sub hl span
  have length : z + g - z = Sign.positive.apply g := add_sub_cancel_left z (g : Int)
  rw [length, nearestPosition_apply] at distance
  exact ⟨z, g, _, hl, hu, by omega, distance, rfl⟩

namespace Spanned

variable {lower upper : Float} {z : Int} {g d n : Nat}

theorem long (h : Spanned lower upper z g d) : 0 < d := by
  have one : 1 * 2 ^ 0 ≤ g := h.apart
  have most := roundedSize_mono (Nat.mul_le_mul_right oneSize one)
  rw [roundedSize_exact (by decide), h.rounded] at most
  exact most

theorem hasPosition_gridPoint (h : Spanned lower upper z g d) (many : 2 ≤ n) (word : n < 2 ^ 64)
    {i : Nat} (inside : i < n) :
    HasPosition (gridPoint lower upper n i).toModel.unpack
      (reach z (roundedSize (stepSize d (n - 1) * countSize i))) :=
  h.start.hasPosition_reach
    (h.distance.hasSize_step h.long (by omega) (by omega)) (hasSize_ofNat (by omega))

theorem gridPoint_mono (h : Spanned lower upper z g d) (many : 2 ≤ n) (word : n < 2 ^ 64) {i j : Nat}
    (inside : j < n) (le : i ≤ j) : gridPoint lower upper n i ≤ gridPoint lower upper n j := by
  have first := h.hasPosition_gridPoint many word (le.trans_lt inside)
  have second := h.hasPosition_gridPoint many word inside
  rw [le_iff_of_position first second]
  exact reach_mono z (roundedSize_mono (Nat.mul_le_mul_left _ (countSize_mono le)))

theorem gridPoint_zero (h : Spanned lower upper z g d) (many : 2 ≤ n) (word : n < 2 ^ 64) :
    gridPoint lower upper n 0 == lower := by
  have first := h.hasPosition_gridPoint many word (by omega : 0 < n)
  rw [countSize_zero, Nat.mul_zero, roundedSize_zero, h.start.reach_zero] at first
  rw [beq_iff_of_position first h.start.hasPosition]

theorem le_gridPoint (h : Spanned lower upper z g d) (many : 2 ≤ n) (word : n < 2 ^ 64) {i : Nat}
    (inside : i < n) : lower ≤ gridPoint lower upper n i := by
  have first := h.hasPosition_gridPoint many word (by omega : 0 < n)
  have point := h.hasPosition_gridPoint many word inside
  have ordered := (le_iff_of_position first point).mp (h.gridPoint_mono many word inside i.zero_le)
  rw [countSize_zero, Nat.mul_zero, roundedSize_zero, h.start.reach_zero] at ordered
  exact (le_iff_of_position h.start.hasPosition point).mpr ordered

theorem climbs (h : Spanned lower upper z g d) (many : 2 ≤ n) (word : n < 2 ^ 64) :
    Climbs lower n (linspace lower upper n) := by
  rw [linspace_eq many]
  refine ⟨?_, ?_, ?_, ?_⟩
  · rw [List.length_map, List.length_range]
  · refine ⟨gridPoint lower upper n 0, ?_, h.gridPoint_zero many word⟩
    rw [List.head?_map, List.head?_range, if_neg (by omega)]
    rfl
  · rw [List.pairwise_map]
    refine List.pairwise_lt_range.imp_of_mem ?_
    intro i j _ inside less
    exact h.gridPoint_mono many word (List.mem_range.mp inside) less.le
  · intro p member
    obtain ⟨i, inside, rfl⟩ := List.mem_map.mp member
    exact h.le_gridPoint many word (List.mem_range.mp inside)

theorem le_upper_iff (h : Spanned lower upper z g d) (many : 2 ≤ n) (word : n < 2 ^ 64) :
    (∀ p ∈ linspace lower upper n, p ≤ upper) ↔ gridPoint lower upper n (n - 1) ≤ upper := by
  refine ⟨fun below => below _ (List.mem_of_getLast? (getLast?_linspace many)), ?_⟩
  intro below p member
  rw [linspace_eq many] at member
  obtain ⟨i, inside, rfl⟩ := List.mem_map.mp member
  have less := List.mem_range.mp inside
  have point := h.hasPosition_gridPoint many word less
  have last := h.hasPosition_gridPoint many word (by omega : n - 1 < n)
  have finish := h.finish.hasPosition
  rw [le_iff_of_position last finish] at below
  rw [le_iff_of_position point finish]
  have ordered := (le_iff_of_position point last).mp
    (h.gridPoint_mono many word (by omega) (by omega : i ≤ n - 1))
  omega

theorem covers_iff (h : Spanned lower upper z g d) (many : 2 ≤ n) (word : n < 2 ^ 64) :
    Covers lower upper n (linspace lower upper n) ↔ gridPoint lower upper n (n - 1) == upper := by
  constructor
  · rintro ⟨-, -, last, found, same⟩
    obtain rfl := Option.some.inj ((getLast?_linspace many).symm.trans found)
    exact same
  · intro same
    refine ⟨h.climbs many word, (h.le_upper_iff many word).mpr ?_, _, getLast?_linspace many, same⟩
    have last := h.hasPosition_gridPoint many word (by omega : n - 1 < n)
    have equal := (beq_iff_of_position last h.finish.hasPosition).mp same
    exact (le_iff_of_position last h.finish.hasPosition).mpr equal.le

/-- How far a finite point is off, if it is known how far the steps to it are. -/
theorem exactValue_error (h : Spanned lower upper z g d) (many : 2 ≤ n) (word : n < 2 ^ 64) {i : Nat}
    (inside : i < n) (finite : (gridPoint lower upper n i).isFinite) {x c : ℚ} (moderate : c ≤ 6 * g)
    (steps : |(roundedSize (stepSize d (n - 1) * countSize i) : ℚ) - x| ≤
      c / 2 ^ 53 + (3 * (n - 1 : Nat) + 2) / 4) :
    |exactValue (gridPoint lower upper n i) - (exactValue lower + x / oneSize)| ≤
      (|exactValue lower + x / oneSize| + (c + g / 2) / oneSize) / 2 ^ 53 + n / 2 ^ 1074 := by
  have point := FiniteAt.of_isFinite (h.hasPosition_gridPoint many word inside) finite
  have reached := reach_eq_of_lt point.lt_overflow.2
  have error := reach_error (z := z) moderate steps
  have count : ((n - 1 : Nat) : ℚ) + 1 = n := by exact_mod_cast Nat.sub_add_cancel (by omega)
  rw [← reached, count] at error
  have unit : (0 : ℚ) < oneSize := Nat.cast_pos.mpr oneSize_pos
  have power : (2 : ℚ) ^ 1074 = oneSize := by rw [oneSize, Nat.cast_pow, Nat.cast_two]
  rw [point.exactValue_eq, h.start.exactValue_eq, power]
  generalize (oneSize : ℚ) = one at unit ⊢
  rw [← add_div, ← sub_div, abs_div, abs_div, abs_of_pos unit, div_le_iff₀ unit]
  refine error.trans_eq ?_
  field_simp

theorem exactValue_sub (h : Spanned lower upper z g d) :
    exactValue upper - exactValue lower = g / oneSize := by
  rw [h.start.exactValue_eq, h.finish.exactValue_eq, Int.cast_add, Int.cast_natCast]
  ring

/-- A finite point is a few roundings of its place and of the distance away from that place. -/
theorem gridPoint_error (h : Spanned lower upper z g d) (many : 2 ≤ n) (word : n < 2 ^ 64) {i : Nat}
    (inside : i < n) (finite : (gridPoint lower upper n i).isFinite) :
    |exactValue (gridPoint lower upper n i) - evenly (exactValue lower) (exactValue upper) n i| ≤
      (|evenly (exactValue lower) (exactValue upper) n i| +
        7 * (exactValue upper - exactValue lower)) / 2 ^ 53 + n / 2 ^ 1074 := by
  have error := h.exactValue_error many word inside finite le_rfl
    (part_error (by omega : 0 < n - 1) (by omega) h.rounded rfl rfl)
  have place : evenly (exactValue lower) (exactValue upper) n i =
      exactValue lower + g * i / (n - 1 : Nat) / oneSize := by
    rw [evenly, h.exactValue_sub]
    ring
  have some : (0 : ℚ) ≤ g / oneSize := div_nonneg (Nat.cast_nonneg _) (Nat.cast_nonneg _)
  rw [place, h.exactValue_sub]
  have lost : (6 * g + g / 2 : ℚ) / oneSize = 13 / 2 * (g / oneSize) := by ring
  rw [lost] at error
  refine error.trans (add_le_add ?_ le_rfl)
  linarith

/-- The last point is a few roundings of the upper bound and of the distance away from that bound. -/
theorem last_error (h : Spanned lower upper z g d) (many : 2 ≤ n) (word : n < 2 ^ 64)
    (finite : (gridPoint lower upper n (n - 1)).isFinite) :
    |exactValue (gridPoint lower upper n (n - 1)) - exactValue upper| ≤
      (|exactValue upper| + 4 * (exactValue upper - exactValue lower)) / 2 ^ 53 + n / 2 ^ 1074 := by
  have length : (0 : ℚ) ≤ g := Nat.cast_nonneg g
  have error := h.exactValue_error many word (by omega) finite
    (by linarith : 7 / 2 * (g : ℚ) ≤ 6 * g)
    (whole_error (by omega : 0 < n - 1) h.rounded rfl rfl)
  have lost : (7 / 2 * g + g / 2 : ℚ) / oneSize = 4 * (g / oneSize) := by ring
  rw [lost, ← h.exactValue_sub, add_sub_cancel] at error
  exact error

/-- Up to the largest power of two that is a double, nothing overflows. -/
theorem last_isFinite (h : Spanned lower upper z g d) (many : 2 ≤ n) (word : n < 2 ^ 64)
    (low : exactValue upper ≤ 2 ^ 1023) (short : exactValue upper - exactValue lower ≤ 2 ^ 1023) :
    (gridPoint lower upper n (n - 1)).isFinite := by
  have position := h.hasPosition_gridPoint many word (by omega : n - 1 < n)
  have above := (le_iff_of_position h.start.hasPosition position).mp
    (h.le_gridPoint many word (by omega))
  have unit : (0 : ℚ) < oneSize := Nat.cast_pos.mpr oneSize_pos
  rw [h.exactValue_sub, div_le_iff₀ unit] at short
  rw [h.finish.exactValue_eq, div_le_iff₀ unit, Int.cast_add, Int.cast_natCast] at low
  have steps := whole_error (by omega : 0 < n - 1) h.rounded rfl rfl
  have below := reach_lt_overflow (by omega) steps short low
  exact (FiniteAt.of_position position (h.start.lt_overflow.1.trans_le above) below).isFinite

/-- Where nothing is rounded, the last point is the upper bound. -/
theorem last_beq_of_divides (h : Spanned lower upper z g d) (many : 2 ≤ n) (narrow : n ≤ 2 ^ 53)
    (even : Divides lower upper (n - 1)) : gridPoint lower upper n (n - 1) == upper := by
  obtain ⟨width, step, finite, finite', whole, equal⟩ := even
  obtain ⟨v, long⟩ := exists_finiteAt finite
  obtain ⟨q, short⟩ := exists_finiteAt finite'
  have unit : (oneSize : ℚ) ≠ 0 := Nat.cast_ne_zero.mpr oneSize_pos.ne'
  rw [h.exactValue_sub, long.exactValue_eq, div_left_inj' unit] at whole
  obtain rfl : v = g := by exact_mod_cast whole
  rw [long.exactValue_eq, short.exactValue_eq, div_mul_eq_mul_div, div_left_inj' unit] at equal
  have parts : q * (n - 1 : Nat) = g := by exact_mod_cast equal
  have steps : 0 < n - 1 := by omega
  have forward : 0 < q := by
    rw [← mul_pos_iff_of_pos_right (Int.natCast_pos.mpr steps), parts]
    exact Int.natCast_pos.mpr h.apart
  obtain ⟨b, rfl⟩ := Int.eq_ofNat_of_zero_le forward.le
  obtain rfl : b * (n - 1) = g := by exact_mod_cast parts
  obtain ⟨size, small⟩ := long.exists_size h.apart
  obtain ⟨size', -⟩ := short.exists_size (Int.natCast_pos.mp forward)
  have distance : d = b * (n - 1) := h.rounded.symm.trans size.exact
  have position := h.hasPosition_gridPoint many (by omega) (by omega : n - 1 < n)
  rw [distance, stepSize_mul steps (by omega) size'.exact, countSize_of_lt (by omega),
    ← Nat.mul_assoc, size.exact, reach, if_neg (Nat.not_le.mpr small), h.finish.nearestPosition_eq,
    Int.min_eq_left h.finish.lt_overflow.2.le] at position
  rw [beq_iff_of_position position h.finish.hasPosition]

end Spanned

section

variable {lower upper : Float} {n : Nat}

/-- Points over a range between finite bounds start at the lower one and never fall back, but each
is rounded: they cover the range just if the last happens to be the upper bound. It is where the
range divides without rounding, and elsewhere may end on either side of the bound. All points are
close to where evenly spaced ones lie. -/
theorem linspace_covers_iff (many : 2 ≤ n) (word : n < 2 ^ 64) (start : lower.isFinite)
    (finish : upper.isFinite) (ordered : lower < upper) (span : (upper - lower).isFinite) :
    Climbs lower n (linspace lower upper n) ∧
      (∀ (i : Nat) (p : Float), (linspace lower upper n)[i]? = some p → p.isFinite →
        |exactValue p - evenly (exactValue lower) (exactValue upper) n i| ≤
          (|evenly (exactValue lower) (exactValue upper) n i| +
            7 * (exactValue upper - exactValue lower)) / 2 ^ 53 + n / 2 ^ 1074) ∧
      ∃ last, (linspace lower upper n).getLast? = some last ∧
        (Covers lower upper n (linspace lower upper n) ↔ last == upper) ∧
        ((∀ p ∈ linspace lower upper n, p ≤ upper) ↔ last ≤ upper) ∧
        (n ≤ 2 ^ 53 → Divides lower upper (n - 1) → last == upper) ∧
        (last.isFinite → |exactValue last - exactValue upper| ≤
          (|exactValue upper| + 4 * (exactValue upper - exactValue lower)) / 2 ^ 53 +
            n / 2 ^ 1074) ∧
        (exactValue upper ≤ 2 ^ 1023 → exactValue upper - exactValue lower ≤ 2 ^ 1023 →
          last.isFinite) := by
  obtain ⟨z, g, d, spanned⟩ := exists_spanned start finish ordered span
  refine ⟨spanned.climbs many word, ?_, _, getLast?_linspace many, spanned.covers_iff many word,
    spanned.le_upper_iff many word, spanned.last_beq_of_divides many,
    spanned.last_error many word, spanned.last_isFinite many word⟩
  intro i p found finite
  obtain ⟨inside, rfl⟩ := eq_gridPoint_of_getElem? many found
  exact spanned.gridPoint_error many word inside finite

theorem linspace_covers_unit :
    (2 ≤ 3 ∧ 3 < 2 ^ 64 ∧ (0.0 : Float).isFinite ∧ (1.0 : Float).isFinite ∧ (0.0 : Float) < 1.0 ∧
      ((1.0 : Float) - 0.0).isFinite) ∧
      Covers 0.0 1.0 3 (linspace 0.0 1.0 3) := by
  have start : (0.0 : Float).isFinite := by decide +kernel
  have finish : (1.0 : Float).isFinite := by decide +kernel
  have ordered : (0.0 : Float) < 1.0 := by decide +kernel
  have span : ((1.0 : Float) - 0.0).isFinite := by decide +kernel
  refine ⟨⟨by decide, by decide, start, finish, ordered, span⟩, ?_⟩
  obtain ⟨-, -, last, found, covers, -⟩ :=
    linspace_covers_iff (by decide : 2 ≤ 3) (by decide) start finish ordered span
  rw [covers]
  have same : (linspace (0.0 : Float) 1.0 3).getLast?.any (· == 1.0) := by decide +kernel
  rw [found] at same
  exact same

/-- A third of the distance is not a double here, and three of what it is rounded to lead beyond the
bound. -/
theorem exists_linspace_beyond :
    ∃ (lower upper last : Float) (n : Nat), 2 ≤ n ∧ n < 2 ^ 64 ∧ lower.isFinite ∧ upper.isFinite ∧
      lower < upper ∧ (upper - lower).isFinite ∧
      (linspace lower upper n).getLast? = some last ∧ upper < last ∧
      ¬Covers lower upper n (linspace lower upper n) := by
  have beyond : (0.3 : Float) < gridPoint 0.1 0.3 4 3 := by decide +kernel
  have last : (linspace 0.1 0.3 4).getLast? = some (gridPoint 0.1 0.3 4 3) :=
    getLast?_linspace (by decide)
  refine ⟨0.1, 0.3, _, 4, by decide, by decide, by decide +kernel, by decide +kernel,
    by decide +kernel, by decide +kernel, last, beyond, ?_⟩
  intro covers
  exact not_le_of_lt beyond (covers.below _ (List.mem_of_getLast? last))

end

end FormulaFit

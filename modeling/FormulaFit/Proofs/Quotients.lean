import Mathlib
import FormulaFit.Proofs.Sums

namespace FormulaFit

open Float.Model Float.Model.UnpackedFloat

variable {s t : Sign} {n k : Nat} {x y : UnpackedFloat}

theorem apply_neg (s : Sign) (n : Nat) : (-s).apply n = -s.apply n := by
  cases s
  · exact (Int.neg_neg _).symm
  · rfl

theorem HasSize.neg (h : HasSize s n x) : HasSize (-s) n (UnpackedFloat.neg x) := by
  cases h with
  | zero => exact .zero
  | finite positive narrow low normal => exact .finite positive narrow low normal

theorem HasSize.sub_eq (hx : HasSize s n x) (hy : HasSize t k y) :
    UnpackedFloat.sub .binary64 x y = UnpackedFloat.add .binary64 x (UnpackedFloat.neg y) := by
  cases hx <;> cases hy <;>
    simp [UnpackedFloat.sub, UnpackedFloat.add, UnpackedFloat.neg, apply_neg, Int.sub_eq_add_neg]

/-- The difference of two doubles is the double nearest to their difference. -/
theorem HasSize.sub (hx : HasSize s n x) (hy : HasSize t k y) :
    ∃ r : Sign, s.apply n - t.apply k = r.apply (s.apply n - t.apply k).natAbs ∧
      HasSize r (roundedSize ((s.apply n - t.apply k).natAbs * oneSize))
        (UnpackedFloat.sub .binary64 x y) := by
  rw [hx.sub_eq hy, Int.sub_eq_add_neg, ← apply_neg]
  exact hx.add hy.neg

theorem nearestQuotient_zero {t : Nat} (positive : 0 < t) : nearestQuotient 0 t = 0 := by
  rw [nearestQuotient, Nat.zero_mod, Nat.zero_div, if_pos (by omega)]

theorem roundedQuotient_zero {t : Nat} (positive : 0 < t) : roundedQuotient 0 t = 0 := by
  rw [roundedQuotient, nearestQuotient_zero (Nat.mul_pos positive (Nat.two_pow_pos _)),
    Nat.zero_mul]

theorem roundedQuotient_mul (v t : Nat) {c : Nat} (positive : 0 < c) :
    roundedQuotient (v * c) (t * c) = roundedQuotient v t := by
  rw [roundedQuotient, Nat.mul_div_mul_right _ _ positive, Nat.mul_right_comm,
    nearestQuotient_mul _ _ positive, roundedQuotient]

/-- Before it is rounded, a quotient gets an exponent that leaves it 53 bits or makes it
subnormal. -/
theorem exists_divCore {m m' : Nat} {e e' : Int} (narrow : m < 2 ^ 53) (positive : 0 < m)
    (positive' : 0 < m') (low : -1074 ≤ e) (high : e' ≤ 971) :
    ∃ (exponent : Int) (j : Nat), e - e' = exponent + j ∧ -2148 ≤ exponent ∧
      exponent ≤ max ((m * 2 ^ j / m').log2 + exponent - 52) (-1074) ∧
      divCore .binary64 m e m' e' =
        (m * 2 ^ j / m', exponent, accuracyOfFraction (m * 2 ^ j % m') m') := by
  have aim : Format.binary64.targetExponent (totalExponent m e - totalExponent m' e') =
      max (m.log2 + e - (m'.log2 + e') - 53) (-1074) := by
    simp only [Format.targetExponent, totalExponent, Format.mantissaBits, Format.minExponent]
    omega
  have bits := log2_le_of_lt narrow
  obtain ⟨exponent, least⟩ :
      ∃ l, min (e - e') (max ((m.log2 : Int) + e - (m'.log2 + e') - 53) (-1074)) = l := ⟨_, rfl⟩
  obtain ⟨j, shift⟩ : ∃ j, (e - e' - exponent).toNat = j := ⟨_, rfl⟩
  refine ⟨exponent, j, by omega, by omega, ?_, ?_⟩
  · -- Above the least exponent the dividend was made 53 bits longer than the divisor.
    rcases Int.lt_or_le (-1074) exponent with larger | subnormal
    · have place : m.log2 + j = 52 + (m'.log2 + 1) := by omega
      have wide : 2 ^ 52 ≤ m * 2 ^ j / m' := by
        rw [Nat.le_div_iff_mul_le positive']
        calc 2 ^ 52 * m' ≤ 2 ^ 52 * 2 ^ (m'.log2 + 1) :=
              Nat.mul_le_mul_left _ (Nat.le_of_lt Nat.lt_log2_self)
          _ = 2 ^ m.log2 * 2 ^ j := by rw [← Nat.pow_add, ← Nat.pow_add, place]
          _ ≤ m * 2 ^ j := Nat.mul_le_mul_right _ (Nat.log2_self_le (Nat.ne_of_gt positive))
      have long : 52 ≤ (m * 2 ^ j / m').log2 :=
        (Nat.le_log2 (Nat.ne_of_gt ((Nat.two_pow_pos 52).trans_le wide))).mpr wide
      omega
    · omega
  · simp only [divCore, aim, least, shift, Nat.shiftLeft_eq]

theorem exponent_le_of_size_lt {m : Nat} {e : Int} (normal : -1074 < e → 2 ^ 52 ≤ m)
    (small : m * 2 ^ (e + 1074).toNat < overflow) : e ≤ 971 := by
  by_contra larger
  exact Nat.not_le.mpr small (overflow_le_size (normal (by omega)) (by omega))

/-- The quotient of two doubles is the double nearest to their quotient. -/
theorem HasSize.div (hx : HasSize s n x) (hy : HasSize t k y) (some : 0 < k) (small : k < overflow) :
    HasSize (s / t) (roundedQuotient (n * oneSize * oneSize) k)
      (UnpackedFloat.div .binary64 x y) := by
  cases hy with
  | zero => exact absurd some (Nat.lt_irrefl 0)
  | @finite m' e' positive' narrow' low' normal' =>
    cases hx with
    | zero =>
      rw [Nat.zero_mul, Nat.zero_mul, roundedQuotient_zero some]
      exact .zero
    | @finite m e positive narrow low normal =>
      obtain ⟨exponent, j, place, least, fits, core⟩ := exists_divCore narrow positive positive'
        low (exponent_le_of_size_lt normal' small)
      have quotient : roundedQuotient (m * 2 ^ (e + 1074).toNat * oneSize * oneSize)
          (m' * 2 ^ (e' + 1074).toNat) =
            roundedQuotient (m * 2 ^ j * 2 ^ (exponent + 2148).toNat) m' := by
        have places : (e + 1074).toNat + 1074 + 1074 =
            j + (exponent + 2148).toNat + (e' + 1074).toNat := by omega
        have product : m * 2 ^ (e + 1074).toNat * oneSize * oneSize =
            m * 2 ^ j * 2 ^ (exponent + 2148).toNat * 2 ^ (e' + 1074).toNat := by
          simp only [oneSize, Nat.mul_assoc, ← Nat.pow_add]
          rw [places]
        rw [product, roundedQuotient_mul _ _ (Nat.two_pow_pos _)]
      rw [quotient]
      simp only [UnpackedFloat.div, core]
      exact hasSize_round_of_tracks _ (tracks_fraction _ positive') positive' least fits

/-- Rounding to a whole number is off by a half at most. -/
theorem nearestQuotient_error (v : Nat) {t : Nat} (positive : 0 < t) :
    |(nearestQuotient v t : ℚ) - v / t| ≤ 1 / 2 := by
  have split := Nat.div_add_mod v t
  have below := Nat.mod_lt v positive
  have bounds : 2 * v ≤ 2 * (t * nearestQuotient v t) + t ∧
      2 * (t * nearestQuotient v t) ≤ 2 * v + t := by
    unfold nearestQuotient
    split_ifs with less half
    · omega
    · rcases Nat.mod_two_eq_zero_or_one (v / t) with even | odd
      · rw [even, Nat.add_zero]
        omega
      · rw [odd, Nat.mul_add]
        omega
    · rw [Nat.mul_add]
      omega
  have some : (0 : ℚ) < t := Nat.cast_pos.mpr positive
  have scaled : (nearestQuotient v t : ℚ) - v / t = (t * nearestQuotient v t - v) / t := by
    field_simp
  obtain ⟨low, high⟩ := bounds
  have low' : (2 * v : ℚ) ≤ 2 * (t * nearestQuotient v t) + t := by exact_mod_cast low
  have high' : 2 * (t * nearestQuotient v t : ℚ) ≤ 2 * v + t := by exact_mod_cast high
  rw [scaled, abs_div, abs_of_pos some, div_le_iff₀ some, abs_le]
  constructor <;> linarith

theorem two_pow_add_oneSize (j : Nat) : 2 ^ (1074 + j) = oneSize * 2 ^ j :=
  pow_add _ _ _

theorem roundedQuotient_error_two_pow (v : Nat) {t : Nat} (positive : 0 < t) :
    |(roundedQuotient v t : ℚ) - v / (t * oneSize)| ≤ 2 ^ (droppedBits (v / t) - 1074) / 2 := by
  obtain ⟨j, dropped⟩ : ∃ j, droppedBits (v / t) = 1074 + j :=
    ⟨droppedBits (v / t) - 1074, by unfold droppedBits; omega⟩
  have part : 0 < t * oneSize := Nat.mul_pos positive oneSize_pos
  have error := nearestQuotient_error v (Nat.mul_pos part (Nat.two_pow_pos j))
  rw [roundedQuotient, dropped, Nat.add_sub_cancel_left, two_pow_add_oneSize, ← Nat.mul_assoc]
  generalize nearestQuotient v (t * oneSize * 2 ^ j) = q at error ⊢
  rw [← Nat.cast_mul]
  generalize t * oneSize = u at error ⊢
  push_cast at error ⊢
  have power : (0 : ℚ) < 2 ^ j := pow_pos two_pos j
  calc |(q * 2 ^ j : ℚ) - v / u| = |((q : ℚ) - v / (u * 2 ^ j)) * 2 ^ j| := by
        rw [sub_mul, ← div_div, div_mul_cancel₀ _ power.ne']
    _ = |(q : ℚ) - v / (u * 2 ^ j)| * 2 ^ j := by rw [abs_mul, abs_of_pos power]
    _ ≤ 1 / 2 * 2 ^ j := mul_le_mul_of_nonneg_right error power.le
    _ = 2 ^ j / 2 := by ring

theorem two_pow_mul_le_of_lt_droppedBits {v t : Nat} (positive : 0 < t)
    (h : 1074 < droppedBits (v / t)) :
    (2 : ℚ) ^ 52 * 2 ^ (droppedBits (v / t) - 1074) ≤ v / (t * oneSize) := by
  have large := two_pow_le_of_lt_droppedBits h
  obtain ⟨j, dropped⟩ : ∃ j, droppedBits (v / t) = 1074 + j :=
    ⟨droppedBits (v / t) - 1074, by omega⟩
  rw [dropped, Nat.le_div_iff_mul_le positive, Nat.pow_add, two_pow_add_oneSize] at large
  have units : 2 ^ 52 * 2 ^ j * (t * oneSize) ≤ v := by
    calc 2 ^ 52 * 2 ^ j * (t * oneSize) = 2 ^ 52 * (oneSize * 2 ^ j) * t := by ring
      _ ≤ v := large
  rw [dropped, Nat.add_sub_cancel_left, ← Nat.cast_mul,
    le_div_iff₀ (Nat.cast_pos.mpr (Nat.mul_pos positive oneSize_pos))]
  exact_mod_cast units

/-- A normal result loses a part that is as small as its mantissa is long. -/
theorem roundedQuotient_error_normal {v t : Nat} (positive : 0 < t)
    (h : 1074 < droppedBits (v / t)) :
    |(roundedQuotient v t : ℚ) - v / (t * oneSize)| ≤ v / (t * oneSize) / 2 ^ 53 := by
  have error := roundedQuotient_error_two_pow v positive
  have large := two_pow_mul_le_of_lt_droppedBits positive h
  linarith

/-- What rounding loses of a quotient: half a unit where the result is subnormal, and elsewhere a
small part of it. -/
theorem roundedQuotient_error (v : Nat) {t : Nat} (positive : 0 < t) :
    |(roundedQuotient v t : ℚ) - v / (t * oneSize)| ≤ v / (t * oneSize) / 2 ^ 53 + 1 / 2 := by
  have part : (0 : ℚ) ≤ v / (t * oneSize) / 2 ^ 53 :=
    div_nonneg (div_nonneg (Nat.cast_nonneg _) (mul_nonneg (Nat.cast_nonneg _) (Nat.cast_nonneg _)))
      (by norm_num)
  by_cases normal : 1074 < droppedBits (v / t)
  · have error := roundedQuotient_error_normal positive normal
    linarith
  · have error := roundedQuotient_error_two_pow v positive
    rw [Nat.sub_eq_zero_of_le (Nat.le_of_not_lt normal), pow_zero] at error
    linarith

theorem roundedSize_error (v : Nat) :
    |(roundedSize v : ℚ) - v / oneSize| ≤ v / oneSize / 2 ^ 53 + 1 / 2 := by
  have error := roundedQuotient_error v Nat.one_pos
  rwa [Nat.cast_one, one_mul, ← roundedSize_eq] at error

theorem lt_two_pow_of_droppedBits {w : Nat} (h : ¬1074 < droppedBits (w * oneSize)) :
    w < 2 ^ 53 := by
  rcases Nat.eq_zero_or_pos w with rfl | some
  · exact Nat.two_pow_pos 53
  · rw [droppedBits, oneSize, log2_mul_two_pow some] at h
    exact (Nat.log2_lt (Nat.ne_of_gt some)).mp (by omega)

/-- Of a whole number of units nothing is lost where the result is subnormal. -/
theorem roundedSize_error_whole (w : Nat) :
    |(roundedSize (w * oneSize) : ℚ) - w| ≤ w / 2 ^ 53 := by
  by_cases normal : 1074 < droppedBits (w * oneSize)
  · have error := roundedQuotient_error_normal (v := w * oneSize) Nat.one_pos (by rwa [Nat.div_one])
    have unit : (oneSize : ℚ) ≠ 0 := Nat.cast_ne_zero.mpr oneSize_pos.ne'
    rwa [← roundedSize_eq, Nat.cast_one, one_mul, Nat.cast_mul, mul_div_cancel_right₀ _ unit] at error
  · have exact := roundedSize_exact (lt_two_pow_of_droppedBits normal) 0
    rw [pow_zero, Nat.mul_one] at exact
    rw [exact, sub_self, abs_zero]
    positivity

/-- The size of the double nearest to a count. -/
def countSize (n : Nat) : Nat :=
  roundedSize (n * oneSize * oneSize)

theorem countSize_mono {i j : Nat} (h : i ≤ j) : countSize i ≤ countSize j :=
  roundedSize_mono (Nat.mul_le_mul_right _ (Nat.mul_le_mul_right _ h))

theorem countSize_exact {m : Nat} (narrow : m < 2 ^ 53) (j : Nat) :
    countSize (m * 2 ^ j) = m * 2 ^ j * oneSize := by
  have place : m * 2 ^ j * oneSize = m * 2 ^ (j + 1074) := by
    rw [oneSize, Nat.mul_assoc, pow_add]
  rw [countSize, place, roundedSize_exact narrow]

theorem countSize_of_lt {n : Nat} (narrow : n < 2 ^ 53) : countSize n = n * oneSize := by
  have same := countSize_exact narrow 0
  rwa [pow_zero, Nat.mul_one] at same

theorem countSize_zero : countSize 0 = 0 := by
  rw [countSize, Nat.zero_mul, Nat.zero_mul, roundedSize_zero]

theorem oneSize_le_countSize {n : Nat} (some : 0 < n) : oneSize ≤ countSize n := by
  calc oneSize = 1 * oneSize := (Nat.one_mul _).symm
    _ = countSize 1 := (countSize_of_lt (by decide)).symm
    _ ≤ countSize n := countSize_mono some

theorem hasSize_one : HasSize .positive oneSize (Float.ofBits 0x3FF0000000000000).toModel.unpack := by
  have unpacked : (Float.ofBits 0x3FF0000000000000).toModel.unpack =
      .finite .positive (2 ^ 52) (-52) (Nat.two_pow_pos 52) := by
    have bits : (Float.ofBits 0x3FF0000000000000).toModel.toBits = 0x3FF0000000000000 := by
      decide +kernel
    rw [Float.Model.unpack, bits]
    rfl
  have size : oneSize = 2 ^ 52 * 2 ^ ((-52 : Int) + 1074).toNat := by decide +kernel
  rw [unpacked, size]
  exact hasSize_two_pow (by decide)

theorem countSize_lt_overflow {n : Nat} (word : n < 2 ^ 64) : countSize n < overflow := by
  have most : countSize n ≤ countSize (1 * 2 ^ 64) := countSize_mono (by omega)
  rw [countSize_exact (by decide)] at most
  calc countSize n ≤ 1 * 2 ^ 64 * oneSize := most
    _ = 2 ^ 64 * 2 ^ 1074 := by rw [Nat.one_mul, oneSize]
    _ = 2 ^ (64 + 1074) := (pow_add _ _ _).symm
    _ < 2 ^ places := pow_lt_pow_right₀ (by decide) (by decide)

theorem hasSize_toFloat {n : Nat} (some : 0 < n) (narrow : n < 2 ^ 53) :
    HasSize .positive (n * oneSize) n.toUInt64.toFloat.toModel.unpack := by
  have word : n.toUInt64.toNat = n := by
    rw [Nat.toUInt64, UInt64.toNat_ofNat']
    omega
  have packed : n.toUInt64.toFloat.toModel.unpack = UnpackedFloat.unpack .binary64
      (UnpackedFloat.pack .binary64
        (UnpackedFloat.normalize .binary64 n.toUInt64.toNat 0 .positive)) :=
    rfl
  have exact : roundedSize (n * oneSize * oneSize) = n * oneSize := countSize_of_lt narrow
  have small : n * oneSize < overflow := by
    rw [← exact]
    exact countSize_lt_overflow (by omega)
  obtain ⟨r, sign, size⟩ := hasSize_normalize (m := n) (e := 0) (by decide)
  have upright : r = .positive := by
    cases r with
    | negative =>
      simp only [Sign.apply, Int.natAbs_natCast] at sign
      omega
    | positive => rfl
  have place : ((0 : Int) + 1074).toNat = 1074 := rfl
  rw [upright, Int.natAbs_natCast, place, ← oneSize, exact] at size
  rw [packed, word]
  exact size.packed small

/-- A mantissa that is longer than 53 bits is multiplied by one to round it. -/
theorem hasSize_ofScientific {n : Nat} (some : 0 < n) :
    HasSize .positive (countSize n) (UnpackedFloat.ofScientific .binary64 n 0) := by
  have wide : 53 ≤ (n <<< 53).log2 := by
    rw [Nat.shiftLeft_eq, log2_mul_two_pow some]
    omega
  have size : n <<< 53 * 2 ^ ((-53 : Int) + 2148).toNat = n * oneSize * oneSize := by
    have place : 53 + ((-53 : Int) + 2148).toNat = 1074 + 1074 := by decide
    rw [Nat.shiftLeft_eq, oneSize, Nat.mul_assoc, Nat.mul_assoc, ← pow_add, ← pow_add, place]
  have rounded : HasSize .positive (roundedSize (n <<< 53 * 2 ^ ((-53 : Int) + 2148).toNat))
      (roundWithAccuracy .binary64 .positive (n <<< 53) (-53) .exact) :=
    hasSize_round .positive (by decide) (by omega)
  have exponents : Format.binary64.exponentBits = 11 := rfl
  have mantissas : Format.binary64.mantissaBits = 53 := rfl
  have one : 10 ^ (0 : Int).toNat = 1 := rfl
  rw [size] at rounded
  rw [UnpackedFloat.ofScientific, dif_neg (Nat.ne_of_gt some), exponents, if_neg (by decide),
    if_neg (by omega), if_pos (by decide)]
  simp only [UnpackedFloat.mul, mantissas, one, Nat.mul_one]
  exact rounded

/-- A count is taken as the double nearest to it. -/
theorem hasSize_ofNat {n : Nat} (word : n < 2 ^ 64) :
    HasSize .positive (countSize n) (Scalar.ofNat n : Float).toModel.unpack := by
  have small := countSize_lt_overflow word
  rcases Nat.eq_zero_or_pos n with rfl | some
  · have bits : (Scalar.ofNat 0 : Float).toModel.toBits = 0 := by decide +kernel
    rw [unpack_of_toBits_eq_zero bits, countSize_zero]
    exact .zero
  · have read : (Scalar.ofNat n : Float) = Float.ofScientific n false 0 := by
      show doubleOfDecimal n 0 = _
      rw [doubleOfDecimal, if_neg (Nat.ne_of_gt some), if_neg (by decide), if_neg (by omega)]
      rfl
    rw [read, Float.ofScientific]
    split
    next narrow => exact ((hasSize_toFloat some narrow.1).mul hasSize_one).packed small
    next => exact (hasSize_ofScientific some).packed small

theorem unpack_sub (x y : Float) : (x - y).toModel.unpack = UnpackedFloat.unpack .binary64
    (UnpackedFloat.pack .binary64
      (UnpackedFloat.sub .binary64 x.toModel.unpack y.toModel.unpack)) :=
  rfl

theorem unpack_div (x y : Float) : (x / y).toModel.unpack = UnpackedFloat.unpack .binary64
    (UnpackedFloat.pack .binary64
      (UnpackedFloat.div .binary64 x.toModel.unpack y.toModel.unpack)) :=
  rfl

theorem beq_iff_of_position {x y : Float} {z w : Int} (hx : HasPosition x.toModel.unpack z)
    (hy : HasPosition y.toModel.unpack w) : x == y ↔ z = w := by
  rw [beq_iff_compare, hx.compare hy, Option.some_inj, compare_eq_iff_eq]

/-- The number that a finite double stands for. -/
def exactValue (x : Float) : ℚ :=
  match x.toModel.unpack with
  | .finite s m e _ => s.apply m * 2 ^ e
  | _ => 0

/-- A finite double, so many units of the least positive one from zero. -/
def FiniteAt (x : Float) (z : Int) : Prop :=
  ∃ s n, HasSize s n x.toModel.unpack ∧ n < overflow ∧ z = s.apply n

theorem exists_finiteAt {x : Float} (finite : x.isFinite) : ∃ z, FiniteAt x z := by
  have defined : x.isFinite = x.toModel.unpack.isFinite := rfl
  have number : ¬x.isNaN := by
    rw [isNaN_iff]
    intro nan
    rw [defined, nan] at finite
    cases finite
  rcases infinite_or_hasSize number with ⟨s, infinite⟩ | ⟨s, n, size, small⟩
  · exact absurd finite (not_isFinite_of_infinity infinite)
  · exact ⟨_, s, n, size, small, rfl⟩

namespace FiniteAt

variable {x y : Float} {z w : Int}

theorem isFinite (h : FiniteAt x z) : x.isFinite := by
  obtain ⟨s, n, size, -⟩ := h
  exact isFinite_of_hasSize size

theorem hasPosition (h : FiniteAt x z) : HasPosition x.toModel.unpack z := by
  obtain ⟨s, n, size, small, rfl⟩ := h
  exact .finite size small

theorem lt_overflow (h : FiniteAt x z) : -(overflow : Int) < z ∧ z < overflow := by
  obtain ⟨s, n, -, small, rfl⟩ := h
  exact apply_lt_overflow s small

theorem nearestPosition_eq (h : FiniteAt x z) : nearestPosition z = z := by
  obtain ⟨s, n, size, -, rfl⟩ := h
  rw [nearestPosition_apply, size.exact]

theorem exactValue_eq (h : FiniteAt x z) : exactValue x = z / oneSize := by
  obtain ⟨s, n, size, -, rfl⟩ := h
  have unit : (oneSize : ℚ) ≠ 0 := Nat.cast_ne_zero.mpr oneSize_pos.ne'
  rw [exactValue]
  generalize x.toModel.unpack = u at size
  cases size with
  | zero =>
    rw [apply_zero, Int.cast_zero, zero_div]
  | @finite m e positive narrow low normal =>
    have power : (2 : ℚ) ^ e * oneSize = ((2 ^ (e + 1074).toNat : Nat) : ℚ) := by
      have place : ((e + 1074).toNat : Int) = e + (1074 : Nat) := by omega
      rw [oneSize, Nat.cast_pow, Nat.cast_pow, Nat.cast_two, ← zpow_natCast, ← zpow_natCast,
        ← zpow_add₀ two_ne_zero, place]
    rw [apply_mul, eq_div_iff unit, Int.cast_mul, Int.cast_natCast, ← power, mul_assoc]

theorem of_packed {u : UnpackedFloat} {s : Sign} {n : Nat} (size : HasSize s n u)
    (small : n < overflow)
    (packed : x.toModel.unpack = UnpackedFloat.unpack .binary64 (UnpackedFloat.pack .binary64 u)) :
    FiniteAt x (s.apply n) := by
  refine ⟨s, n, ?_, small, rfl⟩
  rw [packed]
  exact size.packed small

/-- What is packed is finite just if its exponent fits. -/
theorem isFinite_iff_of_packed {u : UnpackedFloat} {s : Sign} {n : Nat} (size : HasSize s n u)
    (packed : x.toModel.unpack = UnpackedFloat.unpack .binary64 (UnpackedFloat.pack .binary64 u)) :
    x.isFinite ↔ n < overflow := by
  refine ⟨fun finite => ?_, fun small => (of_packed size small packed).isFinite⟩
  by_contra beyond
  rw [unpack_pack size, if_pos (Nat.le_of_not_lt beyond)] at packed
  exact not_isFinite_of_infinity packed finite

theorem sub (hx : FiniteAt x z) (hy : FiniteAt y w) (finite : (x - y).isFinite) :
    FiniteAt (x - y) (nearestPosition (z - w)) := by
  obtain ⟨s, n, hx, -, rfl⟩ := hx
  obtain ⟨t, k, hy, -, rfl⟩ := hy
  obtain ⟨r, sign, size⟩ := hx.sub hy
  have small := (isFinite_iff_of_packed size (unpack_sub x y)).mp finite
  rw [sign, nearestPosition_apply]
  exact of_packed size small (unpack_sub x y)

theorem of_position (h : HasPosition x.toModel.unpack z) (low : -(overflow : Int) < z)
    (high : z < overflow) : FiniteAt x z := by
  unfold FiniteAt
  generalize x.toModel.unpack = u at h ⊢
  cases h with
  | infinity s => cases s <;> simp only [Sign.apply] at low high <;> omega
  | finite size small => exact ⟨_, _, size, small, rfl⟩

theorem of_isFinite (h : HasPosition x.toModel.unpack z) (finite : x.isFinite) : FiniteAt x z := by
  obtain ⟨w, at'⟩ := exists_finiteAt finite
  have here := (le_iff_of_position h h).mpr (Int.le_refl z)
  have same : z = w := Int.le_antisymm ((le_iff_of_position h at'.hasPosition).mp here)
    ((le_iff_of_position at'.hasPosition h).mp here)
  rw [same]
  exact at'

theorem exists_size {d : Nat} (h : FiniteAt x d) (some : 0 < d) :
    HasSize .positive d x.toModel.unpack ∧ d < overflow := by
  obtain ⟨s, n, size, small, same⟩ := h
  cases s with
  | negative =>
    simp only [Sign.apply] at same
    omega
  | positive =>
    obtain rfl : d = n := Int.ofNat_inj.mp same
    exact ⟨size, small⟩

/-- Adding what is not negative can only lead beyond the largest double. -/
theorem hasPosition_add {p : Nat} (hx : FiniteAt x z) (hy : HasSize .positive p y.toModel.unpack) :
    HasPosition (x + y).toModel.unpack (min (nearestPosition (z + p)) overflow) := by
  have above := hx.lt_overflow
  have climbed : z ≤ nearestPosition (z + p) := by
    calc z = nearestPosition z := hx.nearestPosition_eq.symm
      _ ≤ nearestPosition (z + p) := nearestPosition_mono (by omega)
  obtain ⟨s, m, size, -, rfl⟩ := hx
  obtain ⟨r, sign, total⟩ := size.add hy
  have nearest := congrArg nearestPosition sign
  have upright : Sign.positive.apply p = p := rfl
  rw [nearestPosition_apply] at nearest
  rw [upright] at nearest total
  generalize roundedSize ((s.apply m + p).natAbs * oneSize) = q at nearest total
  have packed := unpack_pack total
  rw [← unpack_add] at packed
  rw [nearest] at climbed ⊢
  split at packed
  next beyond =>
    rw [packed]
    cases r with
    | negative =>
      have down : Sign.negative.apply q = -(q : Int) := rfl
      omega
    | positive =>
      have up : Sign.positive.apply q = (q : Int) := rfl
      rw [up, Int.min_eq_right (Int.ofNat_le.mpr beyond)]
      exact .infinity .positive
  next within =>
    have less := Nat.lt_of_not_le within
    rw [← packed] at total
    rw [Int.min_eq_left (apply_lt_overflow r less).2.le]
    exact .finite total less

end FiniteAt

theorem nearestPosition_error (v : Int) : |(nearestPosition v : ℚ) - v| ≤ |(v : ℚ)| / 2 ^ 53 := by
  obtain ⟨n, same⟩ := v.eq_nat_or_neg
  have nonneg : (0 : ℚ) ≤ n := Nat.cast_nonneg n
  obtain rfl | rfl := same
  · have up : nearestPosition n = roundedSize (n * oneSize) := nearestPosition_apply .positive n
    rw [up, Int.cast_natCast, Int.cast_natCast, abs_of_nonneg nonneg]
    exact roundedSize_error_whole n
  · have down : nearestPosition (-n) = -roundedSize (n * oneSize) :=
      nearestPosition_apply .negative n
    rw [down, Int.cast_neg, Int.cast_neg, Int.cast_natCast, Int.cast_natCast, ← neg_sub', abs_neg,
      abs_neg, abs_of_nonneg nonneg]
    exact roundedSize_error_whole n

end FormulaFit

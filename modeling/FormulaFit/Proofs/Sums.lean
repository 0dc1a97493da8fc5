import FormulaFit.Proofs.Doubles

namespace FormulaFit

open Float.Model Float.Model.UnpackedFloat

variable {s t : Sign} {n k : Nat} {x y : UnpackedFloat}

/-- The size of one. -/
def oneSize : Nat :=
  2 ^ 1074

theorem oneSize_pos : 0 < oneSize :=
  pow_pos Nat.two_pos _

/-- The size of a half. -/
def halfSize : Nat :=
  2 ^ 1073

theorem halfSize_pos : 0 < halfSize :=
  pow_pos Nat.two_pos _

theorem two_mul_halfSize : 2 * halfSize = oneSize := by
  decide +kernel

theorem halfSize_le : halfSize ≤ oneSize := by
  rw [← two_mul_halfSize]
  exact Nat.le_mul_of_pos_left halfSize Nat.two_pos

theorem nearest_exact (v k : Nat) : nearest (v * 2 ^ k) k = v := by
  have positive := Nat.two_pow_pos k
  rw [nearest, Nat.mul_mod_left, Nat.mul_div_cancel _ positive, if_pos (by omega)]

/-- Numbers that take at most 53 bits are not rounded. -/
theorem roundedSize_exact {m : Nat} (narrow : m < 2 ^ 53) (j : Nat) :
    roundedSize (m * 2 ^ j * oneSize) = m * 2 ^ j := by
  rcases Nat.eq_zero_or_pos m with rfl | some
  · rw [Nat.zero_mul, Nat.zero_mul, roundedSize_zero]
  · have bits := log2_le_of_lt narrow
    rw [oneSize, Nat.mul_assoc, ← Nat.pow_add]
    obtain ⟨d, hd⟩ : ∃ d, droppedBits (m * 2 ^ (j + 1074)) = d := ⟨_, rfl⟩
    obtain ⟨low, high⟩ : 1074 ≤ d ∧ d ≤ j + 1074 := by
      rw [droppedBits, log2_mul_two_pow some] at hd
      omega
    obtain ⟨i, split⟩ : ∃ i, j + 1074 = i + d := ⟨j + 1074 - d, by omega⟩
    have rest : j = i + (d - 1074) := by omega
    rw [roundedSize, hd, split, Nat.pow_add, ← Nat.mul_assoc, nearest_exact, rest, Nat.pow_add,
      Nat.mul_assoc]

theorem HasSize.exact (h : HasSize s n x) : roundedSize (n * oneSize) = n := by
  cases h with
  | zero => rw [Nat.zero_mul, roundedSize_zero]
  | finite positive narrow => exact roundedSize_exact narrow _

theorem HasSize.exact_double (h : HasSize s n x) : roundedSize (2 * n * oneSize) = 2 * n := by
  cases h with
  | zero => rw [Nat.mul_zero, Nat.zero_mul, roundedSize_zero]
  | @finite m e positive narrow =>
    have double : 2 * (m * 2 ^ (e + 1074).toNat) = m * 2 ^ ((e + 1074).toNat + 1) := by
      rw [Nat.pow_succ]
      ring
    rw [double, roundedSize_exact narrow]

/-- A mantissa is first made long enough to lose nothing but what is rounded. -/
theorem hasSize_round_of_le (s : Sign) {m : Nat} {e : Int} (positive : 0 < m) (least : -1074 ≤ e) :
    HasSize s (roundedSize (m * 2 ^ (e + 1074).toNat * oneSize))
      (UnpackedFloat.round .binary64 s m e) := by
  rw [UnpackedFloat.round, targetExponent_eq]
  simp only [decreaseExponent, Nat.shiftLeft_eq]
  obtain ⟨shift, hshift⟩ : ∃ j, (e - max (m.log2 + e - 52) (-1074)).toNat = j := ⟨_, rfl⟩
  rw [hshift]
  have longer := log2_mul_two_pow positive shift
  have place : shift + (e - shift + 2148).toNat = (e + 1074).toNat + 1074 := by omega
  have same : m * 2 ^ (e + 1074).toNat * oneSize =
      m * 2 ^ shift * 2 ^ (e - shift + 2148).toNat := by
    rw [oneSize, Nat.mul_assoc, ← Nat.pow_add, ← place, Nat.pow_add, Nat.mul_assoc]
  rw [same]
  exact hasSize_round s (by omega) (by omega)

theorem hasSize_normalize {m e : Int} (least : -1074 ≤ e) :
    ∃ r : Sign, m = r.apply m.natAbs ∧
      HasSize r (roundedSize (m.natAbs * 2 ^ (e + 1074).toNat * oneSize))
        (UnpackedFloat.normalize .binary64 m e .positive) := by
  rcases Int.lt_trichotomy m 0 with below | rfl | above
  · have size : (-m).toNat = m.natAbs := by omega
    refine ⟨.negative, by simp only [Sign.apply]; omega, ?_⟩
    rw [UnpackedFloat.normalize, compare_lt_iff_lt.mpr below]
    dsimp only
    rw [size]
    exact hasSize_round_of_le _ (by omega) least
  · refine ⟨.positive, rfl, ?_⟩
    rw [UnpackedFloat.normalize, compare_eq_iff_eq.mpr rfl, Int.natAbs_zero, Nat.zero_mul,
      Nat.zero_mul, roundedSize_zero]
    exact .zero
  · have size : m.toNat = m.natAbs := by omega
    refine ⟨.positive, by simp only [Sign.apply]; omega, ?_⟩
    rw [UnpackedFloat.normalize, compare_gt_iff_gt.mpr above]
    dsimp only
    rw [size]
    exact hasSize_round_of_le _ (by omega) least

theorem apply_mul (s : Sign) (n k : Nat) : s.apply (n * k : Nat) = s.apply n * k := by
  cases s <;> simp [Sign.apply]

theorem apply_aligned (s : Sign) (m : Nat) {e least : Int} (low : -1074 ≤ least) (h : least ≤ e) :
    s.apply (m * 2 ^ (e + 1074).toNat : Nat) =
      s.apply (m <<< (e - least).toNat : Nat) * (2 ^ (least + 1074).toNat : Nat) := by
  have place : (e + 1074).toNat = (e - least).toNat + (least + 1074).toNat := by omega
  rw [place, Nat.pow_add, ← Nat.mul_assoc, apply_mul, Nat.shiftLeft_eq]

/-- The sum of two doubles is the double nearest to their sum. -/
theorem HasSize.add (hx : HasSize s n x) (hy : HasSize t k y) :
    ∃ r : Sign, s.apply n + t.apply k = r.apply (s.apply n + t.apply k).natAbs ∧
      HasSize r (roundedSize ((s.apply n + t.apply k).natAbs * oneSize))
        (UnpackedFloat.add .binary64 x y) := by
  cases hx with
  | zero =>
    rw [apply_zero, Int.zero_add, natAbs_apply, hy.exact]
    cases hy with
    | zero =>
      rw [UnpackedFloat.add]
      split
      · exact ⟨s, by rw [apply_zero, apply_zero], .zero⟩
      · exact ⟨.positive, by rw [apply_zero, apply_zero], .zero⟩
    | finite positive narrow low normal => exact ⟨t, rfl, .finite positive narrow low normal⟩
  | @finite m e positive narrow low normal =>
    cases hy with
    | zero =>
      have hx : HasSize s _ (.finite s m e positive) := .finite positive narrow low normal
      rw [apply_zero, Int.add_zero, natAbs_apply, hx.exact]
      exact ⟨s, rfl, hx⟩
    | @finite m' e' positive' narrow' low' normal' =>
      obtain ⟨least, hleast⟩ : ∃ l, min e e' = l := ⟨_, rfl⟩
      obtain ⟨bounded, first, second⟩ : -1074 ≤ least ∧ least ≤ e ∧ least ≤ e' := by omega
      obtain ⟨r, sign, size⟩ := hasSize_normalize
        (m := s.apply (m <<< (e - least).toNat) + t.apply (m' <<< (e' - least).toNat)) bounded
      have aligned : s.apply (m * 2 ^ (e + 1074).toNat : Nat) +
          t.apply (m' * 2 ^ (e' + 1074).toNat : Nat) =
            (s.apply (m <<< (e - least).toNat) + t.apply (m' <<< (e' - least).toNat)) *
              (2 ^ (least + 1074).toNat : Nat) := by
        rw [apply_aligned s m bounded first, apply_aligned t m' bounded second, Int.add_mul]
      refine ⟨r, ?_, ?_⟩
      · rw [aligned, Int.natAbs_mul, Int.natAbs_natCast, apply_mul, ← sign]
      · rw [aligned, Int.natAbs_mul, Int.natAbs_natCast]
        simp only [UnpackedFloat.add, hleast, decreaseExponent]
        exact size

/-- The position of the double that is nearest to a whole number, if its exponent fits. -/
def nearestPosition (z : Int) : Int :=
  z.sign * roundedSize (z.natAbs * oneSize)

/-- The position of half the double at the given position. -/
def halfPosition (z : Int) : Int :=
  z.sign * roundedSize (halfSize * z.natAbs)

theorem nearestPosition_mono {z w : Int} (h : z ≤ w) : nearestPosition z ≤ nearestPosition w :=
  sign_mul_mono (f := fun n => roundedSize (n * oneSize))
    (fun _ _ le => roundedSize_mono (Nat.mul_le_mul_right _ le)) h

theorem halfPosition_mono {z w : Int} (h : z ≤ w) : halfPosition z ≤ halfPosition w :=
  sign_mul_mono (f := fun n => roundedSize (halfSize * n))
    (fun _ _ le => roundedSize_mono (Nat.mul_le_mul_left _ le)) h

theorem nearestPosition_apply (r : Sign) (n : Nat) :
    nearestPosition (r.apply n) = r.apply (roundedSize (n * oneSize)) := by
  rw [nearestPosition, natAbs_apply]
  refine sign_apply_mul r ?_
  rintro rfl
  rw [Nat.zero_mul, roundedSize_zero]

theorem halfPosition_apply (r : Sign) (n : Nat) :
    halfPosition (r.apply n) = r.apply (roundedSize (halfSize * n)) := by
  rw [halfPosition, natAbs_apply]
  refine sign_apply_mul r ?_
  rintro rfl
  rw [Nat.mul_zero, roundedSize_zero]

theorem two_mul_apply (s : Sign) (n : Nat) : 2 * s.apply n = s.apply (2 * n : Nat) := by
  cases s <;> simp only [Sign.apply] <;> omega

theorem HasSize.nearestPosition_double (h : HasSize s n x) :
    nearestPosition (2 * s.apply n) = 2 * s.apply n := by
  rw [two_mul_apply, nearestPosition_apply, h.exact_double]

theorem HasSize.halfPosition_double (h : HasSize s n x) :
    halfPosition (2 * s.apply n) = s.apply n := by
  have product : halfSize * (2 * n) = n * oneSize := by
    rw [← two_mul_halfSize]
    ring
  rw [two_mul_apply, halfPosition_apply, product, h.exact]

/-- Rounding twice, after the addition and after the division, does not lead out of an interval
between doubles. -/
theorem HasSize.midpoint_between (hx : HasSize s n x) (hy : HasSize t k y)
    (ordered : s.apply n ≤ t.apply k) :
    s.apply n ≤ halfPosition (nearestPosition (s.apply n + t.apply k)) ∧
      halfPosition (nearestPosition (s.apply n + t.apply k)) ≤ t.apply k := by
  constructor
  · calc s.apply n
        = halfPosition (nearestPosition (2 * s.apply n)) := by
          rw [hx.nearestPosition_double, hx.halfPosition_double]
      _ ≤ halfPosition (nearestPosition (s.apply n + t.apply k)) :=
          halfPosition_mono (nearestPosition_mono (by omega))
  · calc halfPosition (nearestPosition (s.apply n + t.apply k))
        ≤ halfPosition (nearestPosition (2 * t.apply k)) :=
          halfPosition_mono (nearestPosition_mono (by omega))
      _ = t.apply k := by rw [hy.nearestPosition_double, hy.halfPosition_double]

section

variable {x y : Float}

/-- A number is infinite, or finite and of some size. -/
theorem infinite_or_hasSize (number : ¬x.isNaN) :
    (∃ s, x.toModel.unpack = .infinity s) ∨
      ∃ s n, HasSize s n x.toModel.unpack ∧ n < overflow := by
  obtain ⟨z, position⟩ := exists_position_of_not_isNaN number
  generalize x.toModel.unpack = u at position
  cases position with
  | infinity s => exact Or.inl ⟨s, rfl⟩
  | finite size small => exact Or.inr ⟨_, _, size, small⟩

theorem not_isFinite_of_infinity (h : x.toModel.unpack = .infinity s) : ¬x.isFinite := by
  have defined : x.isFinite = x.toModel.unpack.isFinite := rfl
  rw [defined, h]
  exact Bool.false_ne_true

theorem isFinite_of_hasSize (h : HasSize s n x.toModel.unpack) : x.isFinite := by
  have defined : x.isFinite = x.toModel.unpack.isFinite := rfl
  rw [defined]
  generalize x.toModel.unpack = u at h
  cases h <;> rfl

theorem hasSize_two_pow {e : Int} (low : -1074 ≤ e) :
    HasSize .positive (2 ^ 52 * 2 ^ (e + 1074).toNat)
      (.finite .positive (2 ^ 52) e (Nat.two_pow_pos 52)) :=
  .finite (Nat.two_pow_pos 52) (by decide) low fun _ => Nat.le_refl _

theorem hasSize_half : HasSize .positive halfSize (0.5 : Float).toModel.unpack := by
  have bits : (0.5 : Float).toModel.toBits = 0x3FE0000000000000 := by decide +kernel
  have unpacked : (0.5 : Float).toModel.unpack =
      .finite .positive (2 ^ 52) (-53) (Nat.two_pow_pos 52) := by
    rw [Float.Model.unpack, bits]
    rfl
  have size : halfSize = 2 ^ 52 * 2 ^ ((-53 : Int) + 1074).toNat := by decide +kernel
  rw [unpacked, size]
  exact hasSize_two_pow (by decide)

theorem unpack_pack_infinity (s : Sign) :
    UnpackedFloat.unpack .binary64 (UnpackedFloat.pack .binary64 (.infinity s)) = .infinity s := by
  cases s <;> rfl

theorem positive_mul (s : Sign) : .positive * s = s := by
  cases s <;> rfl

theorem mul_infinity {u : UnpackedFloat} (h : HasSize .positive k u) (positive : 0 < k)
    (s : Sign) : UnpackedFloat.mul .binary64 u (.infinity s) = .infinity s := by
  cases h with
  | zero => exact absurd positive (Nat.lt_irrefl 0)
  | finite => exact congrArg UnpackedFloat.infinity (positive_mul s)

theorem unpack_half_of_infinity (h : x.toModel.unpack = .infinity s) :
    (0.5 * x).toModel.unpack = .infinity s := by
  rw [unpack_mul, h, mul_infinity hasSize_half halfSize_pos, unpack_pack_infinity]

theorem hasSize_half_of_hasSize (h : HasSize s n x.toModel.unpack) (small : n < overflow) :
    HasSize s (roundedSize (halfSize * n)) (0.5 * x).toModel.unpack ∧
      roundedSize (halfSize * n) < overflow := by
  have multiplied := hasSize_half.mul h
  rw [positive_mul] at multiplied
  have bounded : roundedSize (halfSize * n) < overflow := by
    calc roundedSize (halfSize * n)
        ≤ roundedSize (n * oneSize) := by
          rw [Nat.mul_comm]
          exact roundedSize_mono (Nat.mul_le_mul_left n halfSize_le)
      _ = n := h.exact
      _ < overflow := small
  rw [unpack_mul]
  exact ⟨multiplied.packed bounded, bounded⟩

theorem unpack_add (x y : Float) : (x + y).toModel.unpack = UnpackedFloat.unpack .binary64
    (UnpackedFloat.pack .binary64
      (UnpackedFloat.add .binary64 x.toModel.unpack y.toModel.unpack)) :=
  rfl

theorem not_isNaN_of_infinity (h : x.toModel.unpack = .infinity s) : ¬x.isNaN := by
  rw [isNaN_iff, h]
  exact UnpackedFloat.noConfusion

theorem isNaN_half (h : x.isNaN) : (0.5 * x).isNaN := by
  rw [isNaN_iff] at h ⊢
  have product (u : UnpackedFloat) : UnpackedFloat.mul .binary64 u .notANumber = .notANumber := by
    cases u <;> rfl
  rw [unpack_mul, h, product]
  rfl

theorem le_congr {x' y' : Float} (hx : x.toModel.unpack = x'.toModel.unpack)
    (hy : y.toModel.unpack = y'.toModel.unpack) : x ≤ y ↔ x' ≤ y' := by
  rw [le_iff_compare, le_iff_compare, hx, hy]

theorem le_self (number : ¬x.isNaN) : x ≤ x := by
  obtain ⟨z, position⟩ := exists_position_of_not_isNaN number
  exact (le_iff_of_position position position).mpr (Int.le_refl z)

/-- The middle between two bounds can be computed if their sum is a number, and finite in case they
are. -/
def HasMidpoint (lower upper : Float) : Prop :=
  ¬(lower + upper).isNaN ∧ (lower.isFinite → upper.isFinite → (lower + upper).isFinite)

theorem hasMidpoint_iff_of_isFinite (hx : x.isFinite) (hy : y.isFinite) :
    HasMidpoint x y ↔ (x + y).isFinite := by
  refine ⟨fun h => h.2 hx hy, fun finite => ⟨fun nan => ?_, fun _ _ => finite⟩⟩
  have defined : (x + y).isFinite = (x + y).toModel.unpack.isFinite := rfl
  rw [defined, isNaN_iff.mp nan] at finite
  exact Bool.false_ne_true finite

/-- Between finite bounds, the middle is missed only where the sum is too large. -/
theorem midpoint_between_iff_of_hasSize (hx : HasSize s n x.toModel.unpack)
    (hy : HasSize t k y.toModel.unpack) (small : n < overflow) (small' : k < overflow)
    (ordered : x ≤ y) :
    x ≤ 0.5 * (x + y) ∧ 0.5 * (x + y) ≤ y ↔ (x + y).isFinite := by
  have lower : HasPosition x.toModel.unpack (s.apply n) := .finite hx small
  have upper : HasPosition y.toModel.unpack (t.apply k) := .finite hy small'
  obtain ⟨r, sign, size⟩ := hx.add hy
  have sum := unpack_add x y
  rw [unpack_pack size] at sum
  by_cases beyond : overflow ≤ roundedSize ((s.apply n + t.apply k).natAbs * oneSize)
  · rw [if_pos beyond] at sum
    have half : HasPosition (0.5 * (x + y)).toModel.unpack (r.apply overflow) := by
      rw [unpack_half_of_infinity sum]
      exact .infinity r
    rw [le_iff_of_position lower half, le_iff_of_position half upper]
    refine iff_of_false ?_ (not_isFinite_of_infinity sum)
    rintro ⟨above, below⟩
    cases r with
    | negative => exact absurd above (Int.not_le.mpr (apply_lt_overflow s small).1)
    | positive => exact absurd below (Int.not_le.mpr (apply_lt_overflow t small').2)
  · rw [if_neg beyond] at sum
    rw [← sum] at size
    refine iff_of_true ?_ (isFinite_of_hasSize size)
    obtain ⟨halved, bounded⟩ := hasSize_half_of_hasSize size (Nat.lt_of_not_le beyond)
    have half : HasPosition (0.5 * (x + y)).toModel.unpack
        (halfPosition (nearestPosition (s.apply n + t.apply k))) := by
      rw [sign, nearestPosition_apply, halfPosition_apply]
      exact .finite halved bounded
    rw [le_iff_of_position lower half, le_iff_of_position half upper]
    exact hx.midpoint_between hy ((le_iff_of_position lower upper).mp ordered)

/-- If the sum is one of the bounds because that one is infinite, then so is the middle. -/
theorem midpoint_between_iff_of_infinity (ordered : x ≤ y)
    (sum : (x + y).toModel.unpack = .infinity s)
    (bound : x.toModel.unpack = .infinity s ∨ y.toModel.unpack = .infinity s) :
    x ≤ 0.5 * (x + y) ∧ 0.5 * (x + y) ≤ y ↔ HasMidpoint x y := by
  have half := unpack_half_of_infinity sum
  refine iff_of_true ?_ ⟨not_isNaN_of_infinity sum, fun finite finite' => ?_⟩
  · rcases bound with lower | upper
    · have same := half.trans lower.symm
      exact ⟨(le_congr rfl same).mpr (le_self (not_isNaN_of_infinity lower)),
        (le_congr same rfl).mpr ordered⟩
    · have same := half.trans upper.symm
      exact ⟨(le_congr rfl same).mpr ordered,
        (le_congr same rfl).mpr (le_self (not_isNaN_of_infinity upper))⟩
  · rcases bound with lower | upper
    · exact absurd finite (not_isFinite_of_infinity lower)
    · exact absurd finite' (not_isFinite_of_infinity upper)

theorem unpack_add_of_infinity_left (hx : x.toModel.unpack = .infinity s)
    (hy : HasSize t k y.toModel.unpack) : (x + y).toModel.unpack = .infinity s := by
  rw [unpack_add, hx]
  generalize y.toModel.unpack = v at hy
  cases hy <;> exact unpack_pack_infinity s

theorem unpack_add_of_infinity_right (hx : HasSize s n x.toModel.unpack)
    (hy : y.toModel.unpack = .infinity t) : (x + y).toModel.unpack = .infinity t := by
  rw [unpack_add, hy]
  generalize x.toModel.unpack = u at hx
  cases hx <;> exact unpack_pack_infinity t

/-- The computed middle lies between the bounds just where it can be computed. -/
theorem midpoint_between_iff (ordered : x ≤ y) :
    x ≤ 0.5 * (x + y) ∧ 0.5 * (x + y) ≤ y ↔ HasMidpoint x y := by
  obtain ⟨number, number'⟩ := not_isNaN_of_le ordered
  rcases infinite_or_hasSize number with ⟨s, hx⟩ | ⟨s, n, hx, small⟩
  · rcases infinite_or_hasSize number' with ⟨t, hy⟩ | ⟨t, k, hy, -⟩
    · by_cases same : s = t
      · subst same
        have sum : (x + y).toModel.unpack = .infinity s := by
          rw [unpack_add, hx, hy]
          cases s <;> rfl
        exact midpoint_between_iff_of_infinity ordered sum (Or.inl hx)
      · have nan : (x + y).isNaN := by
          rw [isNaN_iff, unpack_add, hx, hy]
          cases s <;> cases t
          · exact absurd rfl same
          · rfl
          · rfl
          · exact absurd rfl same
        refine iff_of_false (fun between => ?_) fun midpoint => midpoint.1 nan
        exact (not_isNaN_of_le between.1).2 (isNaN_half nan)
    · exact midpoint_between_iff_of_infinity ordered (unpack_add_of_infinity_left hx hy) (Or.inl hx)
  · rcases infinite_or_hasSize number' with ⟨t, hy⟩ | ⟨t, k, hy, small'⟩
    · exact midpoint_between_iff_of_infinity ordered (unpack_add_of_infinity_right hx hy)
        (Or.inr hy)
    · rw [midpoint_between_iff_of_hasSize hx hy small small' ordered,
        hasMidpoint_iff_of_isFinite (isFinite_of_hasSize hx) (isFinite_of_hasSize hy)]

end

end FormulaFit

import Mathlib
import FormulaFit.Double

namespace FormulaFit

/-- The whole number nearest to `v / t`, the even one of two. -/
def nearestQuotient (v t : Nat) : Nat :=
  if 2 * (v % t) < t then v / t
  else if 2 * (v % t) = t then v / t + v / t % 2
  else v / t + 1

theorem div_le_nearestQuotient (v t : Nat) : v / t ≤ nearestQuotient v t := by
  unfold nearestQuotient
  split_ifs <;> omega

theorem nearestQuotient_le_div_succ (v t : Nat) : nearestQuotient v t ≤ v / t + 1 := by
  unfold nearestQuotient
  split_ifs <;> omega

/-- What is nearest to a quotient only depends on how the rest compares with half of the divisor. -/
theorem nearestQuotient_mono {v t w u : Nat} (first : 0 < t) (second : 0 < u)
    (h : v * u ≤ w * t) : nearestQuotient v t ≤ nearestQuotient w u := by
  have quotients : v / t ≤ w / u := by
    rw [Nat.le_div_iff_mul_le second]
    refine Nat.le_of_mul_le_mul_right ?_ first
    calc v / t * u * t = v / t * t * u := Nat.mul_right_comm _ _ _
      _ ≤ v * u := Nat.mul_le_mul_right u (Nat.div_mul_le_self v t)
      _ ≤ w * t := h
  rcases Nat.lt_or_eq_of_le quotients with below | same
  · have low := nearestQuotient_le_div_succ v t
    have high := div_le_nearestQuotient w u
    omega
  · have rests : v % t * u ≤ w % u * t := by
      have hv := congrArg (· * u) (Nat.mod_add_div v t)
      have hw := congrArg (· * t) (Nat.mod_add_div w u)
      simp only [same, Nat.add_mul] at hv hw
      have shared : t * (w / u) * u = u * (w / u) * t := by ring
      omega
    have less (half : 2 * (w % u) < u) : 2 * (v % t) < t := by
      refine Nat.lt_of_mul_lt_mul_right (a := u) ?_
      calc 2 * (v % t) * u = 2 * (v % t * u) := Nat.mul_assoc _ _ _
        _ ≤ 2 * (w % u * t) := Nat.mul_le_mul_left 2 rests
        _ = 2 * (w % u) * t := (Nat.mul_assoc _ _ _).symm
        _ < u * t := Nat.mul_lt_mul_of_pos_right half first
        _ = t * u := Nat.mul_comm _ _
    have half (half : 2 * (w % u) = u) : 2 * (v % t) ≤ t := by
      refine Nat.le_of_mul_le_mul_right ?_ second
      calc 2 * (v % t) * u = 2 * (v % t * u) := Nat.mul_assoc _ _ _
        _ ≤ 2 * (w % u * t) := Nat.mul_le_mul_left 2 rests
        _ = 2 * (w % u) * t := (Nat.mul_assoc _ _ _).symm
        _ = t * u := by rw [half, Nat.mul_comm]
    unfold nearestQuotient
    rw [same]
    split_ifs <;> omega

theorem nearestQuotient_mul (v t : Nat) {c : Nat} (positive : 0 < c) :
    nearestQuotient (v * c) (t * c) = nearestQuotient v t := by
  have twice : 2 * (v % t * c) = 2 * (v % t) * c := by ring
  unfold nearestQuotient
  rw [Nat.mul_div_mul_right _ _ positive, Nat.mul_mod_mul_right, twice]
  simp only [Nat.mul_lt_mul_right positive, Nat.mul_right_cancel_iff positive]

/-- The whole number nearest to `v / 2 ^ k`, the even one of two. -/
def nearest (v k : Nat) : Nat :=
  if 2 * (v % 2 ^ k) < 2 ^ k then v / 2 ^ k
  else if 2 * (v % 2 ^ k) = 2 ^ k then v / 2 ^ k + v / 2 ^ k % 2
  else v / 2 ^ k + 1

theorem nearest_eq (v k : Nat) : nearest v k = nearestQuotient v (2 ^ k) :=
  rfl

open Float.Model Float.Model.UnpackedFloat

/-- The quotient of `v / t`, with two bits that tell how the rest compares with half of `t`. -/
structure Tracks (em : ExtendedMantissa) (v t : Nat) : Prop where
  mantissa : em.mantissa = v / t
  round : em.roundBit = true ↔ t ≤ 2 * (v % t)
  sticky : em.stickyBit = true ↔ v % t ≠ 0 ∧ 2 * (v % t) ≠ t

theorem tracks_exact (v : Nat) : Tracks ⟨v, false, false⟩ v 1 := by
  constructor <;> simp [Nat.mod_one]

theorem tracks_fraction (v : Nat) {t : Nat} (positive : 0 < t) :
    Tracks (.ofMantissaAndAccuracy (v / t) (accuracyOfFraction (v % t) t)) v t := by
  rw [accuracyOfFraction]
  split
  next none =>
    constructor <;> simp [ExtendedMantissa.ofMantissaAndAccuracy, none, Nat.ne_of_gt positive]
  next some =>
    rcases Nat.lt_trichotomy (2 * (v % t)) t with less | half | more
    · rw [compare_lt_iff_lt.mpr less]
      constructor <;> simp [ExtendedMantissa.ofMantissaAndAccuracy, some, less, Nat.ne_of_lt less]
    · rw [compare_eq_iff_eq.mpr half]
      constructor <;> simp [ExtendedMantissa.ofMantissaAndAccuracy, half]
    · rw [compare_gt_iff_gt.mpr more]
      constructor <;> simp [ExtendedMantissa.ofMantissaAndAccuracy, some, Nat.le_of_lt more,
        Nat.ne_of_gt more]

namespace Tracks

variable {em : ExtendedMantissa} {v t : Nat}

theorem shiftRightOne (h : Tracks em v t) (positive : 0 < t) :
    Tracks em.shiftRightOne v (t * 2) := by
  have rest : v % (t * 2) = v % t + t * (v / t % 2) := Nat.mod_mul
  have below : v % t < t := Nat.mod_lt _ positive
  have dropped : em.shiftRightOne.stickyBit = true ↔ v % t ≠ 0 := by
    rw [ExtendedMantissa.shiftRightOne, Bool.or_eq_true, h.round, h.sticky]
    omega
  have bit : em.shiftRightOne.roundBit = true ↔ v / t % 2 = 1 := by
    rw [ExtendedMantissa.shiftRightOne, h.mantissa, bne_iff_ne]
    omega
  refine ⟨?_, ?_, ?_⟩
  · rw [ExtendedMantissa.shiftRightOne, h.mantissa, Nat.div_div_eq_div_mul]
  · rw [bit, rest]
    rcases Nat.mod_two_eq_zero_or_one (v / t) with even | odd
    · rw [even]
      omega
    · rw [odd]
      omega
  · rw [dropped, rest]
    rcases Nat.mod_two_eq_zero_or_one (v / t) with even | odd
    · rw [even]
      omega
    · rw [odd]
      omega

theorem shiftRight (h : Tracks em v t) (positive : 0 < t) (k : Nat) :
    Tracks (em >>> k) v (t * 2 ^ k) := by
  induction k with
  | zero =>
    rw [Nat.pow_zero, Nat.mul_one]
    exact h
  | succ k ih =>
    rw [Nat.pow_succ, ← Nat.mul_assoc]
    exact ih.shiftRightOne (Nat.mul_pos positive (Nat.two_pow_pos k))

theorem roundedMantissa (h : Tracks em v t) (positive : 0 < t) :
    em.roundedMantissa = nearestQuotient v t := by
  obtain ⟨mantissa, round, sticky⟩ := em
  obtain ⟨rfl, hround, hsticky⟩ := h
  have below : v % t < t := Nat.mod_lt _ positive
  simp only at hround hsticky
  unfold nearestQuotient
  cases round <;> cases sticky <;>
    simp only [Bool.false_eq_true, false_iff, true_iff] at hround hsticky <;>
    simp only [ExtendedMantissa.roundedMantissa, ExtendedMantissa.accuracy,
      Accuracy.roundToNearestEven] <;>
    split_ifs <;> omega

end Tracks

/-- The exponent that a double of the given mantissa and exponent is rounded to. -/
theorem targetExponent_eq (mantissa : Nat) (exponent : Int) :
    Format.binary64.targetExponent (totalExponent mantissa exponent) =
      max (mantissa.log2 + exponent - 52) (-1074) := by
  simp only [Format.targetExponent, totalExponent, Format.mantissaBits, Format.minExponent]
  omega

theorem shiftToTargetExponent_eq {mantissa : Nat} {exponent target : Int} (accuracy : Accuracy)
    (aim : max (mantissa.log2 + exponent - 52) (-1074) = target) (low : exponent ≤ target) :
    shiftToTargetExponent Format.binary64 mantissa exponent accuracy =
      (ExtendedMantissa.ofMantissaAndAccuracy mantissa accuracy >>> (target - exponent).toNat,
        target) := by
  rw [shiftToTargetExponent, targetExponent_eq, aim, shiftToExponent]
  have reached : exponent + ((target - exponent).toNat : Int) = target := by omega
  simp only [reached]

/-- The unpacked double of the given sign and size, in units of the least positive double. A larger
exponent is used just where the mantissa would take more bits than there are. -/
inductive HasSize (s : Sign) : Nat → UnpackedFloat → Prop
  | zero : HasSize s 0 (.zero s)
  | finite {mantissa : Nat} {exponent : Int} (positive : 0 < mantissa)
    (narrow : mantissa < 2 ^ 53) (low : -1074 ≤ exponent)
    (normal : -1074 < exponent → 2 ^ 52 ≤ mantissa) :
    HasSize s (mantissa * 2 ^ (exponent + 1074).toNat) (.finite s mantissa exponent positive)

theorem log2_le_of_lt {v n : Nat} (h : v < 2 ^ (n + 1)) : v.log2 ≤ n := by
  rcases Nat.eq_zero_or_pos v with rfl | positive
  · exact Nat.zero_le n
  · have := (Nat.log2_lt (Nat.ne_of_gt positive)).mpr h
    omega

/-- Rounding to the target exponent may carry into one more bit, which the exponent takes up. -/
theorem hasSize_roundWithAccuracy {s : Sign} {mantissa v t q : Nat} {accuracy : Accuracy}
    {exponent target : Int} (start : Tracks (.ofMantissaAndAccuracy mantissa accuracy) v t)
    (positive : 0 < t) (aim : max (mantissa.log2 + exponent - 52) (-1074) = target)
    (low : exponent ≤ target)
    (rounded : nearestQuotient v (t * 2 ^ (target - exponent).toNat) = q) (narrow : q ≤ 2 ^ 53)
    (normal : -1074 < target → 2 ^ 52 ≤ q) :
    HasSize s (q * 2 ^ (target + 1074).toNat)
      (roundWithAccuracy Format.binary64 s mantissa exponent accuracy) := by
  have first := shiftToTargetExponent_eq accuracy aim low
  have hq := (start.shiftRight positive (target - exponent).toNat).roundedMantissa
    (Nat.mul_pos positive (Nat.two_pow_pos _))
  rw [rounded] at hq
  have least : -1074 ≤ target := aim ▸ le_max_right _ _
  rcases Nat.lt_or_eq_of_le narrow with below | rfl
  · have fits : q.log2 ≤ 52 := log2_le_of_lt below
    have again : shiftToTargetExponent Format.binary64 q target .exact =
        (⟨q, false, false⟩, target) := by
      rw [shiftToTargetExponent, targetExponent_eq, shiftToExponent]
      have nothing : (max ((q.log2 : Int) + target - 52) (-1074) - target).toNat = 0 := by omega
      simp only [nothing]
      simp
      rfl
    simp only [roundWithAccuracy, first, hq, again]
    split
    next none =>
      subst none
      rw [Nat.zero_mul]
      exact .zero
    next some => exact .finite (Nat.pos_of_ne_zero some) below least normal
  · have again : shiftToTargetExponent Format.binary64 (2 ^ 53) target .exact =
        ((⟨2 ^ 53, false, false⟩ : ExtendedMantissa) >>> 1, target + 1) := by
      have next : max (((2 ^ 53 : Nat).log2 : Int) + target - 52) (-1074) = target + 1 := by
        rw [Nat.log2_two_pow]
        omega
      have one : (target + 1 - target).toNat = 1 := by omega
      rw [shiftToTargetExponent_eq .exact next (by omega), one]
      rfl
    have half : ((⟨2 ^ 53, false, false⟩ : ExtendedMantissa) >>> 1).mantissa = 2 ^ 52 := rfl
    simp only [roundWithAccuracy, first, hq, again, half]
    have carried : (2 : Nat) ^ 53 * 2 ^ (target + 1074).toNat =
        2 ^ 52 * 2 ^ (target + 1 + 1074).toNat := by
      have more : (target + 1 + 1074).toNat = (target + 1074).toNat + 1 := by omega
      rw [more, Nat.pow_succ]
      ring
    rw [carried]
    exact .finite _ (by decide) (by omega) fun _ => Nat.le_refl _

/-- How many bits a double drops of `v` units of the least product of two doubles. -/
def droppedBits (v : Nat) : Nat :=
  max (v.log2 - 52) 1074

/-- The size of the double nearest to `v / t` units of the least product of two doubles. -/
def roundedQuotient (v t : Nat) : Nat :=
  nearestQuotient v (t * 2 ^ droppedBits (v / t)) * 2 ^ (droppedBits (v / t) - 1074)

/-- The size of the double nearest to `v` units of the least product of two doubles. -/
def roundedSize (v : Nat) : Nat :=
  nearest v (droppedBits v) * 2 ^ (droppedBits v - 1074)

theorem roundedSize_eq (v : Nat) : roundedSize v = roundedQuotient v 1 := by
  rw [roundedQuotient, Nat.div_one, Nat.one_mul, ← nearest_eq, roundedSize]

theorem nearestQuotient_droppedBits_le (v t : Nat) :
    nearestQuotient v (t * 2 ^ droppedBits (v / t)) ≤ 2 ^ 53 := by
  have bits : (v / t).log2 + 1 ≤ 53 + droppedBits (v / t) := by
    unfold droppedBits
    omega
  have low : v / (t * 2 ^ droppedBits (v / t)) < 2 ^ 53 := by
    rw [← Nat.div_div_eq_div_mul, Nat.div_lt_iff_lt_mul (Nat.two_pow_pos _), ← Nat.pow_add]
    exact Nat.lt_of_lt_of_le Nat.lt_log2_self (Nat.pow_le_pow_right Nat.two_pos bits)
  have high := nearestQuotient_le_div_succ v (t * 2 ^ droppedBits (v / t))
  omega

theorem two_pow_le_of_lt_droppedBits {n : Nat} (h : 1074 < droppedBits n) :
    2 ^ (52 + droppedBits n) ≤ n := by
  have bits : n.log2 = 52 + droppedBits n := by
    unfold droppedBits at h ⊢
    omega
  have some : n ≠ 0 := by
    rintro rfl
    rw [Nat.log2_zero] at bits
    omega
  exact bits ▸ Nat.log2_self_le some

theorem le_nearestQuotient_droppedBits {v t : Nat} (h : 1074 < droppedBits (v / t)) :
    2 ^ 52 ≤ nearestQuotient v (t * 2 ^ droppedBits (v / t)) := by
  have low : 2 ^ 52 ≤ v / (t * 2 ^ droppedBits (v / t)) := by
    rw [← Nat.div_div_eq_div_mul, Nat.le_div_iff_mul_le (Nat.two_pow_pos _), ← Nat.pow_add]
    exact two_pow_le_of_lt_droppedBits h
  exact low.trans (div_le_nearestQuotient v _)

/-- A larger quotient is not rounded to a smaller size, whether or not it drops more bits. -/
theorem roundedQuotient_mono {v t w u : Nat} (first : 0 < t) (second : 0 < u)
    (h : v * u ≤ w * t) : roundedQuotient v t ≤ roundedQuotient w u := by
  have quotients : v / t ≤ w / u := by
    rw [Nat.le_div_iff_mul_le second]
    refine Nat.le_of_mul_le_mul_right ?_ first
    calc v / t * u * t = v / t * t * u := Nat.mul_right_comm _ _ _
      _ ≤ v * u := Nat.mul_le_mul_right u (Nat.div_mul_le_self v t)
      _ ≤ w * t := h
  have logs : (v / t).log2 ≤ (w / u).log2 := by
    rw [Nat.log2_eq_log_two, Nat.log2_eq_log_two]
    exact Nat.log_mono_right quotients
  have bits : droppedBits (v / t) ≤ droppedBits (w / u) := by
    unfold droppedBits
    omega
  unfold roundedQuotient
  rcases Nat.lt_or_eq_of_le bits with fewer | same
  · have least : 1074 ≤ droppedBits (v / t) := Nat.le_max_right _ _
    have exponents : 53 + (droppedBits (v / t) - 1074) ≤ 52 + (droppedBits (w / u) - 1074) := by
      omega
    calc nearestQuotient v (t * 2 ^ droppedBits (v / t)) * 2 ^ (droppedBits (v / t) - 1074)
        ≤ 2 ^ 53 * 2 ^ (droppedBits (v / t) - 1074) :=
          Nat.mul_le_mul_right _ (nearestQuotient_droppedBits_le v t)
      _ = 2 ^ (53 + (droppedBits (v / t) - 1074)) := (Nat.pow_add _ _ _).symm
      _ ≤ 2 ^ (52 + (droppedBits (w / u) - 1074)) := Nat.pow_le_pow_right Nat.two_pos exponents
      _ = 2 ^ 52 * 2 ^ (droppedBits (w / u) - 1074) := Nat.pow_add _ _ _
      _ ≤ nearestQuotient w (u * 2 ^ droppedBits (w / u)) * 2 ^ (droppedBits (w / u) - 1074) :=
          Nat.mul_le_mul_right _ (le_nearestQuotient_droppedBits (by omega))
  · rw [← same]
    refine Nat.mul_le_mul_right _ (nearestQuotient_mono (Nat.mul_pos first (Nat.two_pow_pos _))
      (Nat.mul_pos second (Nat.two_pow_pos _)) ?_)
    rw [← Nat.mul_assoc, ← Nat.mul_assoc]
    exact Nat.mul_le_mul_right _ h

theorem roundedSize_mono {v w : Nat} (h : v ≤ w) : roundedSize v ≤ roundedSize w := by
  rw [roundedSize_eq, roundedSize_eq]
  exact roundedQuotient_mono Nat.one_pos Nat.one_pos (Nat.mul_le_mul_right 1 h)

theorem log2_mul_two_pow {n : Nat} (positive : 0 < n) (j : Nat) :
    (n * 2 ^ j).log2 = n.log2 + j := by
  have some := Nat.ne_of_gt positive
  have scaled : n * 2 ^ j ≠ 0 := Nat.mul_ne_zero some (Nat.ne_of_gt (Nat.two_pow_pos j))
  rw [Nat.log2_eq_iff scaled]
  constructor
  · rw [Nat.pow_add]
    exact Nat.mul_le_mul_right _ (Nat.log2_self_le some)
  · have shift : n.log2 + j + 1 = n.log2 + 1 + j := by omega
    rw [shift, Nat.pow_add]
    exact Nat.mul_lt_mul_of_pos_right Nat.lt_log2_self (Nat.two_pow_pos j)

theorem log2_mul_two_pow_div {m t : Nat} (positive : 0 < t) (some : 0 < m / t) (j : Nat) :
    (m * 2 ^ j / t).log2 = (m / t).log2 + j := by
  have low : 2 ^ ((m / t).log2 + j) ≤ m * 2 ^ j / t := by
    rw [Nat.le_div_iff_mul_le positive, Nat.pow_add, Nat.mul_right_comm]
    refine Nat.mul_le_mul_right _ ?_
    rw [← Nat.le_div_iff_mul_le positive]
    exact Nat.log2_self_le (Nat.ne_of_gt some)
  have high : m * 2 ^ j / t < 2 ^ ((m / t).log2 + j + 1) := by
    rw [Nat.div_lt_iff_lt_mul positive, Nat.add_right_comm, Nat.pow_add, Nat.mul_right_comm]
    refine Nat.mul_lt_mul_of_pos_right ?_ (Nat.two_pow_pos j)
    rw [← Nat.div_lt_iff_lt_mul positive]
    exact Nat.lt_log2_self
  have large := (Nat.two_pow_pos _).trans_le low
  rw [Nat.log2_eq_iff (Nat.ne_of_gt large)]
  exact ⟨low, high⟩

/-- A mantissa that goes with an accuracy stands for a quotient, of which it is the whole part. -/
theorem hasSize_round_of_tracks (s : Sign) {mantissa m t : Nat} {exponent : Int}
    {accuracy : Accuracy} (start : Tracks (.ofMantissaAndAccuracy mantissa accuracy) m t)
    (positive : 0 < t) (least : -2148 ≤ exponent)
    (low : exponent ≤ max (mantissa.log2 + exponent - 52) (-1074)) :
    HasSize s (roundedQuotient (m * 2 ^ (exponent + 2148).toNat) t)
      (roundWithAccuracy Format.binary64 s mantissa exponent accuracy) := by
  have whole : mantissa = m / t := by
    rw [← start.mantissa]
    rcases accuracy with _ | _ | _ | _ <;> rfl
  obtain ⟨j, hj⟩ : ∃ j, (exponent + 2148).toNat = j := ⟨_, rfl⟩
  obtain ⟨target, aim⟩ : ∃ target, max (mantissa.log2 + exponent - 52) (-1074) = target := ⟨_, rfl⟩
  rw [hj]
  have bits : droppedBits (m * 2 ^ j / t) = (target - exponent).toNat + j := by
    rcases Nat.eq_zero_or_pos (m / t) with none | some
    · -- Less than one unit of so small an exponent is subnormal.
      rw [whole, none, Nat.log2_zero] at aim low
      have below : m < t := (Nat.div_eq_zero_iff_lt positive).mp none
      have small : m * 2 ^ j / t < 2 ^ (j + 1) := by
        rw [Nat.div_lt_iff_lt_mul positive]
        calc m * 2 ^ j < t * 2 ^ j := Nat.mul_lt_mul_of_pos_right below (Nat.two_pow_pos j)
          _ ≤ t * 2 ^ (j + 1) :=
            Nat.mul_le_mul_left t (Nat.pow_le_pow_right Nat.two_pos (Nat.le_succ j))
          _ = 2 ^ (j + 1) * t := Nat.mul_comm _ _
      have fits := log2_le_of_lt small
      rw [droppedBits]
      omega
    · rw [droppedBits, log2_mul_two_pow_div positive some, ← whole]
      omega
  have rounded : nearestQuotient m (t * 2 ^ (target - exponent).toNat) =
      nearestQuotient (m * 2 ^ j) (t * 2 ^ droppedBits (m * 2 ^ j / t)) := by
    rw [bits, Nat.pow_add, ← Nat.mul_assoc, nearestQuotient_mul _ _ (Nat.two_pow_pos j)]
  have place : droppedBits (m * 2 ^ j / t) - 1074 = (target + 1074).toNat := by omega
  rw [roundedQuotient, place]
  refine hasSize_roundWithAccuracy start positive aim (aim ▸ low) rounded
    (nearestQuotient_droppedBits_le _ _) ?_
  intro more
  exact le_nearestQuotient_droppedBits (by omega)

theorem hasSize_round (s : Sign) {mantissa : Nat} {exponent : Int} (least : -2148 ≤ exponent)
    (low : exponent ≤ max (mantissa.log2 + exponent - 52) (-1074)) :
    HasSize s (roundedSize (mantissa * 2 ^ (exponent + 2148).toNat))
      (roundWithAccuracy Format.binary64 s mantissa exponent .exact) := by
  rw [roundedSize_eq]
  exact hasSize_round_of_tracks s (tracks_exact mantissa) Nat.one_pos least low

end FormulaFit

import Mathlib
import FormulaFit.Proofs.Rounding

namespace FormulaFit

open Float.Model Float.Model.UnpackedFloat

variable {s t : Sign} {n k : Nat} {x y : UnpackedFloat}

theorem roundedSize_zero : roundedSize 0 = 0 := by
  simp [roundedSize, nearest]

theorem HasSize.mul (hx : HasSize s n x) (hy : HasSize t k y) :
    HasSize (s * t) (roundedSize (n * k)) (UnpackedFloat.mul Format.binary64 x y) := by
  cases hx with
  | zero =>
    rw [Nat.zero_mul, roundedSize_zero]
    cases hy with
    | zero | finite => exact .zero
  | @finite m e positive narrow low normal =>
    cases hy with
    | zero =>
      rw [Nat.mul_zero, roundedSize_zero]
      exact .zero
    | @finite m' e' positive' narrow' low' normal' =>
      have product : m * 2 ^ (e + 1074).toNat * (m' * 2 ^ (e' + 1074).toNat) =
          m * m' * 2 ^ (e + e' + 2148).toNat := by
        have places : (e + e' + 2148).toNat = (e + 1074).toNat + (e' + 1074).toNat := by omega
        rw [places, Nat.pow_add]
        ring
      rw [product]
      refine hasSize_round (s * t) (by omega) ?_
      -- Only two numbers of the least exponent have a product that takes few bits.
      by_cases tiny : e = -1074 ∧ e' = -1074
      · omega
      · have wide : 2 ^ 52 ≤ m * m' := by
          rcases Int.lt_or_le (-1074) e with larger | least
          · exact (normal larger).trans (Nat.le_mul_of_pos_right m positive')
          · exact (normal' (by omega)).trans (Nat.le_mul_of_pos_left m' positive)
        have bits : 52 ≤ (m * m').log2 :=
          (Nat.le_log2 (Nat.ne_of_gt (Nat.mul_pos positive positive'))).mpr wide
        omega

theorem compare_map {β γ : Type} [LinearOrder β] [LinearOrder γ] {f : β → γ} (mono : StrictMono f)
    (a b : β) : compare (f a) (f b) = compare a b := by
  rw [← cmp_eq_compare, ← cmp_eq_compare, mono.cmp_map_eq]

theorem compare_size {m m' : Nat} {e e' : Int} (narrow : m < 2 ^ 53) (low : -1074 ≤ e)
    (normal : -1074 < e → 2 ^ 52 ≤ m) (narrow' : m' < 2 ^ 53) (low' : -1074 ≤ e')
    (normal' : -1074 < e' → 2 ^ 52 ≤ m') :
    (compare e e').then (compare m m') =
      compare (m * 2 ^ (e + 1074).toNat) (m' * 2 ^ (e' + 1074).toNat) := by
  have less {m m' : Nat} {e e' : Int} (narrow : m < 2 ^ 53) (low : -1074 ≤ e)
      (normal' : -1074 < e' → 2 ^ 52 ≤ m') (below : e < e') :
      m * 2 ^ (e + 1074).toNat < m' * 2 ^ (e' + 1074).toNat := by
    have places : 53 + (e + 1074).toNat ≤ 52 + (e' + 1074).toNat := by omega
    calc m * 2 ^ (e + 1074).toNat
        < 2 ^ 53 * 2 ^ (e + 1074).toNat := Nat.mul_lt_mul_of_pos_right narrow (Nat.two_pow_pos _)
      _ = 2 ^ (53 + (e + 1074).toNat) := (Nat.pow_add _ _ _).symm
      _ ≤ 2 ^ (52 + (e' + 1074).toNat) := Nat.pow_le_pow_right Nat.two_pos places
      _ = 2 ^ 52 * 2 ^ (e' + 1074).toNat := Nat.pow_add _ _ _
      _ ≤ m' * 2 ^ (e' + 1074).toNat := Nat.mul_le_mul_right _ (normal' (by omega))
  rcases Int.lt_trichotomy e e' with below | rfl | above
  · rw [compare_lt_iff_lt.mpr below, compare_lt_iff_lt.mpr (less narrow low normal' below)]
    rfl
  · have mono : StrictMono fun m : Nat => m * 2 ^ (e + 1074).toNat := fun _ _ below =>
      Nat.mul_lt_mul_of_pos_right below (Nat.two_pow_pos _)
    rw [compare_map mono m m', compare_eq_iff_eq.mpr rfl]
    rfl
  · rw [compare_gt_iff_gt.mpr above, compare_gt_iff_gt.mpr (less narrow' low' normal above)]
    rfl

theorem compare_neg (a b : Int) : compare (-a) (-b) = (compare a b).swap := by
  rcases Int.lt_trichotomy a b with below | rfl | above
  · rw [compare_lt_iff_lt.mpr below, compare_gt_iff_gt.mpr (Int.neg_lt_neg below)]
    rfl
  · rw [compare_eq_iff_eq.mpr rfl, compare_eq_iff_eq.mpr rfl]
    rfl
  · rw [compare_gt_iff_gt.mpr above, compare_lt_iff_lt.mpr (Int.neg_lt_neg above)]
    rfl

theorem compare_natCast (a b : Nat) : compare (a : Int) (b : Int) = compare a b :=
  compare_map (fun _ _ => Int.ofNat_lt.mpr) a b

theorem apply_zero (s : Sign) : s.apply (0 : Nat) = 0 := by
  cases s <;> rfl

theorem HasSize.compare (hx : HasSize s n x) (hy : HasSize t k y) :
    UnpackedFloat.compare x y = some (Ord.compare (s.apply n) (t.apply k)) := by
  cases hx with
  | zero =>
    rw [apply_zero]
    cases hy with
    | zero =>
      rw [apply_zero]
      rfl
    | @finite m e positive narrow low normal =>
      have some := Nat.mul_pos positive (Nat.two_pow_pos (e + 1074).toNat)
      generalize m * 2 ^ (e + 1074).toNat = k at some ⊢
      cases t with
      | negative =>
        rw [Sign.apply, compare_gt_iff_gt.mpr (by omega)]
        rfl
      | positive =>
        rw [Sign.apply, compare_lt_iff_lt.mpr (by omega)]
        rfl
  | @finite m e positive narrow low normal =>
    have some := Nat.mul_pos positive (Nat.two_pow_pos (e + 1074).toNat)
    cases hy with
    | zero =>
      rw [apply_zero]
      generalize m * 2 ^ (e + 1074).toNat = n at some ⊢
      cases s with
      | negative =>
        rw [Sign.apply, compare_lt_iff_lt.mpr (by omega)]
        rfl
      | positive =>
        rw [Sign.apply, compare_gt_iff_gt.mpr (by omega)]
        rfl
    | @finite m' e' positive' narrow' low' normal' =>
      have some' := Nat.mul_pos positive' (Nat.two_pow_pos (e' + 1074).toNat)
      have sizes := compare_size narrow low normal narrow' low' normal'
      generalize m * 2 ^ (e + 1074).toNat = n at some sizes ⊢
      generalize m' * 2 ^ (e' + 1074).toNat = k at some' sizes ⊢
      cases s <;> cases t <;> simp only [UnpackedFloat.compare, Sign.apply]
      · rw [sizes, compare_neg, compare_natCast]
      · rw [compare_lt_iff_lt.mpr (by omega)]
      · rw [compare_gt_iff_gt.mpr (by omega)]
      · rw [sizes, compare_natCast]

/-- The number of places that the bits of finite doubles can have. -/
def places : Nat :=
  2098

/-- The size from which on a double is infinite. -/
def overflow : Nat :=
  2 ^ places

theorem overflow_pos : 0 < overflow :=
  Nat.two_pow_pos _

theorem size_lt_overflow {m : Nat} {e : Int} (narrow : m < 2 ^ 53) (high : e ≤ 971) :
    m * 2 ^ (e + 1074).toNat < overflow := by
  have inside : 53 + (e + 1074).toNat ≤ places := by
    rw [places]
    omega
  calc m * 2 ^ (e + 1074).toNat
      < 2 ^ 53 * 2 ^ (e + 1074).toNat := Nat.mul_lt_mul_of_pos_right narrow (Nat.two_pow_pos _)
    _ = 2 ^ (53 + (e + 1074).toNat) := (Nat.pow_add _ _ _).symm
    _ ≤ overflow := Nat.pow_le_pow_right Nat.two_pos inside

theorem overflow_le_size {m : Nat} {e : Int} (wide : 2 ^ 52 ≤ m) (high : 972 ≤ e) :
    overflow ≤ m * 2 ^ (e + 1074).toNat := by
  have outside : places ≤ 52 + (e + 1074).toNat := by
    rw [places]
    omega
  calc overflow ≤ 2 ^ (52 + (e + 1074).toNat) := Nat.pow_le_pow_right Nat.two_pos outside
    _ = 2 ^ 52 * 2 ^ (e + 1074).toNat := Nat.pow_add _ _ _
    _ ≤ m * 2 ^ (e + 1074).toNat := Nat.mul_le_mul_right _ wide

theorem toNat_implicit_append (m : BitVec 52) : (1#1 ++ m).toNat = 2 ^ 52 + m.toNat := by
  rw [BitVec.toNat_append, ← Nat.shiftLeft_add_eq_or_of_lt m.isLt]
  rfl

/-- The double with the given bits for sign, exponent and mantissa. -/
def ofFields (s : Sign) (e : BitVec 11) (m : BitVec 52) : UnpackedFloat :=
  if e = -1#11 then if m = 0#52 then .infinity s else .notANumber
  else if e = 0#11 then
    if h : m = 0#52 then .zero s
    else .finite s m.toNat (-1074) (by simpa [BitVec.toNat_pos, BitVec.pos_iff_ne_zero])
  else .finite s (1#1 ++ m).toNat (e.toNat - 1075) (by rw [toNat_implicit_append]; omega)

theorem unpack_eq_ofFields (b : BitVec 64) :
    UnpackedFloat.unpack .binary64 b =
      ofFields (Sign.ofBitVec (@unpackSign .binary64 b)) (@unpackExponent .binary64 b)
        (@unpackMantissa .binary64 b) := by
  have bias : Format.binary64.exponentBias = 1023 := rfl
  unfold UnpackedFloat.unpack ofFields
  simp only [bias]
  split
  next => rfl
  next =>
    split
    next least => simp only [least]; rfl
    next => rfl

theorem unpack_packComponents (s : Sign) (e : BitVec 11) (m : BitVec 52) :
    UnpackedFloat.unpack .binary64 (packComponents .binary64 s e m) = ofFields s e m := by
  rw [unpack_eq_ofFields, unpackSign_packComponents, unpackExponent_packComponents,
    unpackMantissa_packComponents, Sign.ofBitVec_toBitVec]

theorem ofFields_cases (s : Sign) (e : BitVec 11) (m : BitVec 52) :
    ofFields s e m = .notANumber ∨ ofFields s e m = .infinity s ∨
      ∃ n, HasSize s n (ofFields s e m) ∧ n < overflow := by
  have narrow := m.isLt
  unfold ofFields
  split
  next =>
    split
    · exact Or.inr (Or.inl rfl)
    · exact Or.inl rfl
  next special =>
    refine Or.inr (Or.inr ?_)
    split
    next least =>
      split
      next => exact ⟨0, .zero, overflow_pos⟩
      next =>
        have small := size_lt_overflow (by omega : m.toNat < 2 ^ 53) (by omega : (-1074 : Int) ≤ 971)
        exact ⟨_, .finite _ (by omega) (by omega) (by omega), small⟩
    next larger =>
      have below := e.isLt
      have whole := toNat_implicit_append m
      simp [BitVec.toNat_eq] at special larger
      exact ⟨_, .finite _ (by omega) (by omega) (by omega), size_lt_overflow (by omega) (by omega)⟩

theorem ofFields_normal (s : Sign) {m : Nat} {e : Int} (positive : 0 < m) (wide : 2 ^ 52 ≤ m)
    (narrow : m < 2 ^ 53) (low : -1074 ≤ e) (high : e ≤ 971) :
    ofFields s (BitVec.ofNat 11 (e + 1075).toNat) (BitVec.ofNat 52 m) =
      .finite s m e positive := by
  have exponent : (BitVec.ofNat 11 (e + 1075).toNat).toNat = (e + 1075).toNat := by
    rw [BitVec.toNat_ofNat]
    omega
  have mantissa : (1#1 ++ BitVec.ofNat 52 m).toNat = m := by
    rw [toNat_implicit_append, BitVec.toNat_ofNat]
    omega
  have bounded : BitVec.ofNat 11 (e + 1075).toNat ≠ -1#11 := by
    simp [BitVec.toNat_eq, exponent]
    omega
  have larger : BitVec.ofNat 11 (e + 1075).toNat ≠ 0#11 := by
    simp [BitVec.toNat_eq, exponent]
    omega
  rw [ofFields, if_neg bounded, if_neg larger]
  simp only [UnpackedFloat.finite.injEq, mantissa, exponent, true_and]
  omega

theorem ofFields_subnormal (s : Sign) {m : Nat} (positive : 0 < m) (small : m < 2 ^ 52) :
    ofFields s 0#11 (BitVec.ofNat 52 m) = .finite s m (-1074) positive := by
  have mantissa : (BitVec.ofNat 52 m).toNat = m := by
    rw [BitVec.toNat_ofNat]
    omega
  have some : BitVec.ofNat 52 m ≠ 0#52 := by
    simp [BitVec.toNat_eq, mantissa]
    omega
  rw [ofFields, if_neg (by decide), if_pos rfl, dif_neg some]
  simp only [mantissa]

/-- What is packed is found again, unless it is so large that the exponent does not fit. -/
theorem unpack_pack (h : HasSize s n x) :
    UnpackedFloat.unpack .binary64 (UnpackedFloat.pack .binary64 x) =
      if overflow ≤ n then .infinity s else x := by
  cases h with
  | zero =>
    rw [if_neg (Nat.not_le.mpr overflow_pos)]
    cases s <;> rfl
  | @finite m e positive narrow low normal =>
    have bias : (e + Format.binary64.exponentBias +
        Format.binary64.mantissaBitsWithoutImplicit).toNat = (e + 1075).toNat := by
      show (e + (1023 : Nat) + (52 : Nat)).toNat = (e + 1075).toNat
      omega
    have width : Format.binary64.mantissaBits = 53 := rfl
    simp only [UnpackedFloat.pack, bias, width]
    split
    next high =>
      rw [if_pos (overflow_le_size (normal (by omega)) (by omega))]
      cases s <;> rfl
    next room =>
      rw [if_neg (Nat.not_le.mpr (size_lt_overflow narrow (by omega)))]
      split
      next full =>
        have wide : 2 ^ 52 ≤ m := (Nat.le_log2 (Nat.ne_of_gt positive)).mp (by omega)
        rw [unpack_packComponents]
        exact ofFields_normal s positive wide narrow low (by omega)
      next short =>
        have small : m < 2 ^ 52 := by
          refine (Nat.log2_lt (Nat.ne_of_gt positive)).mp ?_
          have := (Nat.log2_lt (Nat.ne_of_gt positive)).mpr narrow
          omega
        obtain rfl : e = -1074 := by omega
        rw [unpack_packComponents]
        exact ofFields_subnormal s positive small

theorem HasSize.packed (h : HasSize s n x) (small : n < overflow) :
    HasSize s n (UnpackedFloat.unpack .binary64 (UnpackedFloat.pack .binary64 x)) := by
  rw [unpack_pack h, if_neg (Nat.not_le.mpr small)]
  exact h

/-- The position of a double on the number line, in units of the least positive one. The infinite
ones stand where finite ones end. -/
inductive HasPosition : UnpackedFloat → Int → Prop
  | infinity (s : Sign) : HasPosition (.infinity s) (s.apply overflow)
  | finite {s : Sign} {n : Nat} {x : UnpackedFloat} (h : HasSize s n x) (small : n < overflow) :
    HasPosition x (s.apply n)

theorem position_ofFields (s : Sign) (e : BitVec 11) (m : BitVec 52) :
    ofFields s e m = .notANumber ∨ ∃ z, HasPosition (ofFields s e m) z := by
  rcases ofFields_cases s e m with nan | infinite | ⟨n, h, small⟩
  · exact Or.inl nan
  · rw [infinite]
    exact Or.inr ⟨_, .infinity s⟩
  · exact Or.inr ⟨_, .finite h small⟩

theorem apply_lt_overflow (s : Sign) (small : n < overflow) :
    -(overflow : Int) < s.apply n ∧ s.apply n < overflow := by
  cases s <;> simp only [Sign.apply] <;> omega

theorem HasPosition.compare {z w : Int} (hx : HasPosition x z) (hy : HasPosition y w) :
    UnpackedFloat.compare x y = some (Ord.compare z w) := by
  have some := overflow_pos
  cases hx with
  | infinity s =>
    cases hy with
    | infinity t =>
      cases s <;> cases t <;> simp only [UnpackedFloat.compare, Sign.apply]
      · rw [compare_eq_iff_eq.mpr rfl]; rfl
      · rw [compare_lt_iff_lt.mpr (by omega)]; rfl
      · rw [compare_gt_iff_gt.mpr (by omega)]; rfl
      · rw [compare_eq_iff_eq.mpr rfl]; rfl
    | @finite t k _ h small =>
      obtain ⟨low, high⟩ := apply_lt_overflow t small
      cases s with
      | negative =>
        rw [compare_lt_iff_lt.mpr (by exact low)]
        cases h <;> rfl
      | positive =>
        rw [compare_gt_iff_gt.mpr (by exact high)]
        cases h <;> rfl
  | @finite s n _ h small =>
    cases hy with
    | infinity t =>
      obtain ⟨low, high⟩ := apply_lt_overflow s small
      cases t with
      | negative =>
        rw [compare_gt_iff_gt.mpr (by exact low)]
        cases h <;> rfl
      | positive =>
        rw [compare_lt_iff_lt.mpr (by exact high)]
        cases h <;> rfl
    | @finite t k _ h' small' => exact h.compare h'

/-- The position of the product with a positive double of the given size. -/
def scaled (k : Nat) (z : Int) : Int :=
  z.sign *
    (if z.natAbs < overflow then min (roundedSize (z.natAbs * k)) overflow else overflow : Nat)

theorem natAbs_apply (s : Sign) (n : Nat) : (s.apply n).natAbs = n := by
  cases s <;> simp [Sign.apply]

theorem sign_apply_mul (s : Sign) {n r : Nat} (none : n = 0 → r = 0) :
    (s.apply n).sign * r = s.apply r := by
  rcases Nat.eq_zero_or_pos n with rfl | some
  · rw [none rfl, apply_zero]
    rfl
  · have one : (n : Int).sign = 1 := Int.sign_eq_one_of_pos (Int.natCast_pos.mpr some)
    cases s <;> simp [Sign.apply, one]

theorem mul_positive (s : Sign) : s * .positive = s := by
  cases s <;> rfl

theorem HasPosition.mul {z : Int} (hx : HasPosition x z) (hy : HasSize .positive k y)
    (positive : 0 < k) :
    HasPosition (UnpackedFloat.unpack .binary64
      (UnpackedFloat.pack .binary64 (UnpackedFloat.mul .binary64 x y))) (scaled k z) := by
  cases hx with
  | infinity s =>
    have product : UnpackedFloat.mul .binary64 (.infinity s) y = .infinity s := by
      cases hy with
      | zero => exact absurd positive (Nat.lt_irrefl 0)
      | finite => exact congrArg UnpackedFloat.infinity (mul_positive s)
    have back : UnpackedFloat.unpack .binary64 (UnpackedFloat.pack .binary64 (.infinity s)) =
        .infinity s := by
      cases s <;> rfl
    have stays : scaled k (s.apply overflow) = s.apply overflow := by
      rw [scaled, natAbs_apply, if_neg (Nat.lt_irrefl _),
        sign_apply_mul s fun none => none]
    rw [product, back, stays]
    exact .infinity s
  | @finite s n _ h small =>
    have product := h.mul hy
    rw [mul_positive] at product
    rw [unpack_pack product, scaled, natAbs_apply, if_pos small]
    have none : n = 0 → min (roundedSize (n * k)) overflow = 0 := by
      rintro rfl
      rw [Nat.zero_mul, roundedSize_zero, Nat.zero_min]
    rw [sign_apply_mul s none]
    split
    next beyond =>
      rw [Nat.min_eq_right beyond]
      exact .infinity s
    next within =>
      rw [Nat.min_eq_left (Nat.le_of_not_le within)]
      exact .finite product (Nat.lt_of_not_le within)

theorem sign_mul_mono {f : Nat → Nat} (mono : Monotone f) {z w : Int} (h : z ≤ w) :
    z.sign * f z.natAbs ≤ w.sign * f w.natAbs := by
  rcases Int.lt_trichotomy z 0 with below | rfl | above
  · rw [Int.sign_eq_neg_one_of_neg below]
    rcases Int.lt_trichotomy w 0 with below' | rfl | above'
    · rw [Int.sign_eq_neg_one_of_neg below']
      have sizes : f w.natAbs ≤ f z.natAbs := mono (by omega)
      omega
    · rw [Int.sign_zero]
      omega
    · rw [Int.sign_eq_one_of_pos above']
      omega
  · rw [Int.sign_zero]
    rcases Int.lt_or_eq_of_le h with above | rfl
    · rw [Int.sign_eq_one_of_pos above]
      omega
    · exact Int.le_refl _
  · rw [Int.sign_eq_one_of_pos above, Int.sign_eq_one_of_pos (by omega : 0 < w)]
    have sizes : f z.natAbs ≤ f w.natAbs := mono (by omega)
    omega

theorem scaled_mono (k : Nat) {z w : Int} (h : z ≤ w) : scaled k z ≤ scaled k w := by
  have mono : Monotone fun n : Nat =>
      if n < overflow then min (roundedSize (n * k)) overflow else overflow := by
    intro n m le
    have sizes := roundedSize_mono (Nat.mul_le_mul_right k le)
    dsimp only
    split_ifs <;> omega
  exact sign_mul_mono mono h

/-- Values that units can be multiplied by. -/
def IsFactor {α : Type} [Scalar α] (m : α) : Prop :=
  0 < m ∧ Scalar.isFinite m

theorem compare_notANumber (x : UnpackedFloat) : UnpackedFloat.compare x .notANumber = none := by
  cases x <;> rfl

section

variable {x y m : Float}

theorem le_iff_compare : x ≤ y ↔
    ∃ o, UnpackedFloat.compare x.toModel.unpack y.toModel.unpack = some o ∧ o.isLE := by
  have defined : x ≤ y ↔
      (UnpackedFloat.compare x.toModel.unpack y.toModel.unpack).any (·.isLE) = true :=
    decide_eq_true_iff
  rw [defined, Option.any_eq_true]

theorem lt_iff_compare :
    x < y ↔ UnpackedFloat.compare x.toModel.unpack y.toModel.unpack = some .lt := by
  have defined : x < y ↔
      (UnpackedFloat.compare x.toModel.unpack y.toModel.unpack == some .lt) = true :=
    decide_eq_true_iff
  rw [defined, beq_iff_eq]

theorem beq_iff_compare :
    (x == y) = true ↔ UnpackedFloat.compare x.toModel.unpack y.toModel.unpack = some .eq := by
  have defined : (x == y) =
      (UnpackedFloat.compare x.toModel.unpack y.toModel.unpack == some .eq) :=
    rfl
  rw [defined, beq_iff_eq]

theorem lt_iff_of_le (h : x ≤ y) : x < y ↔ ¬x == y := by
  obtain ⟨o, compared, le⟩ := le_iff_compare.mp h
  rw [lt_iff_compare, beq_iff_compare, compared]
  cases o <;> simp_all

theorem le_of_lt (h : x < y) : x ≤ y :=
  le_iff_compare.mpr ⟨.lt, lt_iff_compare.mp h, rfl⟩

theorem exists_position_of_ne_nan (h : x.toModel.unpack ≠ .notANumber) :
    ∃ z, HasPosition x.toModel.unpack z := by
  rw [Float.Model.unpack, unpack_eq_ofFields] at h ⊢
  exact (position_ofFields _ _ _).resolve_left h

theorem exists_position_of_compare {o : Ordering}
    (h : UnpackedFloat.compare x.toModel.unpack y.toModel.unpack = some o) :
    ∃ z w, HasPosition x.toModel.unpack z ∧ HasPosition y.toModel.unpack w := by
  have left : x.toModel.unpack ≠ .notANumber := by
    intro nan
    rw [nan] at h
    cases h
  have right : y.toModel.unpack ≠ .notANumber := by
    intro nan
    rw [nan, compare_notANumber] at h
    cases h
  obtain ⟨z, hx⟩ := exists_position_of_ne_nan left
  obtain ⟨w, hy⟩ := exists_position_of_ne_nan right
  exact ⟨z, w, hx, hy⟩

theorem le_iff_of_position {z w : Int} (hx : HasPosition x.toModel.unpack z)
    (hy : HasPosition y.toModel.unpack w) : x ≤ y ↔ z ≤ w := by
  rw [le_iff_compare, hx.compare hy, ← compare_le_iff_le]
  cases compare z w <;> simp [Ordering.isLE]

theorem lt_iff_of_position {z w : Int} (hx : HasPosition x.toModel.unpack z)
    (hy : HasPosition y.toModel.unpack w) : x < y ↔ z < w := by
  rw [lt_iff_compare, hx.compare hy, ← compare_lt_iff_lt, Option.some_inj]

theorem isNaN_iff : x.isNaN ↔ x.toModel.unpack = .notANumber := by
  have defined : x.isNaN = x.toModel.unpack.isNaN := rfl
  rw [defined]
  cases x.toModel.unpack <;> simp [UnpackedFloat.isNaN]

theorem exists_position_of_not_isNaN (h : ¬x.isNaN) : ∃ z, HasPosition x.toModel.unpack z :=
  exists_position_of_ne_nan fun nan => h (isNaN_iff.mpr nan)

theorem not_isNaN_of_position {z : Int} (hx : HasPosition x.toModel.unpack z) : ¬x.isNaN := by
  rw [isNaN_iff]
  intro nan
  rw [nan] at hx
  cases hx with
  | finite h => cases h

/-- Doubles that are ordered are numbers, and so have positions. -/
theorem exists_position_of_lt (h : x < y) :
    ∃ z w, HasPosition x.toModel.unpack z ∧ HasPosition y.toModel.unpack w ∧ z < w := by
  obtain ⟨z, w, hx, hy⟩ := exists_position_of_compare (lt_iff_compare.mp h)
  exact ⟨z, w, hx, hy, (lt_iff_of_position hx hy).mp h⟩

theorem not_isNaN_of_le (h : x ≤ y) : ¬x.isNaN ∧ ¬y.isNaN := by
  obtain ⟨o, compared, -⟩ := le_iff_compare.mp h
  obtain ⟨z, w, hx, hy⟩ := exists_position_of_compare compared
  exact ⟨not_isNaN_of_position hx, not_isNaN_of_position hy⟩

theorem lt_of_not_le (hx : ¬x.isNaN) (hy : ¬y.isNaN) (h : ¬x ≤ y) : y < x := by
  obtain ⟨z, hz⟩ := exists_position_of_not_isNaN hx
  obtain ⟨w, hw⟩ := exists_position_of_not_isNaN hy
  rw [le_iff_of_position hz hw] at h
  exact (lt_iff_of_position hw hz).mpr (Int.lt_of_not_ge h)

theorem not_le_of_lt (h : x < y) : ¬y ≤ x := by
  obtain ⟨z, w, hx, hy, below⟩ := exists_position_of_lt h
  rw [le_iff_of_position hy hx]
  omega

instance instTransLt : Trans (fun x y : Float => x < y) (fun x y => x < y) (fun x y => x < y) where
  trans {x y w} first second := by
    obtain ⟨a, b, hx, hy, below⟩ := exists_position_of_lt first
    obtain ⟨-, c, -, hw, -⟩ := exists_position_of_lt second
    have here := (lt_iff_of_position hy hw).mp second
    exact (lt_iff_of_position hx hw).mpr (Int.lt_trans below here)

theorem unpack_of_toBits_eq_zero (h : x.toModel.toBits = 0) :
    x.toModel.unpack = .zero .positive := by
  rw [Float.Model.unpack, h]
  rfl

theorem exists_size_of_factor (factor : IsFactor m) :
    ∃ k, 0 < k ∧ HasSize .positive k m.toModel.unpack := by
  obtain ⟨positive, finite⟩ := factor
  have compared := lt_iff_compare.mp positive
  obtain ⟨-, z, -, hm⟩ := exists_position_of_compare compared
  rw [unpack_of_toBits_eq_zero (by decide +kernel)] at compared
  have bounded : m.toModel.unpack.isFinite := finite
  generalize m.toModel.unpack = y at compared hm bounded ⊢
  cases hm with
  | infinity s => cases bounded
  | @finite s k _ h small =>
    rw [HasSize.zero.compare h] at compared
    have above : 0 < s.apply k := compare_lt_iff_lt.mp (Option.some.inj compared)
    cases s with
    | negative =>
      simp only [Sign.apply] at above
      omega
    | positive => exact ⟨k, Int.natCast_pos.mp above, h⟩

theorem unpack_mul (x y : Float) : (x * y).toModel.unpack = UnpackedFloat.unpack .binary64
    (UnpackedFloat.pack .binary64
      (UnpackedFloat.mul .binary64 x.toModel.unpack y.toModel.unpack)) :=
  rfl

theorem position_mul {z : Int} {k : Nat} (hx : HasPosition x.toModel.unpack z)
    (hm : HasSize .positive k m.toModel.unpack) (positive : 0 < k) :
    HasPosition (x * m).toModel.unpack (scaled k z) := by
  rw [unpack_mul]
  exact hx.mul hm positive

/-- Multiplication with a positive finite double does not change the order of doubles, although it
may make equal what was not. -/
theorem mul_le_mul_of_factor (h : x ≤ y) (factor : IsFactor m) : x * m ≤ y * m := by
  obtain ⟨o, compared, -⟩ := le_iff_compare.mp h
  obtain ⟨z, w, hx, hy⟩ := exists_position_of_compare compared
  obtain ⟨k, positive, hm⟩ := exists_size_of_factor factor
  have ordered := scaled_mono k ((le_iff_of_position hx hy).mp h)
  exact (le_iff_of_position (position_mul hx hm positive) (position_mul hy hm positive)).mpr ordered

end

end FormulaFit

import Mathlib
import FormulaFit.Basis
import FormulaFit.Proofs.BrokenLine

namespace FormulaFit

section

variable {K : Type} [ExactScalar K] {m : K}

/-- A bin with its centre in another unit. -/
def Point.inUnit (m : K) (bin : Point K) : Point K :=
  { bin with x := bin.x * m }

namespace Histogram

variable {h scaled : Histogram K}

theorem line_inUnit (apart : m ≠ 0) (a b : Point K) (x : K) :
    line (a.inUnit m) (b.inUnit m) (m * x) = line a b x := by
  have start : m * x - a.x * m = (x - a.x) * m := by ring
  have width : b.x * m - a.x * m = (b.x - a.x) * m := by ring
  simp only [line, Point.inUnit, start, width, ← mul_assoc, mul_div_mul_right _ _ apart]

theorem upperIndex_inUnit (positive : 0 < m) (bins : scaled.bins = h.bins.map (Point.inUnit m))
    (x : K) : scaled.upperIndex (m * x) = h.upperIndex x := by
  have same (bin : Point K) : (bin.inUnit m).x ≤ m * x ↔ bin.x ≤ x := by
    rw [Point.inUnit, mul_comm m, mul_le_mul_iff_left₀ positive]
  rw [upperIndex, upperIndex, bins, List.takeWhile_map, List.length_map]
  simp only [Function.comp_def, same]

theorem bracket?_inUnit (positive : 0 < m) (bins : scaled.bins = h.bins.map (Point.inUnit m))
    (x : K) :
    scaled.bracket? (m * x) = (h.bracket? x).map fun (a, b) => (a.inUnit m, b.inUnit m) := by
  simp only [bracket?, upperIndex_inUnit positive bins, bins, List.getElem?_map]
  cases h.upperIndex x with
  | zero => rfl
  | succ i =>
    dsimp only
    cases h.bins[i]? with
    | none => rfl
    | some a => cases h.bins[i + 1]? <;> rfl

/-- The search finds the same neighbours in the new unit, and on the line through them the unit
cancels. -/
theorem interpolate?_inUnit (positive : 0 < m) (bins : scaled.bins = h.bins.map (Point.inUnit m))
    (x : K) : scaled.interpolate? (m * x) = h.interpolate? x := by
  have first : scaled.first = h.first.inUnit m := by simp only [first, bins, List.head_map]
  have last : scaled.last = h.last.inUnit m := by simp only [last, bins, List.getLast_map]
  have low : m * x ≤ (h.first.inUnit m).x ↔ x ≤ h.first.x := by
    rw [Point.inUnit, mul_comm m, mul_le_mul_iff_left₀ positive]
  have high : (h.last.inUnit m).x ≤ m * x ↔ h.last.x ≤ x := by
    rw [Point.inUnit, mul_comm m, mul_le_mul_iff_left₀ positive]
  simp only [interpolate?, if_neg (not_isNaN _), first, last, low, high,
    bracket?_inUnit positive bins, Option.map_map, Function.comp_def,
    line_inUnit positive.ne']
  rfl

theorem changeUnits_eq_ok (positive : 0 < m) : ∃ scaled, h.changeUnits m = .ok scaled ∧
    scaled.bins = h.bins.map (Point.inUnit m) := by
  refine ⟨⟨h.bins.map (Point.inUnit m), by simpa using h.nonempty⟩, ?_, rfl⟩
  exact changeUnits_eq_ok_iff.mpr ⟨⟨positive, isFinite m⟩, rfl⟩

/-- One change of units after the other is the change by the product. -/
theorem changeUnits_mul {a b : K} (first : 0 < a) (second : 0 < b) (h : Histogram K) :
    (h.changeUnits a >>= fun scaled => scaled.changeUnits b) = h.changeUnits (a * b) := by
  obtain ⟨once, made, bins⟩ := changeUnits_eq_ok (h := h) first
  have twice : once.changeUnits b = h.changeUnits (a * b) := by
    obtain ⟨next, made', bins'⟩ := changeUnits_eq_ok (h := h) (mul_pos first second)
    rw [made', changeUnits_eq_ok_iff]
    refine ⟨⟨second, isFinite b⟩, ?_⟩
    rw [bins', bins, List.map_map]
    simp only [Function.comp_def, Point.inUnit, mul_assoc]
    rfl
  rw [made, ← twice]
  rfl

/-- What a change of units makes of a histogram: the same contents and errors at centres in the new
unit, and the same curve over the abscissa in the new unit, also as a term of any size. -/
structure InUnits (h : Histogram K) (m : K) (scaled : Histogram K) : Prop where
  centres : scaled.centres = h.centres.map (m * ·)
  contents : scaled.bins.map Point.y = h.bins.map Point.y
  errors : scaled.bins.map Point.error = h.bins.map Point.error
  ordered : scaled.centres.IsChain (· < ·)
  interpolates : ∀ x, ∃ v, h.interpolate? x = some v ∧ scaled.interpolate? (m * x) = some v
  template : ∀ x norm, ∃ v, (Basis.template h).value? x [norm] = some v ∧
    (Basis.template scaled).value? (m * x) [norm] = some v

theorem inUnits_of_bins (ordered : h.centres.IsChain (· < ·)) (positive : 0 < m)
    (bins : scaled.bins = h.bins.map (Point.inUnit m)) : h.InUnits m scaled := by
  have centres : scaled.centres = h.centres.map (m * ·) := by
    rw [Histogram.centres, Histogram.centres, bins, List.map_map, List.map_map]
    exact List.map_congr_left fun bin _ => mul_comm bin.x m
  have value (x : K) :
      ∃ v, h.interpolate? x = some v ∧ scaled.interpolate? (m * x) = some v := by
    obtain ⟨v, here⟩ := exists_interpolate? ordered x
    exact ⟨v, here, (interpolate?_inUnit positive bins x).trans here⟩
  refine ⟨centres, ?_, ?_, ?_, value, fun x norm => ?_⟩
  · rw [bins, List.map_map]
    rfl
  · rw [bins, List.map_map]
    rfl
  · rw [centres, List.isChain_map]
    exact ordered.imp fun _ _ below => mul_lt_mul_of_pos_left below positive
  · obtain ⟨v, here, there⟩ := value x
    exact ⟨norm * v, by rw [Basis.value?, here]; rfl, by rw [Basis.value?, there]; rfl⟩

/-- With exact arithmetic, changes of units commute with interpolation and with each other. -/
theorem changeUnits_interpolates (ordered : h.centres.IsChain (· < ·)) :
    (∀ m, 0 < m → ∃ scaled, h.changeUnits m = .ok scaled ∧ h.InUnits m scaled) ∧
      ∀ a b, 0 < a → 0 < b →
        (h.changeUnits a >>= fun scaled => scaled.changeUnits b) = h.changeUnits (a * b) := by
  refine ⟨fun m positive => ?_, fun a b first second => changeUnits_mul first second h⟩
  obtain ⟨scaled, made, bins⟩ := changeUnits_eq_ok (h := h) positive
  exact ⟨scaled, made, inUnits_of_bins ordered positive bins⟩

end Histogram

end

namespace Histogram

/-- Thousandths, and a template of half the size in them. -/
theorem changeUnits_interpolates_rising :
    letI := ExactScalar.rational id id 3
    rising.centres.IsChain (· < ·) ∧ ∃ scaled, rising.changeUnits 1000 = .ok scaled ∧
      rising.InUnits 1000 scaled ∧ (Basis.template scaled).value? 2000 [1 / 2] = some (13 / 4) := by
  let _ := ExactScalar.rational id id 3
  have ordered : rising.centres.IsChain (· < ·) := by simp [rising, centres]
  obtain ⟨scaled, made, same⟩ := (changeUnits_interpolates ordered).1 1000 (by norm_num)
  obtain ⟨v, here, there⟩ := same.template 2 (1 / 2)
  have unscaled : (Basis.template rising).value? 2 [1 / 2] = some (13 / 4) := by decide +kernel
  rw [unscaled] at here
  cases here
  have product : (1000 : ℚ) * 2 = 2000 := by norm_num
  rw [product] at there
  exact ⟨ordered, scaled, made, same, there⟩

end Histogram

end FormulaFit

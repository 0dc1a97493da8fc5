import Mathlib
import FormulaFit.Basis
import FormulaFit.Proofs.Dawson

namespace FormulaFit

section

variable {K : Type} [ExactScalar K]

namespace Amplitude

/-- The complex conjugate. -/
def conj (f : Amplitude K) : Amplitude K :=
  ⟨f.re, -f.im⟩

theorem normSquared_conj (f : Amplitude K) : f.conj.normSquared = f.normSquared := by
  rw [normSquared, normSquared, conj, neg_mul_neg]

theorem inverse_conj (f : Amplitude K) : f.conj.inverse = f.inverse.conj := by
  rw [inverse, normSquared_conj, inverse]
  simp only [conj, neg_div]

theorem add_conj (f g : Amplitude K) : f.conj.add g.conj = (f.add g).conj := by
  simp only [add, conj, neg_add]

end Amplitude

/-- Reversing the momentum conjugates the amplitude. -/
theorem Lednicky.scattering_neg (k : K) (f0 : Amplitude K) (d0 : K) :
    scattering (-k) f0.conj d0 = (scattering k f0 d0).conj := by
  have range : (⟨0.5 * d0 * -k * -k, - -k⟩ : Amplitude K) =
      Amplitude.conj ⟨0.5 * d0 * k * k, -k⟩ := by
    simp only [Amplitude.conj, mul_neg, neg_mul, neg_neg]
  rw [scattering, range, Amplitude.inverse_conj, Amplitude.add_conj, Amplitude.inverse_conj,
    scattering]

variable [SignedScalar K]

namespace Lednicky

theorem f1_neg (z : K) : f1 (-z) = f1 z := by
  rcases eq_or_ne z 0 with rfl | apart
  · rw [neg_zero]
  · rw [f1, f1, scalarAbs_neg, dawson_neg_of_ne_zero apart, neg_div_neg_eq]

variable (zero : Scalar.decimal 0 (-1) = (0 : K))

include zero

theorem f2_neg (z : K) : f2 (-z) = -f2 z := by
  rw [f2, f2, scalarAbs_neg]
  split
  next =>
    change Scalar.decimal 0 (-1) = -Scalar.decimal 0 (-1)
    rw [zero, neg_zero]
  next => rw [neg_neg, mul_neg, neg_mul, div_neg]

/-- The conjugation and the odd source integral each change the sign of the last term. -/
theorem correlation_neg (k : K) (f0 : Amplitude K) (d0 r : K) :
    correlation (-k) f0.conj d0 r = correlation k f0 d0 r := by
  have phase : 2.0 * -k * r = -(2.0 * k * r) := by rw [mul_neg, neg_mul]
  simp only [correlation, scattering_neg, Amplitude.normSquared_conj, phase, f1_neg, f2_neg zero]
  simp only [Amplitude.conj, neg_div, neg_mul_neg]

end Lednicky

theorem lednicky_neg (zero : Scalar.decimal 0 (-1) = (0 : K)) (x : K) (f0 : Amplitude K)
    (d0 r1 r2 w norm : K) :
    lednicky (-x) f0.conj d0 r1 r2 w norm = lednicky x f0 d0 r1 r2 w norm := by
  simp only [lednicky, neg_div, Lednicky.correlation_neg zero]

/-- With exact arithmetic, Dawson's integral is odd, and the correlation at a real scattering length
does not depend on the direction of the momentum. Of the numerals it is only used that zero is zero
and that the series is taken at the origin. -/
theorem momentum_reversal (zero : Scalar.decimal 0 (-1) = (0 : K))
    (cutoff : 0 < (Scalar.decimal 2 (-1) : K)) :
    (∀ x : K, dawson (-x) = -dawson x) ∧ ∀ x re d0 r1 r2 w norm : K,
      lednicky (-x) ⟨re, 0⟩ d0 r1 r2 w norm = lednicky x ⟨re, 0⟩ d0 r1 r2 w norm := by
  refine ⟨dawson_neg cutoff, fun x re d0 r1 r2 w norm => ?_⟩
  have real : Amplitude.conj ⟨re, 0⟩ = (⟨re, 0⟩ : Amplitude K) := by
    rw [Amplitude.conj, neg_zero]
  calc lednicky (-x) ⟨re, 0⟩ d0 r1 r2 w norm
      = lednicky (-x) (Amplitude.conj ⟨re, 0⟩) d0 r1 r2 w norm := by rw [real]
    _ = lednicky x ⟨re, 0⟩ d0 r1 r2 w norm := lednicky_neg zero x ⟨re, 0⟩ d0 r1 r2 w norm

end

/-- Two radii and a real scattering length; at one with an imaginary part the direction counts. -/
theorem momentum_reversal_repulsive :
    letI := ExactScalar.rational id (fun t => 1 + t) 3
    Scalar.decimal 0 (-1) = (0 : ℚ) ∧ 0 < (Scalar.decimal 2 (-1) : ℚ) ∧
      dawson (-1 / 10 : ℚ) = -dawson (1 / 10) ∧ dawson (-3 : ℚ) = -dawson 3 ∧ dawson (3 : ℚ) ≠ 0 ∧
      lednicky (-1 / 10 : ℚ) ⟨-4 / 5, 0⟩ 1 (3 / 2) 3 (3 / 10) 1 =
        lednicky (1 / 10) ⟨-4 / 5, 0⟩ 1 (3 / 2) 3 (3 / 10) 1 ∧
      lednicky (-1 / 10 : ℚ) ⟨-4 / 5, 3 / 5⟩ 1 (3 / 2) 3 (3 / 10) 1 ≠
        lednicky (1 / 10) ⟨-4 / 5, 3 / 5⟩ 1 (3 / 2) 3 (3 / 10) 1 := by
  let _ := ExactScalar.rational id (fun t => 1 + t) 3
  have := DecimalScalar.rational id (fun t => 1 + t) 3
  have zero : Scalar.decimal 0 (-1) = (0 : ℚ) := by decide +kernel
  have cutoff : 0 < (Scalar.decimal 2 (-1) : ℚ) := by decide +kernel
  obtain ⟨odd, even⟩ := momentum_reversal zero cutoff
  have tenth := odd (1 / 10 : ℚ)
  have value := even (1 / 10 : ℚ) (-4 / 5) 1 (3 / 2) 3 (3 / 10) 1
  rw [← neg_div] at tenth value
  exact ⟨zero, cutoff, tenth, odd 3, by decide +kernel, value, by decide +kernel⟩

end FormulaFit

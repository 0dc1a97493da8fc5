import Mathlib
import FormulaFit.Basis

namespace FormulaFit

variable {R : Type} [CommRing R] (x : R)

theorem horner_nil : horner x [] = 0 :=
  rfl

theorem horner_cons (c : R) (p : List R) : horner x (c :: p) = horner x p * x + c :=
  rfl

/-- The constant term comes first, and a factor `x` goes into the powers of all the others. -/
theorem horner_eq_sum (p : List R) : horner x p = ∑ i : Fin p.length, p[i] * x ^ (i : ℕ) := by
  induction p with
  | nil => rfl
  | cons c p ih =>
    have first := Fin.sum_univ_succ fun i : Fin (p.length + 1) => (c :: p)[i] * x ^ (i : ℕ)
    calc horner x (c :: p) = (∑ i : Fin p.length, p[i] * x ^ (i : ℕ)) * x + c := by
          rw [horner_cons, ih]
      _ = c * x ^ 0 + ∑ i : Fin p.length, p[i] * x ^ (i + 1 : ℕ) := by
          simp only [Finset.sum_mul, pow_succ, pow_zero, mul_one, mul_assoc, add_comm]
      _ = ∑ i : Fin (c :: p).length, (c :: p)[i] * x ^ (i : ℕ) := first.symm

/-- The sum of two lists of coefficients, the shorter one continued by zeros. -/
def addCoefficients (p q : List R) : List R :=
  List.zipWithAll (fun a b => a.getD 0 + b.getD 0) p q

theorem addCoefficients_nil_left (q : List R) : addCoefficients [] q = q := by
  simp [addCoefficients, List.zipWithAll]

theorem addCoefficients_nil_right (p : List R) : addCoefficients p [] = p := by
  cases p <;> simp [addCoefficients, List.zipWithAll]

theorem addCoefficients_cons (a b : R) (p q : List R) :
    addCoefficients (a :: p) (b :: q) = (a + b) :: addCoefficients p q :=
  rfl

theorem horner_addCoefficients (p q : List R) :
    horner x (addCoefficients p q) = horner x p + horner x q := by
  induction p generalizing q with
  | nil => rw [addCoefficients_nil_left, horner_nil, zero_add]
  | cons a p ih =>
    cases q with
    | nil => rw [addCoefficients_nil_right, horner_nil, add_zero]
    | cons b q =>
      rw [addCoefficients_cons, horner_cons, horner_cons, horner_cons, ih]
      ring

theorem horner_map_mul (c : R) (p : List R) : horner x (p.map (c * ·)) = c * horner x p := by
  induction p with
  | nil => rw [List.map_nil, horner_nil, mul_zero]
  | cons a p ih =>
    rw [List.map_cons, horner_cons, horner_cons, ih]
    ring

/-- Horner's rule gives the value of the polynomial with the listed coefficients, of which the first
is the value at zero, and it is linear in them. -/
theorem horner_value (p : List R) :
    horner x p = ∑ i : Fin p.length, p[i] * x ^ (i : ℕ) ∧ (∀ c, horner 0 (c :: p) = c) ∧
      (∀ q, horner x (addCoefficients p q) = horner x p + horner x q) ∧
      ∀ c, horner x (p.map (c * ·)) = c * horner x p := by
  refine ⟨horner_eq_sum x p, fun c => ?_, horner_addCoefficients x p, fun c => ?_⟩
  · rw [horner_cons, mul_zero, zero_add]
  · exact horner_map_mul x c p

example : horner (2 : ℤ) [1, 2, 3] = 17 := rfl

end FormulaFit

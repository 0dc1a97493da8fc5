import FormulaFit.Basis.Dawson

namespace FormulaFit

/-- A complex number. -/
structure Amplitude (α : Type) where
  re : α
  im : α

namespace Amplitude

variable {α : Type} [Scalar α]

def normSquared (f : Amplitude α) : α :=
  f.re * f.re + f.im * f.im

def inverse (f : Amplitude α) : Amplitude α :=
  ⟨f.re / f.normSquared, -f.im / f.normSquared⟩

def add (f g : Amplitude α) : Amplitude α :=
  ⟨f.re + g.re, f.im + g.im⟩

end Amplitude

namespace Lednicky

variable {α : Type} [Scalar α]

/-- The real part of the source integral, one at the origin. -/
def f1 (z : α) : α :=
  if Scalar.abs z < 1e-8 then 1.0 else dawson z / z

/-- The imaginary part of the source integral, zero at the origin. -/
def f2 (z : α) : α :=
  if Scalar.abs z < 1e-8 then 0.0 else (1.0 - Scalar.exp (-z * z)) / z

/-- The scattering amplitude at wave number `k` in the effective-range expansion. -/
def scattering (k : α) (f0 : Amplitude α) (d0 : α) : Amplitude α :=
  (f0.inverse.add ⟨0.5 * d0 * k * k, -k⟩).inverse

/-- The correlation for a source of radius `r`, with the wave number `k` in fm⁻¹. -/
def correlation (k : α) (f0 : Amplitude α) (d0 r : α) : α :=
  let f := scattering k f0 d0
  let z := 2.0 * k * r
  let rootPi := Scalar.sqrt (Scalar.pi : α)
  1.0 + 0.5 * f.normSquared / (r * r) * (1.0 - d0 / (2.0 * rootPi * r)) +
    2.0 * f.re / (rootPi * r) * f1 z - f.im / r * f2 z

/-- ħc in GeV fm. -/
def hbarc : α := 0.197326980

end Lednicky

/-- Lednicky–Lyuboshitz correlation of two source radii with weights `w` and `1 - w`, at relative
momentum `x` in GeV. -/
def lednicky {α : Type} [Scalar α] (x : α) (f0 : Amplitude α) (d0 r1 r2 w norm : α) : α :=
  let k := x / Lednicky.hbarc
  norm * (w * Lednicky.correlation k f0 d0 r1 + (1.0 - w) * Lednicky.correlation k f0 d0 r2)

end FormulaFit

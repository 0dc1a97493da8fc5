import FormulaFit.Fit
import Mathlib.Data.List.Forall2

namespace FormulaFit

theorem exists_of_bind_eq_ok {ε β γ : Type} {x : Except ε β} {f : β → Except ε γ} {c : γ}
    (h : x >>= f = .ok c) : ∃ b, x = .ok b ∧ f b = .ok c := by
  cases x with
  | error e => cases h
  | ok b => exact ⟨b, rfl, h⟩

theorem eq_error_of_bind {ε β γ : Type} {x : Except ε β} {f : β → Except ε γ} {e : ε}
    (h : x >>= f = .error e) : x = .error e ∨ ∃ b, x = .ok b ∧ f b = .error e := by
  cases x with
  | error e' =>
    cases h
    exact Or.inl rfl
  | ok b => exact Or.inr ⟨b, rfl, h⟩

theorem bind_eq_ok_iff {ε β γ : Type} {x : Except ε β} {f : β → Except ε γ} {c : γ} :
    x >>= f = .ok c ↔ ∃ b, x = .ok b ∧ f b = .ok c := by
  refine ⟨exists_of_bind_eq_ok, ?_⟩
  rintro ⟨b, rfl, h⟩
  exact h

theorem bind_eq_error_iff {ε β γ : Type} {x : Except ε β} {f : β → Except ε γ} {e : ε} :
    x >>= f = .error e ↔ x = .error e ∨ ∃ b, x = .ok b ∧ f b = .error e := by
  refine ⟨eq_error_of_bind, ?_⟩
  rintro (rfl | ⟨b, rfl, h⟩)
  · rfl
  · exact h

theorem eq_ok_of_mapError_eq_ok {ε ε' β : Type} {x : Except ε β} {f : ε → ε'} {b : β}
    (h : x.mapError f = .ok b) : x = .ok b := by
  cases x with
  | error e => cases h
  | ok b' => cases h; rfl

theorem exists_of_mapError_eq_error {ε ε' β : Type} {x : Except ε β} {f : ε → ε'} {e : ε'}
    (h : x.mapError f = .error e) : ∃ e', x = .error e' ∧ e = f e' := by
  cases x with
  | error e' => exact ⟨e', rfl, (Except.error.inj h).symm⟩
  | ok b => cases h

section

variable {ε β γ δ : Type} {f : β → Except ε γ} {xs : List β}

theorem mapM_cons_eq (f : β → Except ε γ) (x : β) (xs : List β) :
    (x :: xs).mapM f =
      match f x with
      | .ok y => (xs.mapM f).map (y :: ·)
      | .error e => .error e := by
  rw [List.mapM_cons]
  cases f x with
  | error e => rfl
  | ok y => cases xs.mapM f <;> rfl

theorem mapM_eq_ok_iff {ys : List γ} :
    xs.mapM f = .ok ys ↔ List.Forall₂ (fun x y => f x = .ok y) xs ys := by
  induction xs generalizing ys with
  | nil => cases ys <;> simp [pure, Except.pure]
  | cons x xs ih =>
    rw [mapM_cons_eq]
    cases hx : f x with
    | error e => cases ys <;> simp [hx]
    | ok y =>
      cases hxs : xs.mapM f with
      | error e => cases ys <;> simp [← ih, hx, hxs, Except.map]
      | ok rest => cases ys <;> simp [← ih, hx, hxs, Except.map]

theorem forall_of_mapM_eq_ok {ys : List γ} {p : γ → Prop} (h : xs.mapM f = .ok ys)
    (each : ∀ x y, f x = .ok y → p y) : ∀ y ∈ ys, p y := by
  rw [mapM_eq_ok_iff] at h
  induction h with
  | nil => exact List.forall_mem_nil p
  | cons here _ ih => exact List.forall_mem_cons.mpr ⟨each _ _ here, ih⟩

/-- The first element that fails decides. -/
theorem mapM_eq_error_iff {e : ε} :
    xs.mapM f = .error e ↔ ∃ before x after, xs = before ++ x :: after ∧
      (∀ y ∈ before, ∃ v, f y = .ok v) ∧ f x = .error e := by
  constructor
  · intro failed
    induction xs with
    | nil => cases failed
    | cons x xs ih =>
      rw [mapM_cons_eq] at failed
      cases hx : f x with
      | error e' =>
        rw [hx] at failed
        cases failed
        exact ⟨[], x, xs, rfl, by simp, hx⟩
      | ok y =>
        rw [hx] at failed
        cases hxs : xs.mapM f with
        | ok ys => simp [hxs, Except.map] at failed
        | error e' =>
          have same : e' = e := by simpa [hxs, Except.map] using failed
          obtain ⟨before, z, after, rfl, passed, hz⟩ := ih (same ▸ hxs)
          exact ⟨x :: before, z, after, rfl, List.forall_mem_cons.mpr ⟨⟨y, hx⟩, passed⟩, hz⟩
  · rintro ⟨before, x, after, rfl, passed, hx⟩
    induction before with
    | nil => rw [List.nil_append, mapM_cons_eq, hx]
    | cons z before ih =>
      obtain ⟨⟨v, hv⟩, passed⟩ := List.forall_mem_cons.mp passed
      rw [List.cons_append, mapM_cons_eq, hv, ih passed]
      rfl

theorem exists_mapM_eq_ok_iff :
    (∃ ys, xs.mapM f = .ok ys) ↔ ∀ x ∈ xs, ∃ y, f x = .ok y := by
  induction xs with
  | nil => simp [pure, Except.pure]
  | cons x xs ih =>
    rw [mapM_cons_eq, List.forall_mem_cons, ← ih]
    cases f x with
    | error e => simp
    | ok y => cases xs.mapM f <;> simp [Except.map]

/-- What is computed from each result can be computed after all of them. -/
theorem mapM_map_eq (f : β → Except ε γ) (g : β → γ → δ) (xs : List β) :
    (xs.mapM fun x => (f x).map (g x)) = (xs.mapM f).map (List.zipWith g xs) := by
  induction xs with
  | nil => rfl
  | cons x xs ih =>
    rw [mapM_cons_eq, mapM_cons_eq, ih]
    cases f x with
    | error e => rfl
    | ok y => cases xs.mapM f <;> rfl

theorem foldlM_map_eq (f : β → Except ε γ) (g : δ → β → γ → δ) (xs : List β) (start : δ) :
    (xs.foldlM (fun s x => (f x).map (g s x)) start) =
      (xs.mapM f).map fun ys => (xs.zip ys).foldl (fun s p => g s p.1 p.2) start := by
  induction xs generalizing start with
  | nil => rfl
  | cons x xs ih =>
    rw [List.foldlM_cons, mapM_cons_eq]
    cases f x with
    | error e => rfl
    | ok y =>
      have rest := ih (g start x y)
      cases hxs : xs.mapM f with
      | error e =>
        rw [hxs] at rest
        exact rest
      | ok ys =>
        rw [hxs] at rest
        exact rest

end

theorem length_foldl_set {β : Type} (entries : List (Nat × β)) (xs : List β) :
    (entries.foldl (fun xs (i, v) => xs.set i v) xs).length = xs.length := by
  induction entries generalizing xs with
  | nil => rfl
  | cons entry entries ih => rw [List.foldl_cons, ih, List.length_set]

namespace Objective

variable {α : Type}

theorem length_write (o : Objective α) (params trial : List α) :
    (o.write params trial).length = params.length :=
  length_foldl_set _ params

theorem length_expand (o : Objective α) (trial : List α) :
    (o.expand trial).length = o.base.length :=
  o.length_write o.base trial

end Objective

variable {α : Type} [Scalar α]

theorem length_fitObjective_base (program : Program α) (params : List (ParamSpec α))
    (points : List (Point α)) (options : FitOptions α) :
    (fitObjective program params points options).base.length = params.length :=
  List.length_map _

theorem getElem?_fitObjective_base (program : Program α) {params : List (ParamSpec α)}
    (points : List (Point α)) (options : FitOptions α) {i : Nat} {p : ParamSpec α}
    (here : params[i]? = some p) :
    (fitObjective program params points options).base[i]? = some p.initial := by
  rw [fitObjective, List.getElem?_map, here]
  rfl

/-- What a successful fit has checked, where its search ended, and what it is made of. -/
theorem exists_minimum_of_fitPoints {minimize : Minimizer α} {program : Program α}
    {params : List (ParamSpec α)} {points : List (Point α)} {options : FitOptions α} {fit : Fit α}
    (h : fitPoints minimize program params points options = .ok fit) :
    params.length = program.paramsLength ∧ program.verify = .ok () ∧
      preparePoints options points ≠ [] ∧
      ∃ (objective : Objective α) (problem : Problem α) (found : Minimum α) (chi2 : α),
        objective = fitObjective program params points options ∧
        problem = {
          count := (preparePoints options points).length
          residuals := fun trial => (objective.call objective.base trial).1
          start := (params.filter ParamSpec.isFree).map ParamSpec.initial
          limits := (params.filter ParamSpec.isFree).map fun p => ⟨p.lower, p.upper⟩ } ∧
        minimizeAgain minimize problem
          (if (freeIndices params).isEmpty then 0 else if options.improve then 2 else 1)
          ⟨problem.start, problem.start.map fun _ => 0⟩ = .ok found ∧
        objective.chi2 (objective.expand found.values) = .ok chi2 ∧
        fit = {
          names := params.map ParamSpec.name
          values := objective.expand found.values
          errors := objective.write (params.map fun _ => 0) found.errors
          fixed := params.map fun p => !p.isFree
          count := (preparePoints options points).length
          chi2
          ndf := (preparePoints options points).length - (freeIndices params).length } := by
  unfold fitPoints at h
  by_cases count : params.length = program.paramsLength
  · rw [if_neg (not_not_intro count)] at h
    obtain ⟨⟨⟩, verified, h⟩ := exists_of_bind_eq_ok h
    refine ⟨count, eq_ok_of_mapError_eq_ok verified, ?_⟩
    by_cases none : (fitObjective program params points options).points.isEmpty = true
    · rw [if_pos none] at h
      cases h
    · rw [if_neg none] at h
      obtain ⟨found, searched, h⟩ := exists_of_bind_eq_ok h
      obtain ⟨chi2, summed, h⟩ := exists_of_bind_eq_ok h
      refine ⟨fun empty => none (List.isEmpty_iff.mpr empty), _, _, found, chi2, rfl, rfl,
        eq_ok_of_mapError_eq_ok searched, eq_ok_of_mapError_eq_ok summed, ?_⟩
      exact (Except.ok.inj h).symm
  · rw [if_pos count] at h
    cases h

/-- What a successful fit has checked, and what it is made of. -/
theorem fitPoints_eq_ok {minimize : Minimizer α} {program : Program α}
    {params : List (ParamSpec α)} {points : List (Point α)} {options : FitOptions α} {fit : Fit α}
    (h : fitPoints minimize program params points options = .ok fit) :
    params.length = program.paramsLength ∧ program.verify = .ok () ∧
      preparePoints options points ≠ [] ∧
      ∃ (objective : Objective α) (found : Minimum α) (chi2 : α),
        objective = fitObjective program params points options ∧
        objective.chi2 (objective.expand found.values) = .ok chi2 ∧
        fit = {
          names := params.map ParamSpec.name
          values := objective.expand found.values
          errors := objective.write (params.map fun _ => 0) found.errors
          fixed := params.map fun p => !p.isFree
          count := (preparePoints options points).length
          chi2
          ndf := (preparePoints options points).length - (freeIndices params).length } := by
  obtain ⟨count, verified, some, objective, -, found, chi2, here, -, -, summed, made⟩ :=
    exists_minimum_of_fitPoints h
  exact ⟨count, verified, some, objective, found, chi2, here, summed, made⟩

end FormulaFit

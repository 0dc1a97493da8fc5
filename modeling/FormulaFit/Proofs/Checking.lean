import FormulaFit.Component
import FormulaFit.Proofs.Fitting
import FormulaFit.Proofs.Safety

namespace FormulaFit

variable {α : Type} [Scalar α]

/-- Verification decides every evaluation with enough parameters, unless it comes to a template
without a value. -/
structure Program.Decided (p : Program α) : Prop where
  value : ∀ params x, p.paramsLength ≤ params.length →
    ((∃ v, p.evaluate params x = .ok v) ↔ p.verify = .ok () ∧ p.DefinedAt x)
  error : ∀ params x e, p.paramsLength ≤ params.length → (p.evaluate params x = .error e ↔
    (p.verify = .error e ∧ p.DefinedAt x) ∨ (e = .outOfBounds ∧ ¬p.DefinedAt x))

theorem Program.Contained.decided {p : Program α} (inside : p.Contained) : p.Decided := by
  refine ⟨?_, ?_⟩
  · intro params x enough
    by_cases defined : p.DefinedAt x
    · rw [verify_eq_map_evaluate inside enough defined]
      cases p.evaluate params x <;> simp [Except.map, defined]
    · simp [evaluate_of_not_definedAt inside enough defined, defined]
  · intro params x e enough
    by_cases defined : p.DefinedAt x
    · rw [verify_eq_map_evaluate inside enough defined]
      cases p.evaluate params x <;> simp [Except.map, defined]
    · simp [evaluate_of_not_definedAt inside enough defined, defined, eq_comm]

namespace Objective

variable {o : Objective α} {params : List α}

/-- The program's values at all points. -/
def values (o : Objective α) (params : List α) : Except EvalError (List α) :=
  o.points.mapM fun p => o.program.evaluate params p.x

theorem deviations_eq (o : Objective α) (params : List α) :
    o.deviations params = (o.values params).map (List.zipWith (fun p v =>
      if Scalar.isFinite v then (p.y - v) / p.error else 1e13) o.points) := by
  have each : o.deviation params = fun p => (o.program.evaluate params p.x).map fun v =>
      if Scalar.isFinite v then (p.y - v) / p.error else 1e13 := by
    funext p
    rw [deviation]
    cases o.program.evaluate params p.x <;> rfl
  rw [deviations, each]
  exact mapM_map_eq _ _ o.points

theorem chi2_eq (o : Objective α) (params : List α) :
    o.chi2 params = (o.values params).map fun vs => (o.points.zip vs).foldl
      (fun sum (p, v) => sum + (p.y - v) / p.error * ((p.y - v) / p.error)) 0 := by
  have each (sum : α) (p : Point α) :
      (do
        let v ← o.program.evaluate params p.x
        let r := (p.y - v) / p.error
        return sum + r * r) = (o.program.evaluate params p.x).map fun v =>
          sum + (p.y - v) / p.error * ((p.y - v) / p.error) := by
    cases o.program.evaluate params p.x <;> rfl
  simp only [chi2, each]
  exact foldlM_map_eq _ _ o.points 0

/-- The vector as calls one after another leave it behind. -/
def scratch (o : Objective α) (trials : List (List α)) : List α :=
  trials.foldl (fun params trial => (o.call params trial).2) o.base

theorem length_scratch (o : Objective α) (trials : List (List α)) :
    (o.scratch trials).length = o.base.length := by
  unfold scratch
  generalize o.base = params
  induction trials generalizing params with
  | nil => rfl
  | cons trial trials ih =>
    rw [List.foldl_cons, ih]
    exact o.length_write params trial

theorem outcome_of_values {β : Type} (inside : o.program.Contained)
    (enough : o.program.paramsLength ≤ params.length) (verified : o.program.verify = .ok ())
    (f : List α → β) :
    ((∃ y, (o.values params).map f = .ok y) ↔ ∀ p ∈ o.points, o.program.DefinedAt p.x) ∧
      ∀ e, (o.values params).map f = .error e → e = .outOfBounds := by
  have values_iff : (∃ vs, o.values params = .ok vs) ↔
      ∀ p ∈ o.points, o.program.DefinedAt p.x := by
    rw [values, exists_mapM_eq_ok_iff]
    exact forall₂_congr fun p _ => Program.exists_evaluate_iff inside enough verified
  cases hvs : o.values params with
  | ok vs =>
    rw [hvs] at values_iff
    simpa [Except.map] using values_iff
  | error e =>
    obtain ⟨before, p, after, -, -, hp⟩ := mapM_eq_error_iff.mp hvs
    have stopped := Program.eq_outOfBounds_of_evaluate inside enough verified hp
    rw [hvs] at values_iff
    simpa [Except.map, stopped] using values_iff

/-- Whatever was tried before, evaluating the objective succeeds, unless a template has no value at
one of the points. -/
structure Reliable (o : Objective α) : Prop where
  free : ∀ i ∈ o.free, i < o.base.length
  call : ∀ trials trial, (∃ residuals, (o.call (o.scratch trials) trial).1 = .ok residuals) ↔
    ∀ p ∈ o.points, o.program.DefinedAt p.x
  call_error : ∀ trials trial e, (o.call (o.scratch trials) trial).1 = .error e →
    e = .outOfBounds
  chi2 : ∀ trial, (∃ sum, o.chi2 (o.expand trial) = .ok sum) ↔
    ∀ p ∈ o.points, o.program.DefinedAt p.x
  chi2_error : ∀ trial e, o.chi2 (o.expand trial) = .error e → e = .outOfBounds

theorem reliable (inside : o.program.Contained) (count : o.base.length = o.program.paramsLength)
    (verified : o.program.verify = .ok ()) : o.Reliable := by
  -- Writing keeps the length of a vector, so that every evaluation has enough parameters.
  have called (trials : List (List α)) (trial : List α) := by
    have enough : o.program.paramsLength ≤ (o.write (o.scratch trials) trial).length := by
      rw [length_write, length_scratch, count]
    exact outcome_of_values inside enough verified (List.zipWith (fun p v =>
      if Scalar.isFinite v then (p.y - v) / p.error else 1e13) o.points)
  have summed (trial : List α) := by
    have enough : o.program.paramsLength ≤ (o.expand trial).length := by
      rw [length_expand, count]
    exact outcome_of_values inside enough verified fun vs => (o.points.zip vs).foldl
      (fun sum (p, v) => sum + (p.y - v) / p.error * ((p.y - v) / p.error)) 0
  refine ⟨o.inside, ?_, ?_, ?_, ?_⟩
  · intro trials trial
    rw [call, deviations_eq]
    exact (called trials trial).1
  · intro trials trial
    rw [call, deviations_eq]
    exact (called trials trial).2
  · intro trial
    rw [chi2_eq]
    exact (summed trial).1
  · intro trial
    rw [chi2_eq]
    exact (summed trial).2

end Objective

section

variable {minimize : Minimizer α} {program : Program α} {params : List (ParamSpec α)}
  {points : List (Point α)} {options : FitOptions α}

theorem fitObjective_reliable (inside : program.Contained)
    (count : params.length = program.paramsLength) (verified : program.verify = .ok ()) :
    (fitObjective program params points options).Reliable := by
  have base : (fitObjective program params points options).base.length = program.paramsLength := by
    rw [length_fitObjective_base, count]
  exact Objective.reliable inside base verified

/-- After its checks a fit fails for want of points, in the minimizer or in its last evaluation. -/
theorem fitPoints_eq_error (count : params.length = program.paramsLength)
    (verified : program.verify = .ok ()) {e : FitError}
    (failed : fitPoints minimize program params points options = .error e) :
    e = .noPoints ∨ (∃ e', e = .minimizer e') ∨
      ∃ trial e', e = .model (.evaluation e') ∧
        (fitObjective program params points options).chi2
          ((fitObjective program params points options).expand trial) = .error e' := by
  unfold fitPoints at failed
  rw [if_neg (not_not_intro count), verified] at failed
  by_cases none : (fitObjective program params points options).points.isEmpty = true
  · rw [if_pos none] at failed
    cases failed
    exact Or.inl rfl
  · rw [if_neg none] at failed
    rcases eq_error_of_bind failed with ⟨⟨⟩⟩ | ⟨⟨⟩, -, failed⟩
    rcases eq_error_of_bind failed with stopped | ⟨found, -, failed⟩
    · obtain ⟨e', -, equal⟩ := exists_of_mapError_eq_error stopped
      exact Or.inr (Or.inl ⟨e', equal⟩)
    · rcases eq_error_of_bind failed with unsummed | ⟨chi2, -, failed⟩
      · obtain ⟨e', summed, equal⟩ := exists_of_mapError_eq_error unsummed
        exact Or.inr (Or.inr ⟨found.values, e', equal, summed⟩)
      · cases failed

end

theorem length_of_bind {formula : String} {registry : Registry α} {layout : Layout}
    {program : Program α} {params bound : List α}
    (h : compile formula registry layout = .ok program)
    (hb : program.bind params = .ok bound) : bound.length = program.paramsLength := by
  cases layout with
  | full =>
    obtain ⟨terms, compact, -, compacts⟩ := compacts_of_full h
    rw [Program.bind, compacts.fullLayout] at hb
    dsimp only at hb
    split at hb
    next => cases hb
    next enough =>
      cases hb
      rw [List.length_take, Nat.min_eq_left (Nat.le_of_not_lt enough)]
  | compact =>
    obtain ⟨terms, full, -, compacts⟩ := compacts_of_compact h
    rw [compacts.bind_eq] at hb
    obtain ⟨fit, rfl⟩ := bindSlices_eq_ok_iff.mp hb
    rw [length_joinSlices fit, compacts.compactLength]

namespace Component

variable {recipe : String} {registry : Registry α} {fitted : List α} {c : Component α}

theorem compile_eq_ok (h : compile recipe registry fitted = .ok c) :
    FormulaFit.compile recipe registry .compact = .ok c.program ∧
      c.program.verify = .ok () ∧ c.program.bind fitted = .ok c.params := by
  obtain ⟨program, compiled, h⟩ := exists_of_bind_eq_ok h
  obtain ⟨⟨⟩, verified, h⟩ := exists_of_bind_eq_ok h
  obtain ⟨params, bound, h⟩ := exists_of_bind_eq_ok h
  cases h
  exact ⟨eq_ok_of_mapError_eq_ok compiled, eq_ok_of_mapError_eq_ok verified,
    eq_ok_of_mapError_eq_ok bound⟩

/-- The component has a value wherever its templates have one, and never makes one up. -/
structure Reliable (c : Component α) : Prop where
  value_eq : ∀ x, c.value x = c.program.evaluate c.params x
  value : ∀ x, (∃ v, c.program.evaluate c.params x = .ok v) ↔
    ∀ t, c.program.Mentions t → t.DefinedAt x
  error : ∀ x e, c.program.evaluate c.params x = .error e → e = .outOfBounds

theorem reliable_of_compile (reach : registry.Reachable)
    (h : compile recipe registry fitted = .ok c) : c.Reliable := by
  obtain ⟨compiled, verified, bound⟩ := compile_eq_ok h
  have inside := compile_contained reach compiled
  have enough : c.program.paramsLength ≤ c.params.length :=
    Nat.le_of_eq (length_of_bind compiled bound).symm
  have error x e (failed : c.program.evaluate c.params x = .error e) : e = .outOfBounds :=
    Program.eq_outOfBounds_of_evaluate inside enough verified failed
  refine ⟨?_, ?_, error⟩
  · intro x
    unfold value
    cases valued : c.program.evaluate c.params x with
    | ok v => rfl
    | error e => rw [error x e valued]
  · intro x
    rw [Program.exists_evaluate_iff inside enough verified]
    exact definedAt_iff_of_compile compiled

/-- On a vector of all parameters, a component is what its formula is in the full layout. -/
theorem compile_cases (reach : registry.Reachable) (recipe : String)
    (enough : registry.paramsLength ≤ fitted.length) :
    (∃ e, FormulaFit.compile recipe registry .full = .error e ∧
        compile recipe registry fitted = .error (.formula e)) ∨
      ∃ full, FormulaFit.compile recipe registry .full = .ok full ∧
        ((∃ e, full.verify = .error e ∧ compile recipe registry fitted = .error (.evaluation e)) ∨
          full.verify = .ok () ∧ ∃ c, compile recipe registry fitted = .ok c ∧
            ∀ x, c.program.evaluate c.params x = full.evaluate fitted x) := by
  rcases compile_compacts registry recipe with
    ⟨e, hf, hc⟩ | ⟨terms, full, compact, hf, hc, compacts⟩
  · refine Or.inl ⟨e, hf, ?_⟩
    rw [compile, hc]
    rfl
  · refine Or.inr ⟨full, hf, ?_⟩
    rw [← compacts.verify_eq]
    cases verified : compact.verify with
    | error e =>
      refine Or.inl ⟨e, rfl, ?_⟩
      simp [compile, hc, verified, Except.mapError, bind, Except.bind]
    | ok u =>
      have bound := compacts.bind_eq_ok reach enough
      refine Or.inr ⟨rfl, ⟨compact, joinSlices terms fitted⟩, ?_, ?_⟩
      · simp [compile, hc, verified, bound, Except.mapError, bind, Except.bind, pure, Except.pure]
      · exact compacts.evaluate_joinSlices (compacts.slices_fit reach enough) enough

end Component

/-- Checking a program once is enough. Its verification decides all evaluations with enough
parameters, so neither the evaluations of a fit nor those of a component fail afterwards, unless a
template has no value where it is evaluated. -/
theorem checking_suffices :
    (∀ (p : Program α) params x, params.length < p.paramsLength →
        p.evaluate params x = .error (.missingParameters p.paramsLength params.length)) ∧
      (∀ p : Program α, p.Contained → p.Decided) ∧
      (∀ registry : Registry α, registry.Reachable → ∀ formula layout program,
        compile formula registry layout = .ok program → program.Contained ∧
          ∀ x, program.DefinedAt x ↔ ∀ t, program.Mentions t → t.DefinedAt x) ∧
      (∀ (program : Program α) params points options, program.Contained →
        params.length = program.paramsLength → program.verify = .ok () →
          (fitObjective program params points options).Reliable ∧
          ∀ minimize e, fitPoints minimize program params points options = .error e →
            e = .noPoints ∨ (∃ e', e = .minimizer e') ∨ (e = .model (.evaluation .outOfBounds) ∧
              ∃ p ∈ preparePoints options points, ¬program.DefinedAt p.x)) ∧
      ∀ registry : Registry α, registry.Reachable → ∀ recipe fitted c,
        Component.compile recipe registry fitted = .ok c → c.Reliable := by
  refine ⟨fun p params x => Program.evaluate_of_short, fun p => Program.Contained.decided,
    ?_, ?_, ?_⟩
  · intro registry reach formula layout program compiled
    exact ⟨compile_contained reach compiled, fun x => definedAt_iff_of_compile compiled⟩
  · intro program params points options inside count verified
    have reliable : (fitObjective program params points options).Reliable :=
      fitObjective_reliable inside count verified
    refine ⟨reliable, ?_⟩
    intro minimize e failed
    rcases fitPoints_eq_error count verified failed with
      none | searched | ⟨trial, e', rfl, summed⟩
    · exact Or.inl none
    · exact Or.inr (Or.inl searched)
    · obtain rfl := reliable.chi2_error trial e' summed
      refine Or.inr (Or.inr ⟨rfl, ?_⟩)
      by_contra all
      push Not at all
      obtain ⟨sum, hsum⟩ := (reliable.chi2 trial).mpr all
      rw [summed] at hsum
      cases hsum
  · intro registry reach recipe fitted c
    exact Component.reliable_of_compile reach

/-- A verified component can still be without a value where a template has none. -/
theorem exists_component_outOfBounds :
    ∃ (registry : Registry Float) (c : Component Float), registry.Reachable ∧
      Component.compile "t" registry [1.0] = .ok c ∧ c.program.verify = .ok () ∧
      c.program.evaluate c.params 0.5 = .error .outOfBounds := by
  have reach : uncentredRegistry.Reachable := .register .empty register_uncentred
  have enough : uncentredRegistry.paramsLength ≤ [(1.0 : Float)].length := Nat.le_refl 1
  rcases Component.compile_cases reach "t" enough with
    ⟨e, failed, -⟩ | ⟨full, compiled, ⟨e, refused, -⟩ | ⟨-, c, hc, agrees⟩⟩
  · cases compile_uncentred.symm.trans failed
  · cases compile_uncentred.symm.trans compiled
    cases refused
  · cases compile_uncentred.symm.trans compiled
    have verified := (Component.compile_eq_ok hc).2.1
    exact ⟨_, c, reach, hc, verified, (agrees 0.5).trans evaluate_uncentred⟩

end FormulaFit

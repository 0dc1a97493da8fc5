import FormulaFit.Proofs.Objective
import FormulaFit.Proofs.Search

namespace FormulaFit

theorem getElem?_filter_countP {β : Type} {q : β → Bool} {xs : List β} {i : Nat} {x : β}
    (here : xs[i]? = some x) (kept : q x) :
    (xs.filter q)[(xs.take i).countP q]? = some x := by
  obtain ⟨inside, rfl⟩ := List.getElem?_eq_some_iff.mp here
  have split : xs.filter q =
      (xs.take i).filter q ++ xs[i] :: (xs.drop (i + 1)).filter q := by
    rw [← List.filter_cons_of_pos kept, ← List.filter_append, List.getElem_cons_drop,
      List.take_append_drop]
  rw [split, List.countP_eq_length_filter, List.getElem?_append_right (Nat.le_refl _), Nat.sub_self,
    List.getElem?_cons_zero]

namespace Minimizer

variable {α : Type} [Zero α]

/-- Where a number of searches can end, each of which starts where the last one ended. Without any,
the parameters stay at the start and have no errors. -/
inductive Ends (minimize : Minimizer α) (problem : Problem α) : Nat → Minimum α → Prop
  | start : Ends minimize problem 0 ⟨problem.start, problem.start.map fun _ => 0⟩
  | search {runs : Nat} {last found : Minimum α} (before : Ends minimize problem runs last)
    (h : minimize { problem with start := last.values } = .ok found) :
    Ends minimize problem (runs + 1) found

variable {minimize : Minimizer α} {problem : Problem α} {runs : Nat} {found : Minimum α}

theorem Ends.for (complete : minimize.Complete) (posed : problem.WellPosed)
    (h : minimize.Ends problem runs found) : found.For problem := by
  induction h with
  | start => exact ⟨rfl, List.length_map _⟩
  | @search runs last found before h ih =>
    have again : Problem.WellPosed { problem with start := last.values } :=
      ⟨posed.limits.trans ih.values.symm, posed.residuals⟩
    have ended := complete.found _ _ again h
    exact ⟨ended.values.trans ih.values, ended.errors.trans ih.values⟩

theorem Ends.enough (complete : minimize.Complete) (posed : problem.WellPosed)
    (h : minimize.Ends problem (runs + 1) found) : problem.start.length ≤ problem.count := by
  cases h with
  | @search _ last _ before h =>
    have placed := before.for complete posed
    have again : Problem.WellPosed { problem with start := last.values } :=
      ⟨posed.limits.trans placed.values.symm, posed.residuals⟩
    rw [← placed.values]
    exact complete.enough _ _ again h

end Minimizer

variable {α : Type} [Scalar α]

theorem ends_of_minimizeAgain {minimize : Minimizer α} {problem : Problem α} {before runs : Nat}
    {last found : Minimum α} (reached : minimize.Ends problem before last)
    (h : minimizeAgain minimize problem runs last = .ok found) :
    minimize.Ends problem (before + runs) found := by
  induction runs generalizing before last with
  | zero =>
    cases h
    exact reached
  | succ runs ih =>
    rw [minimizeAgain] at h
    split at h
    next next ended =>
      rw [Nat.add_comm runs 1, ← Nat.add_assoc]
      exact ih (reached.search ended) h
    next => cases h

section

variable {params : List (ParamSpec α)} {i : Nat} {p : ParamSpec α}

/-- A free parameter has as many free ones before it in the list as in the vector of free ones. -/
theorem getElem?_freeIndices (here : params[i]? = some p) (free : p.isFree) :
    (freeIndices params)[(params.take i).countP ParamSpec.isFree]? = some i := by
  have paired : params.zipIdx[i]? = some (p, i) := by
    rw [List.getElem?_zipIdx, here]
    simp
  have indices : freeIndices params =
      (params.zipIdx.filter fun e => e.1.isFree).map Prod.snd := rfl
  have rank : (params.zipIdx.take i).countP (fun e => e.1.isFree) =
      (params.take i).countP ParamSpec.isFree := by
    rw [← List.zipIdx_map_fst 0 params, ← List.map_take, List.countP_map, List.zipIdx_map_fst]
    rfl
  rw [indices, List.getElem?_map, ← rank, getElem?_filter_countP paired free]
  rfl

theorem length_freeIndices (params : List (ParamSpec α)) :
    (freeIndices params).length = params.countP ParamSpec.isFree := by
  rw [freeIndices, List.length_map, ← List.countP_eq_length_filter]
  conv_rhs => rw [← List.zipIdx_map_fst 0 params, List.countP_map]
  rfl

end

/-- The problem that a fit hands to the minimizer. -/
def fitProblem (program : Program α) (params : List (ParamSpec α)) (points : List (Point α))
    (options : FitOptions α) : Problem α :=
  let objective := fitObjective program params points options
  { count := objective.points.length
    residuals := fun trial => objective.deviations (objective.expand trial)
    start := (params.filter ParamSpec.isFree).map ParamSpec.initial
    limits := (params.filter ParamSpec.isFree).map fun p => ⟨p.lower, p.upper⟩ }

section

variable {program : Program α} {params : List (ParamSpec α)} {points : List (Point α)}
  {options : FitOptions α}

theorem length_fitProblem_start :
    (fitProblem program params points options).start.length = (freeIndices params).length := by
  rw [length_freeIndices, List.countP_eq_length_filter]
  exact List.length_map _

theorem fitProblem_wellPosed : (fitProblem program params points options).WellPosed where
  limits := (List.length_map _).trans (List.length_map _).symm
  residuals _ _ h := (mapM_eq_ok_iff.mp h).length_eq.symm

/-- How a point enters a fit: with an error that one can divide by, its own one if possible. -/
structure Point.Weighted (options : FitOptions α) (p q : Point α) : Prop where
  x : q.x = p.x
  y : q.y = p.y
  positive : 0 < q.error
  own : options.unitWeights = false → 0 < p.error → q.error = p.error

theorem preparePoints_weighted (one : (0 : α) < 1.0) :
    List.Forall₂ (Point.Weighted options) (points.filter fun p => options.uses p.x)
      (preparePoints options points) := by
  rw [preparePoints, List.forall₂_map_right_iff, List.forall₂_same]
  intro p _
  by_cases unit : (options.unitWeights || !decide (0 < p.error)) = true
  · rw [if_pos unit]
    refine ⟨rfl, rfl, one, fun plain positive => ?_⟩
    simp [plain, positive] at unit
  · rw [if_neg unit]
    simp only [Bool.or_eq_true, not_or, Bool.not_eq_true', decide_eq_false_iff_not, not_not] at unit
    exact ⟨rfl, rfl, unit.2, fun _ _ => rfl⟩

/-- What a fit says about every parameter and every point: the parameters that the minimizer may
move carry its values and errors in their order, the others stay. `k` counts the free parameters
before the `i`-th one. -/
structure Fit.Accounts (program : Program α) (params : List (ParamSpec α)) (points : List (Point α))
    (options : FitOptions α) (found : Minimum α) (fit : Fit α) : Prop where
  names : fit.names = params.map ParamSpec.name
  lengths : fit.values.length = params.length ∧ fit.errors.length = params.length ∧
    fit.fixed.length = params.length
  held : ∀ (i : Nat) p, params[i]? = some p → ¬p.lower < p.upper →
    fit.values[i]? = some p.initial ∧ fit.errors[i]? = some 0 ∧ fit.fixed[i]? = some true
  moved : ∀ (i : Nat) p, params[i]? = some p → p.lower < p.upper → ∃ k v e,
    k = (params.take i).countP ParamSpec.isFree ∧
    (fitProblem program params points options).start[k]? = some p.initial ∧
    (fitProblem program params points options).limits[k]? = some ⟨p.lower, p.upper⟩ ∧
    (∀ trial, trial.length = (fitProblem program params points options).start.length →
      ((fitObjective program params points options).expand trial)[i]? = trial[k]?) ∧
    found.values[k]? = some v ∧ found.errors[k]? = some e ∧
    fit.values[i]? = some v ∧ fit.errors[i]? = some e ∧ fit.fixed[i]? = some false
  all : options.range = none → fit.count = points.length
  inside : ∀ r, options.range = some r →
    fit.count = points.countP fun p => r.lower ≤ p.x ∧ p.x ≤ r.upper
  ndf : fit.ndf = fit.count - (params.countP ParamSpec.isFree : Nat)
  enough : 0 ≤ fit.ndf
  weighted : List.Forall₂ (Point.Weighted options) (points.filter fun p => options.uses p.x)
    (preparePoints options points)
  residuals : ∀ trial residuals,
    (fitProblem program params points options).residuals trial = .ok residuals ↔
      List.Forall₂ (fun p r => ∃ v, program.evaluate
        ((fitObjective program params points options).expand trial) p.x = .ok v ∧
          r = p.residual v) (preparePoints options points) residuals
  chi2 : ∃ values, List.Forall₂ (fun p v => program.evaluate fit.values p.x = .ok v)
      (preparePoints options points) values ∧
    fit.chi2 = ((preparePoints options points).zip values).foldl
      (fun sum (p, v) => sum + (p.y - v) / p.error * ((p.y - v) / p.error)) 0

theorem isFree_iff {p : ParamSpec α} : p.isFree ↔ p.lower < p.upper :=
  decide_eq_true_iff

/-- The number of searches of a fit. -/
def searches (params : List (ParamSpec α)) (options : FitOptions α) : Nat :=
  if params.countP ParamSpec.isFree = 0 then 0 else if options.improve then 2 else 1

theorem searches_eq (params : List (ParamSpec α)) (options : FitOptions α) :
    (if (freeIndices params).isEmpty then 0 else if options.improve then 2 else 1) =
      searches params options := by
  rw [searches, ← length_freeIndices]
  simp only [List.isEmpty_iff, List.length_eq_zero_iff]

theorem exists_ends_of_fitPoints {minimize : Minimizer α} {fit : Fit α}
    (h : fitPoints minimize program params points options = .ok fit) :
    ∃ found, minimize.Ends (fitProblem program params points options) (searches params options)
        found ∧
      (fitObjective program params points options).chi2 fit.values = .ok fit.chi2 ∧
      fit.names = params.map ParamSpec.name ∧
      fit.values = (fitObjective program params points options).expand found.values ∧
      fit.errors = (fitObjective program params points options).write (params.map fun _ => 0)
        found.errors ∧
      fit.fixed = params.map (fun p => !p.isFree) ∧
      fit.count = (preparePoints options points).length ∧
      fit.ndf = fit.count - (params.countP ParamSpec.isFree : Nat) := by
  obtain ⟨-, -, -, objective, problem, found, chi2, rfl, rfl, ended, summed, rfl⟩ :=
    exists_minimum_of_fitPoints h
  have reached := ends_of_minimizeAgain .start ended
  rw [searches_eq, Nat.zero_add] at reached
  exact ⟨found, reached, summed, rfl, rfl, rfl, rfl, rfl, by rw [length_freeIndices]⟩

section

variable {i : Nat} {p : ParamSpec α} {base trial : List α}

theorem getElem?_write_of_not_isFree (here : params[i]? = some p) (held : ¬p.isFree) :
    ((fitObjective program params points options).write base trial)[i]? = base[i]? := by
  refine Objective.getElem?_write_of_not_mem ?_ base trial
  intro free
  obtain ⟨q, there, moves⟩ := mem_freeIndices_iff.mp free
  cases here.symm.trans there
  exact held moves

theorem getElem?_write_of_isFree (here : params[i]? = some p) (free : p.isFree)
    (base_length : base.length = params.length)
    (count : trial.length = (fitProblem program params points options).start.length) :
    ((fitObjective program params points options).write base trial)[i]? =
      trial[(params.take i).countP ParamSpec.isFree]? := by
  rw [length_fitProblem_start] at count
  refine Objective.getElem?_write_of_free (nodup_freeIndices params) count
    (getElem?_freeIndices here free) ?_
  rw [base_length]
  exact (List.getElem?_eq_some_iff.mp here).1

end

theorem length_preparePoints (options : FitOptions α) (points : List (Point α)) :
    (preparePoints options points).length = points.countP fun p => options.uses p.x := by
  rw [preparePoints, List.length_map, List.countP_eq_length_filter]

theorem chi2_eq_ok {o : Objective α} {params : List α} {chi2 : α} (h : o.chi2 params = .ok chi2) :
    ∃ values, List.Forall₂ (fun p v => o.program.evaluate params p.x = .ok v) o.points values ∧
      chi2 = (o.points.zip values).foldl
        (fun sum (p, v) => sum + (p.y - v) / p.error * ((p.y - v) / p.error)) 0 := by
  rw [Objective.chi2_eq] at h
  cases evaluated : o.values params with
  | error e =>
    rw [evaluated] at h
    cases h
  | ok values =>
    rw [evaluated] at h
    exact ⟨values, mapM_eq_ok_iff.mp evaluated, (Except.ok.inj h).symm⟩

/-- The place of a free parameter among the free ones, where the minimizer finds its start and its
limits. -/
theorem getElem?_fitProblem (program : Program α) (points : List (Point α))
    (options : FitOptions α) {i : Nat} {p : ParamSpec α} (here : params[i]? = some p)
    (free : p.isFree) : ∃ k, k = (params.take i).countP ParamSpec.isFree ∧
      k < (fitProblem program params points options).start.length ∧
      (fitProblem program params points options).start[k]? = some p.initial ∧
      (fitProblem program params points options).limits[k]? = some ⟨p.lower, p.upper⟩ := by
  have place := getElem?_filter_countP here free
  have early := (List.getElem?_eq_some_iff.mp place).1
  refine ⟨_, rfl, ?_, ?_, ?_⟩
  · rwa [fitProblem, List.length_map]
  · rw [fitProblem, List.getElem?_map, place]
    rfl
  · rw [fitProblem, List.getElem?_map, place]
    rfl

/-- A fit that succeeds has a point for each free parameter: otherwise the first search fails. -/
theorem countP_isFree_le_of_ends {minimize : Minimizer α} {found : Minimum α}
    (complete : minimize.Complete) (ends : minimize.Ends (fitProblem program params points options)
      (searches params options) found) :
    params.countP ParamSpec.isFree ≤ (preparePoints options points).length := by
  by_cases none : params.countP ParamSpec.isFree = 0
  · rw [none]
    exact Nat.zero_le _
  · obtain ⟨runs, some⟩ : ∃ runs, searches params options = runs + 1 := by
      rw [searches, if_neg none]
      split
      · exact ⟨1, rfl⟩
      · exact ⟨0, rfl⟩
    rw [some] at ends
    have enough := ends.enough complete fitProblem_wellPosed
    rwa [length_fitProblem_start, length_freeIndices] at enough

end

/-- A fit leaves every parameter that it may not move where it starts, and gives every other one
what the minimizer found for it. Its counts and its sum of squares are those of the points in
range. -/
theorem fitPoints_accounts {minimize : Minimizer Float} {program : Program Float}
    {params : List (ParamSpec Float)} {points : List (Point Float)} {options : FitOptions Float}
    {fit : Fit Float} (complete : minimize.Complete)
    (h : fitPoints minimize program params points options = .ok fit) :
    ∃ found, minimize.Ends (fitProblem program params points options) (searches params options)
        found ∧
      fit.Accounts program params points options found := by
  obtain ⟨found, ends, summed, names, values, errors, fixed, count, ndf⟩ :=
    exists_ends_of_fitPoints h
  have whole := ends.for complete fitProblem_wellPosed
  have base := length_fitObjective_base program params points options
  have zeros : (params.map fun _ => (0 : Float)).length = params.length := List.length_map _
  refine ⟨found, ends, ?_⟩
  constructor
  case names => exact names
  case lengths =>
    refine ⟨?_, ?_, ?_⟩
    · rw [values, Objective.length_expand, base]
    · rw [errors, Objective.length_write]
      exact zeros
    · rw [fixed, List.length_map]
  case held =>
    intro i p here empty
    have held : ¬p.isFree := fun free => empty (isFree_iff.mp free)
    refine ⟨?_, ?_, ?_⟩
    · rw [values]
      exact (getElem?_write_of_not_isFree here held).trans
        (getElem?_fitObjective_base program points options here)
    · rw [errors, getElem?_write_of_not_isFree here held, List.getElem?_map, here]
      rfl
    · rw [fixed, List.getElem?_map, here]
      simpa using held
  case moved =>
    intro i p here room
    have free : p.isFree := isFree_iff.mpr room
    obtain ⟨k, rank, early, start, limits⟩ := getElem?_fitProblem program points options here free
    subst rank
    refine ⟨_, _, _, rfl, start, limits,
      fun trial count => getElem?_write_of_isFree here free base count,
      List.getElem?_eq_getElem (whole.values ▸ early),
      List.getElem?_eq_getElem (whole.errors ▸ early), ?_, ?_, ?_⟩
    · rw [values]
      exact (getElem?_write_of_isFree here free base whole.values).trans
        (List.getElem?_eq_getElem _)
    · rw [errors]
      exact (getElem?_write_of_isFree here free zeros whole.errors).trans
        (List.getElem?_eq_getElem _)
    · rw [fixed, List.getElem?_map, here]
      simp [free]
  case all =>
    intro none
    rw [count, length_preparePoints]
    simp [FitOptions.uses, none]
  case inside =>
    intro r range
    rw [count, length_preparePoints]
    simp [FitOptions.uses, range, Interval.contains, Scalar.within]
  case ndf => exact ndf
  case enough =>
    have free := countP_isFree_le_of_ends complete ends
    rw [ndf, count]
    omega
  case weighted => exact preparePoints_weighted (by decide +kernel)
  case residuals => exact fun _ _ => Objective.deviations_eq_ok_iff
  case chi2 => exact chi2_eq_ok summed

/-- A slope between bounds and an intercept that is held, fitted to the points from zero to three:
the slope stays at its start, where the line meets both points. -/
theorem fitPoints_accounts_slope :
    LeastSquares.levenbergMarquardt.Complete ∧
      ∃ fit, fitPoints LeastSquares.levenbergMarquardt lineProgram
          [.held "c0" 1.0, ⟨"c1", 3.0, 0.0, 9.0⟩]
          [⟨2.0, 7.0, 1.0⟩, ⟨1.0, 4.0, 0.0⟩, ⟨9.0, 4.0, 0.0⟩]
          ⟨some ⟨0.0, 3.0⟩, false, false, true⟩ = .ok fit ∧
        fit.values.length = 2 ∧ fit.values[0]? = some 1.0 ∧ fit.fixed[1]? = some false ∧
        fit.count = 2 ∧ fit.ndf = 1 := by
  have complete := LeastSquares.levenbergMarquardt_complete
  refine ⟨complete, ?_⟩
  generalize hparams : [ParamSpec.held "c0" 1.0, ⟨"c1", 3.0, 0.0, 9.0⟩] = params
  generalize hpoints : [(⟨2.0, 7.0, 1.0⟩ : Point Float), ⟨1.0, 4.0, 0.0⟩, ⟨9.0, 4.0, 0.0⟩] = points
  have succeeds : (fitPoints LeastSquares.levenbergMarquardt lineProgram params points
      ⟨some ⟨0.0, 3.0⟩, false, false, true⟩).toOption.isSome := by
    subst hparams hpoints
    decide +kernel
  cases fitted : fitPoints LeastSquares.levenbergMarquardt lineProgram params points
      ⟨some ⟨0.0, 3.0⟩, false, false, true⟩ with
  | error e =>
    rw [fitted] at succeeds
    cases succeeds
  | ok fit =>
    obtain ⟨found, ends, accounts⟩ := fitPoints_accounts complete fitted
    have count : fit.count = 2 := by
      rw [accounts.inside _ rfl, ← hpoints]
      decide +kernel
    have free : params.countP ParamSpec.isFree = 1 := by
      subst hparams
      decide +kernel
    obtain ⟨k, v, e, -, -, -, -, -, -, -, -, moved⟩ :=
      accounts.moved 1 ⟨"c1", 3.0, 0.0, 9.0⟩ (by rw [← hparams]; rfl) (by decide +kernel)
    refine ⟨fit, rfl, ?_, ?_, moved, count, ?_⟩
    · rw [accounts.lengths.1, ← hparams]
      rfl
    · exact (accounts.held 0 (.held "c0" 1.0) (by rw [← hparams]; rfl) (by decide +kernel)).1
    · rw [accounts.ndf, count, free]
      rfl

end FormulaFit

import FormulaFit.Proofs.Bookkeeping
import FormulaFit.Proofs.ModelRuns
import FormulaFit.Proofs.RegistryRuns
import FormulaFit.Proofs.Sums

namespace FormulaFit

section

variable {α : Type} [Scalar α]

/-- A model's fit asks a minimizer for a number of searches in a problem, and nothing else of it. -/
def Model.Asks (m : Model α) (h : Histogram α) (formula : String) (options : FitOptions α)
    (problem : Problem α) (runs : Nat) : Prop :=
  ∃ finish : Minimum α → Except FitError (Fit α), ∀ minimize,
    (m.fitTo minimize h formula options).1 =
      (minimizeAgain minimize problem runs
        ⟨problem.start, problem.start.map fun _ => 0⟩).mapError .minimizer >>= finish

/-- A fit fails before it comes to the minimizer, or searches in its problem. -/
theorem fitPoints_cases (program : Program α) (params : List (ParamSpec α))
    (points : List (Point α)) (options : FitOptions α) :
    (∃ e, ∀ minimize, fitPoints minimize program params points options = .error e) ∨
      ∃ finish : Minimum α → Except FitError (Fit α), ∀ minimize,
        fitPoints minimize program params points options =
          (minimizeAgain minimize (fitProblem program params points options)
            (searches params options)
            ⟨(fitProblem program params points options).start,
              (fitProblem program params points options).start.map fun _ => 0⟩).mapError
                .minimizer >>= finish := by
  by_cases count : params.length = program.paramsLength
  · cases verified : program.verify with
    | error e =>
      refine Or.inl ⟨.model (.evaluation e), fun minimize => ?_⟩
      rw [fitPoints, if_neg (not_not_intro count), verified]
      rfl
    | ok u =>
      by_cases none : (fitObjective program params points options).points.isEmpty = true
      · refine Or.inl ⟨.noPoints, fun minimize => ?_⟩
        rw [fitPoints, if_neg (not_not_intro count), verified, if_pos none]
        rfl
      · right
        apply Exists.intro
        intro minimize
        rw [fitPoints, if_neg (not_not_intro count), verified, if_neg none, ← searches_eq]
        rfl
  · refine Or.inl ⟨.parameterCount program.paramsLength params.length, fun minimize => ?_⟩
    rw [fitPoints, if_pos count]
    rfl

theorem Model.fitTo_cases (m : Model α) (h : Histogram α) (formula : String)
    (options : FitOptions α) :
    (∃ e, ∀ minimize, (m.fitTo minimize h formula options).1 = .error e) ∨
      ∃ program, m.Asks h formula options (fitProblem program m.registry.params h.bins options)
        (searches m.registry.params options) := by
  rcases m.tryCompile_cases formula with ⟨e, -, stays⟩ | ⟨program, -, moves⟩
  · refine Or.inl ⟨.model (.formula e), fun minimize => ?_⟩
    rw [fitTo, stays]
  · rcases fitPoints_cases program m.registry.params h.bins options with
      ⟨e, failed⟩ | ⟨finish, asked⟩
    · refine Or.inl ⟨e, fun minimize => ?_⟩
      rw [fitTo, moves]
      simp only [Registry.freeze, failed]
    · refine Or.inr ⟨program, fun found => (finish found).map fun fit =>
        { fit with names := m.registry.qualifiedNames }, fun minimize => ?_⟩
      rw [fitTo, moves]
      simp only [Registry.freeze, asked]
      generalize (minimizeAgain _ _ _ _).mapError FitError.minimizer = searched
      cases searched with
      | error e => rfl
      | ok found =>
        have opened {f : Minimum α → Except FitError (Fit α)} :
            (Except.ok found >>= f) = f found := rfl
        rw [opened, opened]
        cases finish found <;> rfl

namespace ParamSpec

theorem stored_bounds (q : ParamSpec α) :
    q.stored.name = q.name ∧ q.stored.lower = q.lower ∧ q.stored.upper = q.upper := by
  rw [stored]
  split <;> exact ⟨rfl, rfl, rfl⟩

/-- A parameter that starts within its bounds. -/
def StartsInside (p : ParamSpec α) : Prop :=
  p.lower ≤ p.initial ∧ p.initial ≤ p.upper

theorem within_iff {p : ParamSpec α} :
    Scalar.within p.lower p.upper p.initial ↔ p.StartsInside := by
  rw [Scalar.within, StartsInside, Bool.and_eq_true, decide_eq_true_iff, decide_eq_true_iff]

end ParamSpec

namespace Registry

/-- A parameter that is supplied in a call. -/
def Call.Supplies (q : ParamSpec α) : Call α → Prop
  | .register _ _ params => q ∈ params
  | .freeze => False

/-- All that a registry stores was supplied in a call. -/
theorem mem_params_run {r : Registry α} {calls : List (Call α)} {p : ParamSpec α}
    (member : p ∈ (r.run calls).params) :
    p ∈ r.params ∨ ∃ call ∈ calls, ∃ q, call.Supplies q ∧ p = q.stored := by
  induction calls generalizing r with
  | nil => exact Or.inl member
  | cons call calls ih =>
    rcases ih member with early | ⟨later, there, q, supplied, stored⟩
    · rcases r.after_cases call with same | ⟨-, frozen⟩ | ⟨name, basis, params, rfl, registered⟩
      · exact Or.inl (same ▸ early)
      · rw [frozen] at early
        exact Or.inl early
      · obtain ⟨-, made⟩ := register_eq_ok_iff.mp registered
        rw [made] at early
        rcases List.mem_append.mp early with old | new
        · exact Or.inl old
        · obtain ⟨q, own, rfl⟩ := List.mem_map.mp new
          exact Or.inr ⟨_, List.mem_cons_self, q, own, rfl⟩
    · exact Or.inr ⟨later, List.mem_cons_of_mem _ there, q, supplied, stored⟩

end Registry

end

namespace ParamSpec

variable {p q : ParamSpec Float}

theorem isOutside_iff (ordered : q.lower ≤ q.upper) : q.isOutside ↔ ¬q.StartsInside := by
  have bounded : ¬q.isFixed := fun fixed => not_le_of_lt (of_decide_eq_true fixed) ordered
  rw [isOutside, ← within_iff]
  simp [bounded]

/-- A parameter that is stored starts within its bounds if it was supplied so, or else if the middle
between them can be computed. -/
theorem stored_startsInside_iff (ordered : q.lower ≤ q.upper) :
    q.stored.StartsInside ↔ q.StartsInside ∨ HasMidpoint q.lower q.upper := by
  by_cases inside : q.StartsInside
  · have kept : q.stored = q := by
      rw [stored, if_neg fun outside => (isOutside_iff ordered).mp outside inside]
    rw [kept]
    exact iff_of_true inside (Or.inl inside)
  · have moved : q.stored = { q with initial := q.midpoint } := by
      rw [stored, if_pos ((isOutside_iff ordered).mpr inside)]
    rw [moved, or_iff_right inside]
    exact midpoint_between_iff ordered

/-- What becomes of a parameter that is supplied as `q` and stored as `p`. -/
structure Placed (q p : ParamSpec Float) : Prop where
  stored : p = q.stored
  bounds : p.lower = q.lower ∧ p.upper = q.upper
  inside : p.lower ≤ p.upper → (p.StartsInside ↔ q.StartsInside ∨ HasMidpoint p.lower p.upper)
  finite : p.lower ≤ p.upper → p.lower.isFinite → p.upper.isFinite →
    (p.StartsInside ↔ q.StartsInside ∨ (p.lower + p.upper).isFinite)

theorem stored_placed (q : ParamSpec Float) : q.Placed q.stored := by
  obtain ⟨-, lower, upper⟩ := q.stored_bounds
  refine ⟨rfl, ⟨lower, upper⟩, ?_, ?_⟩
  · rw [lower, upper]
    exact stored_startsInside_iff
  · rw [lower, upper]
    intro ordered finite finite'
    rw [stored_startsInside_iff ordered, hasMidpoint_iff_of_isFinite finite finite']

end ParamSpec

namespace Registry

/-- Every parameter that is stored between finite bounds starts within them, unless it was supplied
outside and the sum of the bounds is too large. The same holds of every start with its limits that a
fit hands to the minimizer. -/
theorem run_startsInside (calls : List (Call Float)) :
    (∀ p ∈ (empty.run calls).params, ∃ call ∈ calls, ∃ q, call.Supplies q ∧ q.Placed p) ∧
      ∀ m : Model Float, m.registry = empty.run calls → ∀ h formula options,
        (∃ e, ∀ minimize, (m.fitTo minimize h formula options).1 = .error e) ∨
          ∃ program problem, problem = fitProblem program m.registry.params h.bins options ∧
            m.Asks h formula options problem (searches m.registry.params options) ∧
            ∀ x limits, (x, limits) ∈ problem.start.zip problem.limits →
              ∃ call ∈ calls, ∃ q p, call.Supplies q ∧ q.Placed p ∧ p.lower < p.upper ∧
                x = p.initial ∧ limits = ⟨p.lower, p.upper⟩ ∧
                (limits.contains x ↔ q.StartsInside ∨ HasMidpoint p.lower p.upper) := by
  have supplied (p : ParamSpec Float) (member : p ∈ (empty.run calls).params) :
      ∃ call ∈ calls, ∃ q, call.Supplies q ∧ q.Placed p := by
    rcases mem_params_run member with none | ⟨call, there, q, own, rfl⟩
    · cases none
    · exact ⟨call, there, q, own, q.stored_placed⟩
  refine ⟨supplied, fun m registered h formula options => ?_⟩
  rcases m.fitTo_cases h formula options with failed | ⟨program, asked⟩
  · exact Or.inl failed
  · refine Or.inr ⟨program, _, rfl, asked, fun x limits pair => ?_⟩
    rw [fitProblem, List.zip_map'] at pair
    obtain ⟨p, free, equal⟩ := List.mem_map.mp pair
    obtain ⟨rfl, rfl⟩ := Prod.mk.inj equal
    obtain ⟨member, room⟩ := List.mem_filter.mp free
    obtain ⟨call, there, q, own, placed⟩ := supplied p (registered ▸ member)
    have below := isFree_iff.mp room
    refine ⟨call, there, q, p, own, placed, below, rfl, rfl, ?_⟩
    exact p.within_iff.trans (placed.inside (le_of_lt below))

theorem run_register {α : Type} [Scalar α] {name : String} {basis : Basis α}
    {params : List (ParamSpec α)} (identifier : isIdentifier name)
    (arity : params.length = basis.arity) :
    (empty.run [.register name basis params]).params = params.map ParamSpec.stored := by
  have registered := register_eq_ok_iff.mpr
    ⟨⟨(rfl : (empty : Registry α).frozen = false), identifier, rfl, arity⟩, rfl⟩
  rw [run, List.foldl_cons, after_of_ok registered]
  rfl

/-- A constant between zero and ten that is supplied as twenty. -/
def constantSpec : ParamSpec Float :=
  ⟨"c", 20.0, 0.0, 10.0⟩

/-- A model with this constant as its only term, and a single bin. -/
def constantModel : Model Float :=
  ⟨empty.run [.register "c" (.polynomial 0) [constantSpec]], none, none⟩

def singleBin : Histogram Float :=
  ⟨[⟨1.0, 4.0, 1.0⟩], by simp⟩

/-- The constant is stored within its bounds, and a fit of it starts there. -/
theorem run_startsInside_constant :
    (∃ p ∈ constantModel.registry.params,
      p.lower ≤ p.upper ∧ p.lower.isFinite ∧ p.upper.isFinite ∧ p.StartsInside) ∧
      ∃ problem, problem.start.length = 1 ∧
        constantModel.Asks singleBin "c" ⟨none, false, false, false⟩ problem 1 ∧
        ∀ x limits, (x, limits) ∈ problem.start.zip problem.limits → limits.contains x := by
  obtain ⟨supplied, asked⟩ :=
    run_startsInside [.register "c" (.polynomial 0) [constantSpec]]
  have params : constantModel.registry.params = [constantSpec.stored] :=
    run_register (by decide) rfl
  have low : constantSpec.lower.isFinite := by decide +kernel
  have high : constantSpec.upper.isFinite := by decide +kernel
  have finite : (constantSpec.lower + constantSpec.upper).isFinite := by decide +kernel
  have own {call q} (there : call ∈ [Call.register "c" (.polynomial 0) [constantSpec]])
      (supplies : call.Supplies q) : q = constantSpec := by
    rw [List.mem_singleton.mp there] at supplies
    exact List.mem_singleton.mp supplies
  constructor
  · have member : constantSpec.stored ∈ constantModel.registry.params := by
      rw [params]
      exact List.mem_singleton_self _
    obtain ⟨call, there, q, supplies, placed⟩ := supplied _ member
    obtain rfl := own there supplies
    obtain ⟨lower, upper⟩ := placed.bounds
    refine ⟨_, member, ?_⟩
    have inside := placed.finite
    rw [lower, upper] at inside ⊢
    have ordered : constantSpec.lower ≤ constantSpec.upper := by decide +kernel
    exact ⟨ordered, low, high, (inside ordered low high).mpr (Or.inr finite)⟩
  · rcases asked constantModel rfl singleBin "c" ⟨none, false, false, false⟩ with
      ⟨e, failed⟩ | ⟨program, problem, made, asks, pairs⟩
    · have succeeds : (constantModel.fitTo (fun _ => .ok ⟨[4.0], [1.0]⟩) singleBin "c"
          ⟨none, false, false, false⟩).1.toOption.isSome := by
        decide +kernel
      rw [failed] at succeeds
      cases succeeds
    · have one : searches constantModel.registry.params
          (⟨none, false, false, false⟩ : FitOptions Float) = 1 := by
        rw [params]
        decide +kernel
      rw [one] at asks
      refine ⟨problem, ?_, asks, fun x limits pair => ?_⟩
      · rw [made, length_fitProblem_start, params]
        decide +kernel
      · obtain ⟨call, there, q, p, supplies, placed, -, -, -, inside⟩ := pairs x limits pair
        obtain rfl := own there supplies
        obtain ⟨lower, upper⟩ := placed.bounds
        rw [inside, lower, upper, hasMidpoint_iff_of_isFinite low high]
        exact Or.inr finite

/-- A start can be moved out of finite bounds: twice the bound is too large for a double. -/
theorem exists_start_outside :
    ∃ p ∈ (empty.run [.register "c" (.polynomial 0) [⟨"c", 0.0, 1e308, 1e308⟩]]).params,
      p.lower.isFinite ∧ p.upper.isFinite ∧ p.lower ≤ p.upper ∧ ¬p.initial ≤ p.upper := by
  have params : (empty.run
      [.register "c" (.polynomial 0) [(⟨"c", 0.0, 1e308, 1e308⟩ : ParamSpec Float)]]).params =
        [(⟨"c", 0.0, 1e308, 1e308⟩ : ParamSpec Float).stored] :=
    run_register (by decide) rfl
  rw [params]
  refine ⟨_, List.mem_singleton_self _, ?_, ?_, ?_, ?_⟩
  · decide +kernel
  · decide +kernel
  · decide +kernel
  · decide +kernel

end Registry

end FormulaFit

import FormulaFit.Model
import FormulaFit.Proofs.Fitting
import FormulaFit.Proofs.Layouts

namespace FormulaFit

/-- A call on a model with its arguments. -/
inductive Operation (α : Type)
  | add (name : String) (basis : Basis α) (params : List (ParamSpec α))
  | compile (formula : String)
  | fit (h : Histogram α) (formula : String) (options : FitOptions α)
  | evaluate (params : List α) (x : α)
  | component (recipe : String)
  | draw (recipes : List Recipe) (xs : List α)

namespace Model

variable {α : Type} [Scalar α] {minimize : Minimizer α} {m : Model α}

/-- The model after a call, whether or not the call succeeds. -/
def after (minimize : Minimizer α) (m : Model α) : Operation α → Model α
  | .add name basis params => (m.tryAdd name basis params).2
  | .compile formula => (m.tryCompile formula).2
  | .fit h formula options => (m.fitTo minimize h formula options).2
  | .evaluate _ _ | .component _ | .draw _ _ => m

/-- The model after calls one after another. -/
def run (minimize : Minimizer α) (m : Model α) (operations : List (Operation α)) : Model α :=
  operations.foldl (after minimize) m

/-- What a call makes of a model. -/
inductive Becomes (minimize : Minimizer α) (m : Model α) : Model α → Prop
  | same : Becomes minimize m m
  | add {name : String} {basis : Basis α} {params : List (ParamSpec α)} {registry : Registry α}
    (h : m.registry.register name basis params = .ok registry) :
    Becomes minimize m { m with registry }
  | compile {formula : String} {program : Program α}
    (h : FormulaFit.compile formula m.registry .full = .ok program) :
    Becomes minimize m ⟨m.registry.freeze, some program, none⟩
  | fit {formula : String} {program : Program α} {h : Histogram α} {options : FitOptions α}
    {fit : Fit α} (hc : FormulaFit.compile formula m.registry .full = .ok program)
    (hf : fitPoints minimize program m.registry.params h.bins options = .ok fit) :
    Becomes minimize m ⟨m.registry.freeze, some program,
      some { fit with names := m.registry.qualifiedNames }⟩

theorem tryAdd_cases (m : Model α) (name : String) (basis : Basis α)
    (params : List (ParamSpec α)) :
    (∃ e, m.registry.register name basis params = .error e ∧
        m.tryAdd name basis params = (.error (.registration e), m)) ∨
      ∃ registry, m.registry.register name basis params = .ok registry ∧
        m.tryAdd name basis params = (.ok (), { m with registry }) := by
  cases registered : m.registry.register name basis params with
  | error e =>
    refine Or.inl ⟨e, rfl, ?_⟩
    rw [tryAdd, Registry.tryRegister_of_error registered]
    rfl
  | ok registry =>
    refine Or.inr ⟨registry, rfl, ?_⟩
    rw [tryAdd, Registry.tryRegister_of_ok registered]
    rfl

theorem tryCompile_cases (m : Model α) (formula : String) :
    (∃ e, FormulaFit.compile formula m.registry .full = .error e ∧
        m.tryCompile formula = (.error (.formula e), m)) ∨
      ∃ program, FormulaFit.compile formula m.registry .full = .ok program ∧
        m.tryCompile formula = (.ok program, ⟨m.registry.freeze, some program, none⟩) := by
  unfold tryCompile
  cases FormulaFit.compile formula m.registry .full with
  | error e => exact Or.inl ⟨e, rfl, rfl⟩
  | ok program => exact Or.inr ⟨program, rfl, rfl⟩

/-- A fit ends with its formula, with an error after that, or with a result. -/
theorem fitTo_outcome (m : Model α) (minimize : Minimizer α) (h : Histogram α) (formula : String)
    (options : FitOptions α) :
    (∃ e, FormulaFit.compile formula m.registry .full = .error e ∧
        m.fitTo minimize h formula options = (.error (.model (.formula e)), m)) ∨
      ∃ program, FormulaFit.compile formula m.registry .full = .ok program ∧
        ((∃ e, fitPoints minimize program m.registry.params h.bins options = .error e ∧
            m.fitTo minimize h formula options =
              (.error e, ⟨m.registry.freeze, some program, none⟩)) ∨
          ∃ fit, fitPoints minimize program m.registry.params h.bins options = .ok fit ∧
            m.fitTo minimize h formula options =
              (.ok { fit with names := m.registry.qualifiedNames },
                ⟨m.registry.freeze, some program,
                  some { fit with names := m.registry.qualifiedNames }⟩)) := by
  unfold fitTo
  rcases m.tryCompile_cases formula with ⟨e, refused, stays⟩ | ⟨program, compiled, moves⟩
  · rw [stays]
    exact Or.inl ⟨e, refused, rfl⟩
  · rw [moves]
    refine Or.inr ⟨program, compiled, ?_⟩
    dsimp only
    cases fitted : fitPoints minimize program m.registry.params h.bins options with
    | error e =>
      refine Or.inl ⟨e, rfl, ?_⟩
      rw [Registry.freeze, fitted]
    | ok fit =>
      refine Or.inr ⟨fit, rfl, ?_⟩
      rw [Registry.freeze, fitted]
      rfl

theorem fitTo_becomes (m : Model α) (minimize : Minimizer α) (h : Histogram α) (formula : String)
    (options : FitOptions α) : m.Becomes minimize (m.fitTo minimize h formula options).2 := by
  rcases m.fitTo_outcome minimize h formula options with
    ⟨e, -, stays⟩ | ⟨program, hc, ⟨e, -, moves⟩ | ⟨fit, hf, moves⟩⟩
  · rw [stays]
    exact .same
  · rw [moves]
    exact .compile hc
  · rw [moves]
    exact .fit hc hf

theorem after_becomes (minimize : Minimizer α) (m : Model α) (operation : Operation α) :
    m.Becomes minimize (m.after minimize operation) := by
  cases operation with
  | add name basis params =>
    rw [after]
    rcases m.tryAdd_cases name basis params with ⟨e, -, stays⟩ | ⟨registry, hr, moves⟩
    · rw [stays]
      exact .same
    · rw [moves]
      exact .add hr
  | compile formula =>
    rw [after]
    rcases m.tryCompile_cases formula with ⟨e, -, stays⟩ | ⟨program, hc, moves⟩
    · rw [stays]
      exact .same
    · rw [moves]
      exact .compile hc
  | fit h formula options => exact m.fitTo_becomes minimize h formula options
  | evaluate | component | draw => exact .same

/-- What holds of a model between calls. -/
structure Consistent (minimize : Minimizer α) (m : Model α) : Prop where
  reachable : m.registry.Reachable
  frozen : m.registry.frozen = m.program.isSome
  program : ∀ program, m.program = some program →
    program.paramsLength = m.registry.paramsLength
  fit : ∀ fit, m.fit = some fit → ∃ program h options found, m.program = some program ∧
    fitPoints minimize program m.registry.params (Histogram.bins h) options = .ok found ∧
    fit = { found with names := m.registry.qualifiedNames }

theorem paramsLength_of_compile {formula : String} {registry : Registry α} {program : Program α}
    (h : FormulaFit.compile formula registry .full = .ok program) :
    program.paramsLength = registry.paramsLength := by
  obtain ⟨terms, compact, -, compacts⟩ := compacts_of_full h
  exact compacts.fullLength

theorem Consistent.empty (minimize : Minimizer α) : (Model.empty : Model α).Consistent minimize :=
  ⟨.empty, rfl, by simp [Model.empty], by simp [Model.empty]⟩

theorem Consistent.program_eq_none (hm : m.Consistent minimize)
    (building : m.registry.frozen = false) : m.program = none := by
  have frozen := hm.frozen
  rw [building] at frozen
  simpa using frozen.symm

theorem Consistent.becomes {next : Model α} (hm : m.Consistent minimize)
    (h : m.Becomes minimize next) : next.Consistent minimize := by
  cases h with
  | same => exact hm
  | @add name basis params registry h =>
    obtain ⟨⟨building, -⟩, rfl⟩ := Registry.register_eq_ok_iff.mp h
    have none := hm.program_eq_none building
    refine ⟨.register hm.reachable h, hm.frozen, ?_, ?_⟩
    · intro p hp
      simp [none] at hp
    · intro f hfit
      obtain ⟨p, -, -, -, hp, -⟩ := hm.fit f hfit
      simp [none] at hp
  | @compile formula program h =>
    refine ⟨.freeze hm.reachable, rfl, ?_, by simp⟩
    have length := paramsLength_of_compile h
    rintro p hp
    cases hp
    exact length
  | @fit formula program h options fit hc hf =>
    have length := paramsLength_of_compile hc
    refine ⟨.freeze hm.reachable, rfl, ?_, ?_⟩
    · rintro p hp
      cases hp
      exact length
    · rintro f hfit
      cases hfit
      exact ⟨program, h, options, fit, rfl, hf, rfl⟩

theorem Consistent.run (hm : m.Consistent minimize) (operations : List (Operation α)) :
    (m.run minimize operations).Consistent minimize := by
  induction operations generalizing m with
  | nil => exact hm
  | cons operation operations ih => exact ih (hm.becomes (after_becomes minimize m operation))

/-- A frozen registry stays as it is. -/
theorem Becomes.registry_eq {next : Model α} (h : m.Becomes minimize next)
    (frozen : m.registry.frozen = true) : next.registry = m.registry := by
  have freeze : m.registry.freeze = m.registry := by
    rw [Registry.freeze, ← frozen]
  cases h with
  | same => rfl
  | add h =>
    have building := (Registry.register_eq_ok_iff.mp h).1.1
    rw [frozen] at building
    cases building
  | compile h => exact freeze
  | fit hc hf => exact freeze

theorem run_registry_eq (frozen : m.registry.frozen = true) (operations : List (Operation α)) :
    (m.run minimize operations).registry = m.registry := by
  induction operations generalizing m with
  | nil => rfl
  | cons operation operations ih =>
    have same := (after_becomes minimize m operation).registry_eq frozen
    have rest := ih (m := m.after minimize operation) (same ▸ frozen)
    exact rest.trans same

theorem add_of_frozen (frozen : m.registry.frozen = true) (name : String) (basis : Basis α)
    (params : List (ParamSpec α)) :
    m.add name basis params = .error (.registration (.frozen name)) := by
  rw [add, tryAdd, Registry.tryRegister, if_pos frozen]
  rfl

/-- A fit that fails leaves the model alone if its formula cannot be compiled, and otherwise with
the new program and no fit. -/
theorem fitTo_eq_error {h : Histogram α} {formula : String} {options : FitOptions α} {e : FitError}
    (failed : (m.fitTo minimize h formula options).1 = .error e) :
    (∃ e', FormulaFit.compile formula m.registry .full = .error e' ∧
        (m.fitTo minimize h formula options).2 = m) ∨
      ∃ program, FormulaFit.compile formula m.registry .full = .ok program ∧
        (m.fitTo minimize h formula options).2 = ⟨m.registry.freeze, some program, none⟩ := by
  rcases m.fitTo_outcome minimize h formula options with
    ⟨e', hc, stays⟩ | ⟨program, hc, ⟨e', -, moves⟩ | ⟨fit, -, moves⟩⟩
  · exact Or.inl ⟨e', hc, by rw [stays]⟩
  · exact Or.inr ⟨program, hc, by rw [moves]⟩
  · rw [moves] at failed
    cases failed

/-- What callers may rely on between calls, whatever they call next. -/
structure Sound (minimize : Minimizer α) (m : Model α) : Prop where
  stage : m.stage = .compiled ↔ m.program.isSome
  length : ∀ program, m.program = some program → program.paramsLength = m.registry.paramsLength
  settled : m.program.isSome → ∀ operations, (m.run minimize operations).registry = m.registry ∧
    ∀ name basis params, (m.run minimize operations).add name basis params =
      .error (.registration (.frozen name))
  fit : ∀ fit, m.fit = some fit → ∃ program h options found, m.program = some program ∧
    program.verify = .ok () ∧
    fitPoints minimize program m.registry.params (Histogram.bins h) options = .ok found ∧
    fit = { found with names := m.registry.qualifiedNames } ∧
    fit.names.length = program.paramsLength ∧ fit.values.length = program.paramsLength ∧
    fit.errors.length = program.paramsLength ∧ fit.fixed.length = program.paramsLength
  failedAdd : ∀ name basis params e, m.add name basis params = .error e →
    m.after minimize (.add name basis params) = m
  failedCompile : ∀ formula e, m.compile formula = .error e →
    m.after minimize (.compile formula) = m
  refusedFit : ∀ h formula options e, FormulaFit.compile formula m.registry .full = .error e →
    (m.fitTo minimize h formula options).1 = .error (.model (.formula e)) ∧
      m.after minimize (.fit h formula options) = m
  compiledFit : ∀ h formula options program,
    FormulaFit.compile formula m.registry .full = .ok program →
      (m.after minimize (.fit h formula options)).program = some program ∧
      (m.after minimize (.fit h formula options)).fit =
        (m.fitTo minimize h formula options).1.toOption
  failedFit : ∀ h formula options e, (m.fitTo minimize h formula options).1 = .error e →
    (∃ e', FormulaFit.compile formula m.registry .full = .error e' ∧
      m.after minimize (.fit h formula options) = m) ∨
    ∃ program, FormulaFit.compile formula m.registry .full = .ok program ∧
      m.after minimize (.fit h formula options) = ⟨m.registry.freeze, some program, none⟩

theorem Consistent.lengths (hm : m.Consistent minimize) {program : Program α}
    (hp : m.program = some program) {points : List (Point α)} {options : FitOptions α}
    {found : Fit α}
    (h : fitPoints minimize program m.registry.params points options = .ok found) :
    m.registry.qualifiedNames.length = program.paramsLength ∧
      found.values.length = program.paramsLength ∧ found.errors.length = program.paramsLength ∧
      found.fixed.length = program.paramsLength := by
  obtain ⟨count, -, -, objective, minimum, chi2, rfl, -, rfl⟩ := fitPoints_eq_ok h
  refine ⟨?_, ?_, ?_, ?_⟩
  · rw [hm.reachable.wellFormed.length_qualifiedNames, hm.program program hp]
  · rw [Objective.length_expand, length_fitObjective_base, count]
  · rw [Objective.length_write, List.length_map, count]
  · rw [List.length_map, count]

theorem Consistent.sound (hm : m.Consistent minimize) : m.Sound minimize where
  stage := by
    rw [← hm.frozen, stage]
    split <;> simp_all
  length := hm.program
  settled := by
    intro compiled operations
    have frozen := hm.frozen.trans compiled
    have same : (m.run minimize operations).registry = m.registry :=
      run_registry_eq frozen operations
    exact ⟨same, add_of_frozen (same ▸ frozen)⟩
  fit := by
    intro fit hfit
    obtain ⟨program, h, options, found, hp, hf, rfl⟩ := hm.fit fit hfit
    obtain ⟨-, verified, -⟩ := fitPoints_eq_ok hf
    have lengths := hm.lengths hp hf
    exact ⟨program, h, options, found, hp, verified, hf, rfl, lengths⟩
  failedAdd := by
    intro name basis params e failed
    rw [add] at failed
    rcases m.tryAdd_cases name basis params with ⟨e', -, stays⟩ | ⟨registry, -, moves⟩
    · rw [after, stays]
    · rw [moves] at failed
      cases failed
  failedCompile := by
    intro formula e failed
    rw [compile] at failed
    rcases m.tryCompile_cases formula with ⟨e', -, stays⟩ | ⟨program, -, moves⟩
    · rw [after, stays]
    · rw [moves] at failed
      cases failed
  refusedFit := by
    intro h formula options e refused
    rcases m.fitTo_outcome minimize h formula options with ⟨e', hc, stays⟩ | ⟨program, hc, -⟩
    · cases hc.symm.trans refused
      rw [after, stays]
      exact ⟨rfl, rfl⟩
    · cases hc.symm.trans refused
  compiledFit := by
    intro h formula options program compiled
    rcases m.fitTo_outcome minimize h formula options with ⟨e, hc, -⟩ | ⟨program', hc, outcome⟩
    · cases hc.symm.trans compiled
    · cases hc.symm.trans compiled
      rcases outcome with ⟨e, -, moves⟩ | ⟨fit, -, moves⟩
      · rw [after, moves]
        exact ⟨rfl, rfl⟩
      · rw [after, moves]
        exact ⟨rfl, rfl⟩
  failedFit := by
    intro h formula options e failed
    exact fitTo_eq_error failed

/-- Calls in any order and with any outcome keep a new model sound. -/
theorem run_sound (minimize : Minimizer α) (operations : List (Operation α)) :
    ((Model.empty : Model α).run minimize operations).Sound minimize :=
  ((Consistent.empty minimize).run operations).sound

end Model

end FormulaFit

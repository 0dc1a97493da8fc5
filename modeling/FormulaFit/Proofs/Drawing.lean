import FormulaFit.LeastSquares.LevenbergMarquardt
import FormulaFit.Proofs.Checking
import FormulaFit.Proofs.ModelRuns

namespace FormulaFit

section

variable {α : Type} [Scalar α]

theorem Scan.run_freeze (registry : Registry α) (layout : Layout) (s : Scan α)
    (tokens : List Token) : s.run registry.freeze layout tokens = s.run registry layout tokens := by
  induction tokens generalizing s with
  | nil => rfl
  | cons t tokens ih =>
    have same : s.step registry.freeze layout t = s.step registry layout t := rfl
    simp only [Scan.run, same, ih]

theorem compile_freeze (formula : String) (registry : Registry α) (layout : Layout) :
    compile formula registry.freeze layout = compile formula registry layout := by
  rw [compile, compile, compileTokens, compileTokens, Scan.run_freeze]
  rfl

end

namespace Component

variable {α : Type} [Scalar α] {c : Component α} {xs : List α}

theorem sample_eq_ok_iff {points : List (α × α)} :
    c.sample xs = .ok points ↔
      points.map Prod.fst = xs ∧ ∀ p ∈ points, c.value p.1 = .ok p.2 := by
  have pair (x : α) (p : α × α) :
      (c.value x).map (fun y => (x, y)) = .ok p ↔ p.1 = x ∧ c.value p.1 = .ok p.2 := by
    constructor
    · intro h
      cases hv : c.value x with
      | error e => simp [hv, Except.map] at h
      | ok y =>
        rw [hv] at h
        cases h
        exact ⟨rfl, hv⟩
    · rintro ⟨rfl, h⟩
      rw [h]
      rfl
  rw [sample, mapM_eq_ok_iff]
  simp only [pair]
  induction xs generalizing points with
  | nil => cases points <;> simp
  | cons x xs ih =>
    cases points with
    | nil => simp
    | cons p points => simp [ih, and_assoc, and_left_comm]

theorem sample_eq_error_iff (reliable : c.Reliable) {e : EvalError} :
    c.sample xs = .error e ↔
      e = .outOfBounds ∧ ∃ x ∈ xs, c.program.evaluate c.params x = .error .outOfBounds := by
  have stopped {e : EvalError} (failed : c.sample xs = .error e) :
      e = .outOfBounds ∧ ∃ x ∈ xs, c.program.evaluate c.params x = .error e := by
    obtain ⟨before, x, after, rfl, -, hx⟩ := mapM_eq_error_iff.mp failed
    cases hv : c.value x with
    | ok y => simp [hv, Except.map] at hx
    | error e' =>
      rw [hv] at hx
      cases hx
      rw [reliable.value_eq] at hv
      exact ⟨reliable.error x e hv, x, by simp, hv⟩
  constructor
  · intro failed
    obtain ⟨rfl, found⟩ := stopped failed
    exact ⟨rfl, found⟩
  · rintro ⟨rfl, x, member, hx⟩
    cases sampled : c.sample xs with
    | error e => rw [(stopped sampled).1]
    | ok points =>
      obtain ⟨p, hp⟩ := exists_mapM_eq_ok_iff.mp ⟨points, sampled⟩ x member
      rw [reliable.value_eq, hx] at hp
      cases hp

end Component

namespace Model

variable {α : Type} [Scalar α] {minimize : Minimizer α} {m : Model α}

/-- The program is what its formula compiles to. -/
def Current (m : Model α) : Prop :=
  ∀ program, m.program = some program →
    FormulaFit.compile program.formula m.registry .full = .ok program

theorem current_of_compile {formula : String} {program : Program α} {registry : Registry α}
    (fit : Option (Fit α)) (h : FormulaFit.compile formula registry .full = .ok program) :
    (⟨registry.freeze, some program, fit⟩ : Model α).Current := by
  rintro p hp
  cases hp
  rw [compile_freeze, (scansTo_of_compile h).2.1]
  exact h

theorem Current.becomes {next : Model α} (current : m.Current) (hm : m.Consistent minimize)
    (h : m.Becomes minimize next) : next.Current := by
  cases h with
  | same => exact current
  | @add name basis params registry h =>
    -- A registry that takes a term is not frozen, so nothing was compiled before.
    have none := hm.program_eq_none (Registry.register_eq_ok_iff.mp h).1.1
    intro program hp
    simp [none] at hp
  | compile h => exact current_of_compile none h
  | fit hc hf => exact current_of_compile _ hc

theorem Current.run (current : m.Current) (hm : m.Consistent minimize)
    (operations : List (Operation α)) : (m.run minimize operations).Current := by
  induction operations generalizing m with
  | nil => exact current
  | cons operation operations ih =>
    have step := after_becomes minimize m operation
    exact ih (current.becomes hm step) (hm.becomes step)

/-- A model with a fit has a verified program, and a fitted value for each of its parameters. -/
theorem Consistent.fitted (hm : m.Consistent minimize) {fit : Fit α} (hfit : m.fit = some fit) :
    ∃ program, m.program = some program ∧ program.verify = .ok () ∧
      fit.values.length = m.registry.paramsLength := by
  obtain ⟨program, h, options, found, hp, hf, rfl⟩ := hm.fit fit hfit
  obtain ⟨-, verified, -⟩ := fitPoints_eq_ok hf
  exact ⟨program, hp, verified, (hm.lengths hp hf).2.1.trans (hm.program program hp)⟩

/-- Why a formula cannot be drawn: it is not compiled, not verified, or comes to a template that has
no value at one of the points. -/
inductive Undrawable (registry : Registry α) (xs : List α) (formula : String) : ModelError → Prop
  | formula {e : FormulaError} (h : FormulaFit.compile formula registry .full = .error e) :
    Undrawable registry xs formula (.formula e)
  | malformed {program : Program α} {e : EvalError}
    (h : FormulaFit.compile formula registry .full = .ok program)
    (refused : program.verify = .error e) : Undrawable registry xs formula (.evaluation e)
  | undefined {program : Program α} {x : α} {t : Term α}
    (h : FormulaFit.compile formula registry .full = .ok program)
    (verified : program.verify = .ok ()) (member : x ∈ xs) (mentioned : program.Mentions t)
    (valueless : ¬t.DefinedAt x) : Undrawable registry xs formula (.evaluation .outOfBounds)

/-- The graph shows what the recipe's formula is at the fitted values, at all the points. -/
structure Drawn (registry : Registry α) (fitted xs : List α) (r : Recipe) (g : Graph α) : Prop where
  label : g.label = r.label
  xs : g.points.map Prod.fst = xs
  values : ∃ program, FormulaFit.compile r.formula registry .full = .ok program ∧
    program.verify = .ok () ∧ ∀ p ∈ g.points, program.evaluate fitted p.1 = .ok p.2

theorem mem_terms_of_mentions {formula : String} {registry : Registry α} {program : Program α}
    (h : FormulaFit.compile formula registry .full = .ok program) {t : Term α}
    (mentioned : program.Mentions t) : t ∈ registry.terms := by
  obtain ⟨offset, member⟩ := mentioned
  obtain ⟨terms, compact, -, compacts⟩ := compacts_of_full h
  exact compacts.mem_registry (compacts.mem_terms member).1

theorem Undrawable.unique {registry : Registry α} {xs : List α} {formula : String}
    {e e' : ModelError} (h : Undrawable registry xs formula e)
    (h' : Undrawable registry xs formula e') : e = e' := by
  cases h <;> cases h' <;> simp_all

theorem Drawn.not_undrawable {registry : Registry α} {fitted xs : List α} {r : Recipe}
    {g : Graph α} (hg : Drawn registry fitted xs r g) (reach : registry.Reachable)
    (enough : registry.paramsLength ≤ fitted.length) (e : ModelError) :
    ¬Undrawable registry xs r.formula e := by
  obtain ⟨-, rfl, program, compiled, verified, values⟩ := hg
  rintro (⟨failed⟩ | ⟨h, refused⟩ | ⟨h, -, member, mentioned, valueless⟩)
  · rw [compiled] at failed
    cases failed
  · cases compiled.symm.trans h
    rw [verified] at refused
    cases refused
  · cases compiled.symm.trans h
    obtain ⟨p, hp, rfl⟩ := List.mem_map.mp member
    have stopped := ((compile_staysInside reach compiled).outOfBounds fitted p.1).mpr
      ⟨paramsLength_of_compile compiled ▸ enough, _, mentioned, valueless⟩
    rw [values p hp] at stopped
    cases stopped

section

variable {fit : Fit α} {xs : List α} {r : Recipe}

theorem component_eq (hfit : m.fit = some fit) (recipe : String) :
    m.component recipe = Component.compile recipe m.registry fit.values := by
  simp only [component, Model.fitted, hfit]
  rfl

/-- What drawing a recipe comes to. -/
theorem drawRecipe_cases (reach : m.registry.Reachable) (hfit : m.fit = some fit)
    (enough : m.registry.paramsLength ≤ fit.values.length) (xs : List α) (r : Recipe) :
    (∃ e, m.drawRecipe xs r = .error e ∧ Undrawable m.registry xs r.formula e) ∨
      ∃ g, m.drawRecipe xs r = .ok g ∧ Drawn m.registry fit.values xs r g := by
  have drawn : m.drawRecipe xs r = do
      let component ← Component.compile r.formula m.registry fit.values
      let points ← (component.sample xs).mapError .evaluation
      return ⟨r.label, points⟩ := by
    rw [drawRecipe, component_eq hfit]
  rw [drawn]
  rcases Component.compile_cases reach r.formula enough with
    ⟨e, failed, hc⟩ | ⟨full, compiled, ⟨e, refused, hc⟩ | ⟨verified, c, hc, agrees⟩⟩
  · rw [hc]
    exact Or.inl ⟨_, rfl, .formula failed⟩
  · rw [hc]
    exact Or.inl ⟨_, rfl, .malformed compiled refused⟩
  · have reliable := Component.reliable_of_compile reach hc
    rw [hc]
    cases sampled : c.sample xs with
    | error e =>
      obtain ⟨rfl, x, member, stopped⟩ := (Component.sample_eq_error_iff reliable).mp sampled
      rw [agrees] at stopped
      obtain ⟨-, t, mentioned, valueless⟩ :=
        ((compile_staysInside reach compiled).outOfBounds fit.values x).mp stopped
      refine Or.inl ⟨_, ?_, .undefined compiled verified member mentioned valueless⟩
      simp [sampled, Except.mapError, bind, Except.bind]
    | ok points =>
      obtain ⟨places, values⟩ := Component.sample_eq_ok_iff.mp sampled
      refine Or.inr ⟨⟨r.label, points⟩, ?_, rfl, places, full, compiled, verified, ?_⟩
      · simp [sampled, Except.mapError, bind, Except.bind, pure, Except.pure]
      · intro p hp
        rw [← agrees, ← reliable.value_eq]
        exact values p hp

theorem drawRecipe_eq_error_iff (reach : m.registry.Reachable) (hfit : m.fit = some fit)
    (enough : m.registry.paramsLength ≤ fit.values.length) {e : ModelError} :
    m.drawRecipe xs r = .error e ↔ Undrawable m.registry xs r.formula e := by
  rcases drawRecipe_cases reach hfit enough xs r with ⟨e', failed, undrawable⟩ | ⟨g, drawn, hg⟩
  · rw [failed]
    constructor
    · intro h
      cases h
      exact undrawable
    · intro h
      rw [h.unique undrawable]
  · rw [drawn]
    have never := hg.not_undrawable reach enough e
    simp [never]

theorem drawRecipe_eq_ok (reach : m.registry.Reachable) (hfit : m.fit = some fit)
    (enough : m.registry.paramsLength ≤ fit.values.length) {g : Graph α}
    (h : m.drawRecipe xs r = .ok g) : Drawn m.registry fit.values xs r g := by
  rcases drawRecipe_cases reach hfit enough xs r with ⟨e, failed, -⟩ | ⟨g', drawn, hg⟩
  · rw [h] at failed
    cases failed
  · cases h.symm.trans drawn
    exact hg

theorem exists_drawRecipe_iff (reach : m.registry.Reachable) (hfit : m.fit = some fit)
    (enough : m.registry.paramsLength ≤ fit.values.length) :
    (∃ g, m.drawRecipe xs r = .ok g) ↔ ∀ e, ¬Undrawable m.registry xs r.formula e := by
  rcases drawRecipe_cases reach hfit enough xs r with ⟨e, failed, undrawable⟩ | ⟨g, drawn, hg⟩
  · rw [failed]
    have some : ∃ e, Undrawable m.registry xs r.formula e := ⟨e, undrawable⟩
    simpa using some
  · exact ⟨fun _ => hg.not_undrawable reach enough, fun _ => ⟨g, drawn⟩⟩

end

/-- What callers may rely on when they draw a model that holds a fit. -/
structure DrawsFit (m : Model α) (program : Program α) (fit : Fit α) : Prop where
  error : ∀ recipes xs e, m.draw recipes xs = .error e ↔ ∃ before r after,
    ⟨"model", program.formula⟩ :: recipes = before ++ r :: after ∧
      (∀ earlier ∈ before, ∀ e, ¬Undrawable m.registry xs earlier.formula e) ∧
      Undrawable m.registry xs r.formula e
  succeeds : ∀ recipes xs, (∀ x ∈ xs, ∀ t ∈ m.registry.terms, t.DefinedAt x) →
    ((∃ graphs, m.draw recipes xs = .ok graphs) ↔ ∀ r ∈ recipes, ∃ p,
      FormulaFit.compile r.formula m.registry .full = .ok p ∧ p.verify = .ok ())
  whole : ∀ xs e, Undrawable m.registry xs program.formula e → e = .evaluation .outOfBounds
  componentParameters : ∀ recipe expected found,
    m.component recipe ≠ .error (.evaluation (.missingParameters expected found))
  drawParameters : ∀ recipes xs expected found,
    m.draw recipes xs ≠ .error (.evaluation (.missingParameters expected found))
  component : ∀ recipe c, m.component recipe = .ok c → c.Reliable
  graphs : ∀ recipes xs graphs, m.draw recipes xs = .ok graphs →
    List.Forall₂ (Drawn m.registry fit.values xs) (⟨"model", program.formula⟩ :: recipes) graphs
  rows : ∀ recipes xs graphs, m.draw recipes xs = .ok graphs →
    graphs.length = recipes.length + 1 ∧ ∀ g ∈ graphs, g.points.length = xs.length ∧
      ∀ i (hi : i < xs.length), ∃ y, g.points[i]? = some (xs[i], y)
  first : ∀ recipes xs graphs, m.draw recipes xs = .ok graphs → ∃ g rest, graphs = g :: rest ∧
    g.label = "model" ∧ ∀ p ∈ g.points, m.evaluate fit.values p.1 = .ok p.2

/-- Where all templates have values, a formula is drawn if it is compiled and verified. -/
theorem not_undrawable_iff {registry : Registry α} {xs : List α} {formula : String}
    (defined : ∀ x ∈ xs, ∀ t ∈ registry.terms, t.DefinedAt x) :
    (∀ e, ¬Undrawable registry xs formula e) ↔ ∃ p,
      FormulaFit.compile formula registry .full = .ok p ∧ p.verify = .ok () := by
  constructor
  · intro never
    cases compiled : FormulaFit.compile formula registry .full with
    | error e => exact absurd (.formula compiled) (never _)
    | ok p =>
      cases verified : p.verify with
      | error e => exact absurd (.malformed compiled verified) (never _)
      | ok u => exact ⟨p, rfl, verified⟩
  · rintro ⟨p, compiled, verified⟩ e
      (⟨failed⟩ | ⟨h, refused⟩ | ⟨h, -, member, mentioned, valueless⟩)
    · cases compiled.symm.trans failed
    · cases compiled.symm.trans h
      rw [verified] at refused
      cases refused
    · exact valueless (defined _ member _ (mem_terms_of_mentions h mentioned))

theorem Drawn.point {registry : Registry α} {fitted xs : List α} {r : Recipe} {g : Graph α}
    (hg : Drawn registry fitted xs r g) : g.points.length = xs.length ∧
      ∀ i (hi : i < xs.length), ∃ y, g.points[i]? = some (xs[i], y) := by
  obtain ⟨-, rfl, -⟩ := hg
  refine ⟨(List.length_map _).symm, ?_⟩
  intro i hi
  have inside : i < g.points.length := by simpa using hi
  exact ⟨g.points[i].2, by simp [inside]⟩

theorem Undrawable.ne_missingParameters {registry : Registry α} {xs : List α} {formula : String}
    {e : ModelError} (h : Undrawable registry xs formula e) (expected found : Nat) :
    e ≠ .evaluation (.missingParameters expected found) := by
  rintro rfl
  cases h with
  | malformed compiled refused => simpa using Program.verify_eq_error refused

section

variable {program : Program α} {fit : Fit α} {recipes : List Recipe} {xs : List α}

theorem draw_eq (hp : m.program = some program) (recipes : List Recipe) (xs : List α) :
    m.draw recipes xs = (⟨"model", program.formula⟩ :: recipes).mapM (m.drawRecipe xs) := by
  rw [draw, hp]

/-- The first recipe that cannot be drawn decides. -/
theorem draw_eq_error_iff (reach : m.registry.Reachable) (hp : m.program = some program)
    (hfit : m.fit = some fit) (enough : m.registry.paramsLength ≤ fit.values.length)
    {e : ModelError} :
    m.draw recipes xs = .error e ↔ ∃ before r after,
      ⟨"model", program.formula⟩ :: recipes = before ++ r :: after ∧
        (∀ earlier ∈ before, ∀ e, ¬Undrawable m.registry xs earlier.formula e) ∧
        Undrawable m.registry xs r.formula e := by
  rw [draw_eq hp, mapM_eq_error_iff]
  simp only [exists_drawRecipe_iff reach hfit enough, drawRecipe_eq_error_iff reach hfit enough]

theorem forall₂_drawn (reach : m.registry.Reachable) (hp : m.program = some program)
    (hfit : m.fit = some fit) (enough : m.registry.paramsLength ≤ fit.values.length)
    {graphs : List (Graph α)} (h : m.draw recipes xs = .ok graphs) :
    List.Forall₂ (Drawn m.registry fit.values xs) (⟨"model", program.formula⟩ :: recipes)
      graphs := by
  rw [draw_eq hp, mapM_eq_ok_iff] at h
  exact h.imp fun r g => drawRecipe_eq_ok reach hfit enough

theorem component_ne_missingParameters (reach : m.registry.Reachable) (hfit : m.fit = some fit)
    (enough : m.registry.paramsLength ≤ fit.values.length) (recipe : String)
    (expected found : Nat) :
    m.component recipe ≠ .error (.evaluation (.missingParameters expected found)) := by
  rw [component_eq hfit]
  rcases Component.compile_cases reach recipe enough with
    ⟨e, -, hc⟩ | ⟨full, -, ⟨e, refused, hc⟩ | ⟨-, c, hc, -⟩⟩
  · simp [hc]
  · rw [hc]
    rintro ⟨⟩
    simpa using Program.verify_eq_error refused
  · simp [hc]

/-- Only a template can keep a compiled and verified formula from being drawn. -/
theorem Undrawable.eq_outOfBounds {registry : Registry α} {formula : String} {e : ModelError}
    (h : Undrawable registry xs formula e)
    (compiled : FormulaFit.compile formula registry .full = .ok program)
    (verified : program.verify = .ok ()) : e = .evaluation .outOfBounds := by
  cases h with
  | formula failed => cases compiled.symm.trans failed
  | malformed h refused =>
    cases compiled.symm.trans h
    rw [verified] at refused
    cases refused
  | undefined => rfl

theorem drawsFit (hm : m.Consistent minimize) (current : m.Current)
    (hp : m.program = some program) (hfit : m.fit = some fit) : m.DrawsFit program fit := by
  obtain ⟨found, hfound, verified, length⟩ := hm.fitted hfit
  cases hp.symm.trans hfound
  have reach := hm.reachable
  have compiled := current program hp
  have enough : m.registry.paramsLength ≤ fit.values.length := Nat.le_of_eq length.symm
  refine ⟨fun recipes xs e => draw_eq_error_iff reach hp hfit enough, ?_, ?_,
    component_ne_missingParameters reach hfit enough, ?_, ?_,
    fun recipes xs graphs => forall₂_drawn reach hp hfit enough, ?_, ?_⟩
  · intro recipes xs defined
    rw [draw_eq hp, exists_mapM_eq_ok_iff, List.forall_mem_cons]
    simp only [exists_drawRecipe_iff reach hfit enough, not_undrawable_iff defined]
    exact and_iff_right ⟨program, compiled, verified⟩
  · intro xs e undrawable
    exact undrawable.eq_outOfBounds compiled verified
  · intro recipes xs expected found failed
    obtain ⟨before, r, after, -, -, undrawable⟩ :=
      (draw_eq_error_iff reach hp hfit enough).mp failed
    exact undrawable.ne_missingParameters expected found rfl
  · intro recipe c hc
    rw [component_eq hfit] at hc
    exact Component.reliable_of_compile reach hc
  · intro recipes xs graphs h
    have each := forall₂_drawn reach hp hfit enough h
    refine ⟨each.length_eq.symm, ?_⟩
    intro g member
    obtain ⟨j, hj, rfl⟩ := List.getElem_of_mem member
    exact (each.get (each.length_eq ▸ hj) hj).point
  · intro recipes xs graphs h
    cases forall₂_drawn reach hp hfit enough h with
    | @cons _ g _ rest hg _ =>
      refine ⟨g, rest, rfl, hg.label, ?_⟩
      obtain ⟨-, -, again, recompiled, -, values⟩ := hg
      cases compiled.symm.trans recompiled
      intro p member
      rw [evaluate, hp]
      simp only [values p member]
      rfl

end

/-- A model that holds a fit, whatever led to it, draws the fit: first the whole formula, then the
recipes, each at all the points with its values at the fitted parameters. The first recipe that
cannot be drawn decides what a failure reports. -/
theorem run_drawsFit (minimize : Minimizer α) (operations : List (Operation α)) {fit : Fit α}
    (h : ((Model.empty : Model α).run minimize operations).fit = some fit) :
    ∃ program, ((Model.empty : Model α).run minimize operations).program = some program ∧
      ((Model.empty : Model α).run minimize operations).DrawsFit program fit := by
  have consistent : ((Model.empty : Model α).run minimize operations).Consistent minimize :=
    (Consistent.empty minimize).run operations
  have current : ((Model.empty : Model α).run minimize operations).Current :=
    Current.run (by simp [Current, Model.empty]) (.empty minimize) operations
  obtain ⟨program, hp, -⟩ := consistent.fitted h
  exact ⟨program, hp, drawsFit consistent current hp h⟩

/-- Two terms, one of them without values, and a fit of the other one to a single bin. -/
def flatOperations : List (Operation Float) :=
  [.add "t" (.template uncentred) [.held "n" 1.0], .add "b" (.polynomial 0) [.held "c" 2.0],
    .fit ⟨[⟨0.0, 2.0, 1.0⟩], by simp⟩ "b" ⟨none, false, false, false⟩]

def flatModel : Model Float :=
  empty.run LeastSquares.levenbergMarquardt flatOperations

/-- Twice a constant is drawn beside the constant that is fitted. -/
theorem run_drawsFit_flat : ∃ program fit graphs, flatModel.program = some program ∧
    flatModel.fit = some fit ∧ flatModel.DrawsFit program fit ∧
    flatModel.draw [⟨"twice", "b+b"⟩] [0.0, 1.0] = .ok graphs ∧ graphs.length = 2 := by
  obtain ⟨fit, hfit⟩ : ∃ fit, flatModel.fit = some fit :=
    Option.isSome_iff_exists.mp (by decide +kernel)
  obtain ⟨program, hp, draws⟩ := run_drawsFit LeastSquares.levenbergMarquardt flatOperations hfit
  have shown : (flatModel.draw [⟨"twice", "b+b"⟩] [0.0, 1.0]).isOk = true := by decide +kernel
  cases h : flatModel.draw [⟨"twice", "b+b"⟩] [0.0, 1.0] with
  | error e =>
    rw [h] at shown
    cases shown
  | ok graphs => exact ⟨program, fit, graphs, hp, hfit, draws, rfl, (draws.rows _ _ _ h).1⟩

/-- A recipe that is compiled and verified can still fail to be drawn. -/
theorem exists_draw_outOfBounds : (∃ fit, flatModel.fit = some fit) ∧
    (∃ p, FormulaFit.compile "t" flatModel.registry .full = .ok p ∧ p.verify = .ok ()) ∧
    flatModel.draw [⟨"template", "t"⟩] [0.5] = .error (.evaluation .outOfBounds) := by
  refine ⟨Option.isSome_iff_exists.mp (by decide +kernel), ?_, ?_⟩
  · have verified : (match FormulaFit.compile "t" flatModel.registry .full with
        | .ok p => decide (p.verify.toOption = some ())
        | .error _ => false) = true := by
      decide +kernel
    split at verified
    next p compiled =>
      refine ⟨p, compiled, ?_⟩
      cases hv : p.verify with
      | ok u => rfl
      | error e => simp [hv, Except.toOption] at verified
    next => cases verified
  · have stopped : (match flatModel.draw [⟨"template", "t"⟩] [0.5] with
        | .error e => decide (e = .evaluation .outOfBounds)
        | .ok _ => false) = true := by
      decide +kernel
    split at stopped
    next e drawn => rw [drawn, of_decide_eq_true stopped]
    next => cases stopped

end Model

end FormulaFit

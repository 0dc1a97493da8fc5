import FormulaFit.Proofs.RegistryRuns
import FormulaFit.Proofs.Safety

namespace FormulaFit

section

variable {α : Type} {r next : Registry α}

/-- A name keeps its term when more terms are registered. -/
theorem Registry.Extends.get?_eq_some (h : r.Extends next) {name : String} {t : Term α}
    (found : r.get? name = some t) : next.get? name = some t := by
  obtain ⟨more, terms⟩ := h.terms
  have front : r.terms.find? (·.name = name) = some t := found
  rw [Registry.get?, ← terms, List.find?_append, front]
  rfl

theorem Registry.Extends.paramsLength_le (h : r.Extends next) :
    r.paramsLength ≤ next.paramsLength :=
  h.params.length_le

/-- The error does not come from a name without a term. -/
def FormulaError.Lasting (e : FormulaError) : Prop :=
  ∀ name span similar, e ≠ .unknownIdentifier name span similar

/-- The program as it is in a registry of more parameters. -/
def Program.widen (p : Program α) (length : Nat) : Program α :=
  match p.layout with
  | .full => { p with paramsLength := length }
  | .compact => p

theorem Program.widen_of_full {p : Program α} (full : p.layout = .full) (length : Nat) :
    p.widen length = { p with paramsLength := length } := by
  unfold widen
  split
  next => rfl
  next compact => simp [full] at compact

theorem Program.widen_of_compact {p : Program α} (compact : p.layout = .compact) (length : Nat) :
    p.widen length = p := by
  unfold widen
  split
  next full => simp [compact] at full
  next => rfl

end

namespace Scan

variable {α : Type} [Scalar α] {r next : Registry α} {layout : Layout} {formula : String}

theorem step_of_extends (h : r.Extends next) {s s' : Scan α} {t : Token}
    (hs : s.step r layout t = .ok s') : s.step next layout t = .ok s' := by
  cases takes_of_step hs with
  | number kind wants hn => exact (Takes.number kind wants hn).step
  | identifier kind wants hn => exact (Takes.identifier kind wants (h.get?_eq_some hn)).step
  | openParen kind wants => exact (Takes.openParen kind wants).step
  | closeParen kind holds hc => exact (Takes.closeParen kind holds hc).step
  | operator kind holds hp => exact (Takes.operator kind holds hp).step

/-- Only the search for a name reads the registry. -/
theorem step_error_of_lasting {s : Scan α} {t : Token} {e : FormulaError}
    (hs : s.step r layout t = .error e) (lasting : e.Lasting) (next : Registry α) :
    s.step next layout t = .error e := by
  unfold Scan.step at hs ⊢
  cases kind : t.kind with
  | identifier name =>
    simp only [kind] at hs ⊢
    cases wants : s.wantsOperand with
    | false => simpa [wants] using hs
    | true =>
      cases found : r.get? name with
      | some term => simp [wants, found] at hs
      | none =>
        have unknown : e = .unknownIdentifier name t.span
            (mostSimilar? name (r.terms.map Term.name)) := by
          simpa [wants, found] using hs.symm
        exact absurd unknown (lasting _ _ _)
  | number | openParen | closeParen | operator | other => simpa only [kind] using hs

theorem run_of_extends (h : r.Extends next) {s last : Scan α} {tokens : List Token}
    (hr : s.run r layout tokens = .ok last) : s.run next layout tokens = .ok last := by
  induction tokens generalizing s with
  | nil => exact hr
  | cons t tokens ih =>
    rw [Scan.run] at hr
    cases hs : s.step r layout t with
    | error e => simp [hs] at hr
    | ok s' =>
      rw [hs] at hr
      rw [run_cons_of_ok (step_of_extends h hs)]
      exact ih hr

theorem run_error_of_extends (h : r.Extends next) {s : Scan α} {tokens : List Token}
    {e : FormulaError} (hr : s.run r layout tokens = .error e) (lasting : e.Lasting) :
    s.run next layout tokens = .error e := by
  induction tokens generalizing s with
  | nil => cases hr
  | cons t tokens ih =>
    rw [Scan.run] at hr
    cases hs : s.step r layout t with
    | error e' =>
      rw [hs] at hr
      cases hr
      rw [Scan.run, step_error_of_lasting hs lasting next]
    | ok s' =>
      rw [hs] at hr
      rw [run_cons_of_ok (step_of_extends h hs)]
      exact ih hr

omit [Scalar α] in
theorem finish_of_ok {s : Scan α} {program : Program α}
    (h : s.finish formula r layout = .ok program) (next : Registry α) :
    s.finish formula next layout = .ok (program.widen next.paramsLength) := by
  unfold finish at h ⊢
  cases hp : popAll s.code s.pending with
  | error e => simp [hp] at h
  | ok reversed =>
    simp only [hp] at h ⊢
    split at h
    next => cases h
    next room =>
      rw [if_neg room]
      cases layout with
      | full | compact =>
        cases h
        rfl

omit [Scalar α] in
theorem finish_of_error {s : Scan α} {e : FormulaError}
    (h : s.finish formula r layout = .error e) (next : Registry α) :
    s.finish formula next layout = .error e := by
  unfold finish at h ⊢
  cases hp : popAll s.code s.pending with
  | error e' => simpa only [hp] using h
  | ok reversed =>
    simp only [hp] at h ⊢
    split at h
    next deep => simpa only [if_pos deep] using h
    next => cases layout <;> cases h

end Scan

variable {α : Type} [Scalar α] {r next : Registry α} {layout : Layout} {formula : String}
  {program : Program α}

theorem compile_of_extends (h : r.Extends next) (hc : compile formula r layout = .ok program) :
    compile formula next layout = .ok (program.widen next.paramsLength) := by
  rw [compile, compileTokens] at hc ⊢
  cases hr : Scan.start.run r layout (tokenize formula) with
  | error e => simp [hr] at hc
  | ok last =>
    rw [hr] at hc
    rw [Scan.run_of_extends h hr]
    exact Scan.finish_of_ok hc next

theorem compile_error_of_extends (h : r.Extends next) {e : FormulaError}
    (hc : compile formula r layout = .error e) (lasting : e.Lasting) :
    compile formula next layout = .error e := by
  rw [compile, compileTokens] at hc ⊢
  cases hr : Scan.start.run r layout (tokenize formula) with
  | error e' =>
    rw [hr] at hc
    cases hc
    rw [Scan.run_error_of_extends h hr lasting]
  | ok last =>
    rw [hr] at hc
    rw [Scan.run_of_extends h hr]
    exact Scan.finish_of_error hc next

/-- What a program is in a registry of more terms: the same instructions, with the same value on
every vector of all parameters. -/
structure Program.Undisturbed (r next : Registry α) (p later : Program α) : Prop where
  formula : later.formula = p.formula
  layout : later.layout = p.layout
  code : later.code = p.code
  bindings : later.bindings = p.bindings
  depth : later.depth = p.depth
  verify : later.verify = p.verify
  compact : p.layout = .compact → later = p
  lengths : p.layout = .full →
    p.paramsLength = r.paramsLength ∧ later.paramsLength = next.paramsLength
  evaluate : ∀ params x, next.paramsLength ≤ params.length →
    later.evaluate params x = p.evaluate params x
  evaluate_take : p.layout = .full → ∀ params x, next.paramsLength ≤ params.length →
    p.evaluate (params.take r.paramsLength) x = later.evaluate params x
  bound : ∀ params, next.paramsLength ≤ params.length →
    ∃ bound bound', p.bind params = .ok bound ∧ later.bind params = .ok bound' ∧
      ∀ x, later.evaluate bound' x = p.evaluate bound x

theorem undisturbed_of_full (reach : r.Reachable) (h : r.Extends next)
    (hc : compile formula r .full = .ok program) :
    program.Undisturbed r next { program with paramsLength := next.paramsLength } := by
  obtain ⟨terms, compact, -, compacts⟩ := compacts_of_full hc
  have full := compacts.fullLayout
  have length := compacts.fullLength
  have inside := compile_contained reach hc
  have longer := h.paramsLength_le
  -- Both programs run the same instructions once the vector is long enough for both.
  have same params (x : α) (enough : next.paramsLength ≤ params.length) :
      { program with paramsLength := next.paramsLength }.evaluate params x =
        program.evaluate params x := by
    have short : ¬params.length < program.paramsLength := by omega
    rw [Program.evaluate, Program.evaluate, if_neg short, if_neg (Nat.not_lt.mpr enough)]
  have cut params (x : α) (enough : next.paramsLength ≤ params.length) :
      program.evaluate (params.take program.paramsLength) x = program.evaluate params x :=
    Program.evaluate_take inside (by omega) x
  refine ⟨rfl, rfl, rfl, rfl, rfl, rfl, ?_, fun _ => ⟨length, rfl⟩, same, ?_, ?_⟩
  · intro compact
    simp [full] at compact
  · intro _ params x enough
    rw [same params x enough, ← length, cut params x enough]
  · intro params enough
    refine ⟨params.take program.paramsLength, params.take next.paramsLength,
      Program.bind_of_full full (by omega), Program.bind_of_full full enough, ?_⟩
    intro x
    have taken : next.paramsLength ≤ (params.take next.paramsLength).length := by
      rw [List.length_take, Nat.min_eq_left enough]
    rw [same _ x taken, ← cut _ x taken, List.take_take, Nat.min_eq_left (by omega)]

theorem undisturbed_of_compact (reach : r.Reachable) (h : r.Extends next)
    (hc : compile formula r .compact = .ok program) : program.Undisturbed r next program := by
  obtain ⟨terms, full, -, compacts⟩ := compacts_of_compact hc
  have compact := compacts.compactLayout
  refine ⟨rfl, rfl, rfl, rfl, rfl, rfl, fun _ => rfl, ?_, fun _ _ _ => rfl, ?_, ?_⟩
  · intro full
    simp [compact] at full
  · intro full
    simp [compact] at full
  · intro params enough
    have bound := compacts.bind_eq_ok reach (h.paramsLength_le.trans enough)
    exact ⟨_, _, bound, bound, fun _ => rfl⟩

theorem undisturbed_of_compile (reach : r.Reachable) (h : r.Extends next)
    (hc : compile formula r layout = .ok program) :
    program.Undisturbed r next (program.widen next.paramsLength) := by
  cases layout with
  | full =>
    obtain ⟨terms, compact, -, compacts⟩ := compacts_of_full hc
    rw [Program.widen_of_full compacts.fullLayout]
    exact undisturbed_of_full reach h hc
  | compact =>
    obtain ⟨terms, full, -, compacts⟩ := compacts_of_compact hc
    rw [Program.widen_of_compact compacts.compactLayout]
    exact undisturbed_of_compact reach h hc

/-- Later registrations do not disturb compiled formulas. A formula that compiles goes on to
compile, to the same instructions with the same values; one that fails goes on to fail for the same
reason, unless the reason was a name without a term. -/
theorem compile_undisturbed (reach : r.Reachable) (calls : List (Registry.Call α))
    (formula : String) (layout : Layout) :
    (∀ program, compile formula r layout = .ok program →
        ∃ later, compile formula (r.run calls) layout = .ok later ∧
          program.Undisturbed r (r.run calls) later) ∧
      ∀ e, compile formula r layout = .error e → e.Lasting →
        compile formula (r.run calls) layout = .error e := by
  have extended := r.extends_run calls
  refine ⟨?_, fun e => compile_error_of_extends extended⟩
  intro program hc
  exact ⟨_, compile_of_extends extended hc, undisturbed_of_compile reach extended hc⟩

/-- A registration under a name that is taken and one under a new name. -/
def laterCalls : List (Registry.Call Float) :=
  [.register "t" .gaussian [], .register "u" (.polynomial 0) [.held "d" 2.0]]

/-- A square keeps its value, and an open parenthesis its error, when one more registration fails
and another one succeeds. -/
theorem compile_undisturbed_square :
    ∃ (r : Registry Float) (program later : Program Float), r.Reachable ∧
      r.paramsLength = 1 ∧ (r.run laterCalls).paramsLength = 2 ∧
      compile "t*t" r .full = .ok program ∧ compile "t*t" (r.run laterCalls) .full = .ok later ∧
      (∀ params x, 2 ≤ params.length → later.evaluate params x = program.evaluate params x) ∧
      compile "(" r .full = .error (.unbalancedParen ⟨0, 1⟩) ∧
      compile "(" (r.run laterCalls) .full = .error (.unbalancedParen ⟨0, 1⟩) := by
  obtain ⟨r, registered, reach, one, named⟩ := Registry.exists_constant_registered
  have kinds : (tokenize "t*t").map Token.kind =
      [.identifier "t", .operator .mul, .identifier "t"] := by
    decide +kernel
  have t (level : Nat) : Reads r level [.identifier "t"] _ := .identifier named
  have square := Reads.operate .mul (Nat.zero_le 2) (t 2) (t 3)
  simp only [List.cons_append, List.nil_append] at square
  rw [← kinds] at square
  have compiled := compile_of_reads square
  rw [if_neg (by decide)] at compiled
  have lone : tokenize "(" = [⟨.openParen, ⟨0, 1⟩⟩] := by decide +kernel
  have failed : compile "(" r .full = .error (.unbalancedParen ⟨0, 1⟩) := by
    rw [compile, lone]
    rfl
  have two : (r.run laterCalls).paramsLength = 2 := by
    obtain ⟨-, equal⟩ := Registry.register_eq_ok_iff.mp registered
    rw [equal]
    decide +kernel
  obtain ⟨later, hlater, undisturbed⟩ :=
    (compile_undisturbed reach laterCalls "t*t" .full).1 _ compiled
  have fails := (compile_undisturbed reach laterCalls "(" .full).2 _ failed
    (by simp [FormulaError.Lasting])
  refine ⟨r, _, later, reach, one, two, compiled, hlater, ?_, failed, fails⟩
  intro params x enough
  exact undisturbed.evaluate params x (two ▸ enough)

end FormulaFit

import FormulaFit.Double
import FormulaFit.Proofs.Binding
import FormulaFit.Proofs.Depth
import FormulaFit.Proofs.Verification

namespace FormulaFit

variable {α : Type} [Scalar α] {registry : Registry α} {layout : Layout} {formula : String}
  {program : Program α}

/-- Every slice of a compiled program lies within the program's parameter vector. -/
theorem slice_le_of_compile (reach : registry.Reachable)
    (h : compile formula registry layout = .ok program) {t : Term α} {offset : Nat}
    (member : .term t offset ∈ program.code) : offset + t.arity ≤ program.paramsLength := by
  cases layout with
  | full =>
    obtain ⟨terms, compact, -, compacts⟩ := compacts_of_full h
    obtain ⟨mentioned, rfl⟩ := compacts.mem_terms member
    rw [compacts.fullLength]
    exact reach.wellFormed.slice_le (compacts.mem_registry mentioned)
  | compact =>
    obtain ⟨terms, full, -, compacts⟩ := compacts_of_compact h
    obtain ⟨before, after, rfl, rfl⟩ := compacts.mem_code_iff.mp member
    rw [compacts.compactLength]
    simp

theorem compile_contained (reach : registry.Reachable)
    (h : compile formula registry layout = .ok program) : program.Contained := by
  obtain ⟨-, -, -, room⟩ := scansTo_of_compile h
  refine ⟨?_, fun t offset => slice_le_of_compile reach h⟩
  intro before next front counted
  exact Nat.le_trans (le_greatestHeight_of_reached ⟨before, front, counted⟩) room

/-- The program refers to the term. -/
def Program.Mentions (p : Program α) (t : Term α) : Prop :=
  ∃ offset, .term t offset ∈ p.code

/-- A compiled program comes to all the terms that it refers to, even if an operator at its end
lacks operands. -/
theorem definedAt_iff_of_compile (h : compile formula registry layout = .ok program) {x : α} :
    program.DefinedAt x ↔ ∀ t, program.Mentions t → t.DefinedAt x := by
  have orderly := (scansTo_of_compile h).1.orderly
  constructor
  · rintro defined t ⟨offset, member⟩
    obtain ⟨before, after, split⟩ := List.append_of_mem member
    -- No term stands behind an operator that lacks operands.
    obtain ⟨size, counted⟩ := orderly.exists_count_of_term split
    exact defined before t offset after size split counted
  · intro defined before t offset after size split counted
    exact defined t ⟨offset, by simp [split]⟩

namespace Program

/-- The stack sizes that an evaluation goes through. -/
def stackSizes (p : Program α) (params : List α) (x : α) : Set Nat :=
  {size | ∃ before stack, before <+: p.code ∧ runCode params x 0 [] before = .ok stack ∧
    stack.length = size}

variable {p : Program α} {params : List α} {x : α}

theorem map_length_runCode_of_prefix (inside : p.Contained)
    (enough : p.paramsLength ≤ params.length) {before : List (Instruction α)}
    (front : before <+: p.code) (defined : DefinedFrom x 0 0 before) :
    (runCode params x 0 [] before).map List.length = countCode 0 0 before :=
  map_length_runCode (inside.of_prefix front) enough defined

/-- As far as an evaluation gets, its stack has the size that is counted. -/
theorem countCode_of_runCode (inside : p.Contained) (enough : p.paramsLength ≤ params.length)
    {before : List (Instruction α)} (front : before <+: p.code) {stack : List α}
    (hrun : runCode params x 0 [] before = .ok stack) :
    countCode 0 0 before = .ok stack.length := by
  have within : FormulaFit.Contained p.paramsLength 0 0 before := inside.of_prefix front
  by_cases defined : DefinedFrom x 0 0 before
  · rw [← map_length_runCode_of_prefix inside enough front defined, hrun]
    rfl
  · have stopped : runCode params x 0 [] before = .error .outOfBounds :=
      runCode_of_not_definedFrom within enough defined
    rw [hrun] at stopped
    cases stopped

theorem stackSizes_eq (inside : p.Contained) (enough : p.paramsLength ≤ params.length)
    (defined : p.DefinedAt x) : p.stackSizes params x = reachedSizes p.code := by
  ext size
  constructor
  · rintro ⟨before, stack, front, hrun, rfl⟩
    exact ⟨before, front, countCode_of_runCode inside enough front hrun⟩
  · rintro ⟨before, front, counted⟩
    have sizes := map_length_runCode_of_prefix inside enough front (defined.of_prefix front)
    rw [counted] at sizes
    cases hrun : runCode params x 0 [] before with
    | error e => simp [hrun, Except.map] at sizes
    | ok stack =>
      refine ⟨before, stack, front, hrun, ?_⟩
      simpa [hrun, Except.map] using sizes

theorem evaluate_of_underflow (enough : p.paramsLength ≤ params.length)
    {before after : List (Instruction α)} {op : Operator}
    (split : p.code = before ++ .operator op :: after) {stack : List α}
    (hrun : runCode params x 0 [] before = .ok stack) (low : stack.length < 2) :
    p.evaluate params x = .error (.stackUnderflow before.length op) := by
  have underflow (position : Nat) :
      (Instruction.operator op).run params x position stack =
        .error (.stackUnderflow position op) := by
    rcases stack with _ | ⟨v, _ | ⟨w, rest⟩⟩
    · rfl
    · rfl
    · exact absurd low (by simp)
  rw [evaluate, if_neg (Nat.not_lt.mpr enough), split, runCode_append, hrun]
  simp only [runCode, underflow, Nat.zero_add]

/-- An evaluation never leaves the value stack or the parameter vector, and the depth is the
greatest stack size that it reaches. It goes out of bounds in templates alone. -/
structure StaysInside (p : Program α) : Prop where
  depth_le : p.depth ≤ stackCapacity
  short : ∀ params x, params.length < p.paramsLength →
    p.evaluate params x = .error (.missingParameters p.paramsLength params.length)
  slice : ∀ t offset, .term t offset ∈ p.code →
    ∀ params : List α, p.paramsLength ≤ params.length →
      ∃ slice, paramSlice? params offset t.arity = some slice ∧ slice.length = t.basis.arity
  size_le : ∀ params x before stack, p.paramsLength ≤ params.length → before <+: p.code →
    runCode params x 0 [] before = .ok stack → stack.length ≤ p.depth
  room : ∀ params x before i after stack, p.paramsLength ≤ params.length →
    p.code = before ++ i :: after → runCode params x 0 [] before = .ok stack →
    (∀ op, i ≠ .operator op) → stack.length < stackCapacity
  underflow : ∀ params x before op after stack, p.paramsLength ≤ params.length →
    p.code = before ++ .operator op :: after → runCode params x 0 [] before = .ok stack →
    stack.length < 2 → p.evaluate params x = .error (.stackUnderflow before.length op)
  depth_reached : ∀ params x, p.paramsLength ≤ params.length →
    (∀ t, p.Mentions t → t.DefinedAt x) → IsGreatest (p.stackSizes params x) p.depth
  outOfBounds : ∀ params x, p.evaluate params x = .error .outOfBounds ↔
    p.paramsLength ≤ params.length ∧ ∃ t, p.Mentions t ∧ ¬t.DefinedAt x

end Program

theorem compile_staysInside (reach : registry.Reachable)
    (h : compile formula registry layout = .ok program) : program.StaysInside := by
  have inside := compile_contained reach h
  obtain ⟨scans, -, depth, room⟩ := scansTo_of_compile h
  refine ⟨depth ▸ room, fun params x => Program.evaluate_of_short, ?_, ?_, ?_, ?_, ?_, ?_⟩
  · intro t offset member params enough
    have hslice := paramSlice?_eq_some
      (Nat.le_trans (slice_le_of_compile reach h member) enough)
    exact ⟨_, hslice, length_of_paramSlice? hslice⟩
  · intro params x before stack enough front hrun
    rw [depth]
    exact le_greatestHeight_of_reached
      ⟨before, front, Program.countCode_of_runCode inside enough front hrun⟩
  · intro params x before i after stack enough split hrun operand
    have front : before <+: program.code := ⟨i :: after, split.symm⟩
    have counted := Program.countCode_of_runCode inside enough front hrun
    have more : countCode 0 0 (before ++ [i]) = .ok (stack.length + 1) := by
      rw [countCode_append, counted]
      cases i with
      | number | term => rfl
      | operator op => exact absurd rfl (operand op)
    exact inside.stack (before ++ [i]) _ ⟨after, by simp [split]⟩ more
  · intro params x before op after stack enough split hrun low
    exact Program.evaluate_of_underflow enough split hrun low
  · intro params x enough defined
    rw [Program.stackSizes_eq inside enough ((definedAt_iff_of_compile h).mpr defined), depth]
    exact scans.orderly.isGreatest
  · intro params x
    by_cases short : params.length < program.paramsLength
    · rw [Program.evaluate_of_short short]
      simp [short]
    · have enough := Nat.le_of_not_lt short
      rw [Program.evaluate_eq_outOfBounds_iff inside enough, definedAt_iff_of_compile h]
      simp [enough]

/-- No program that the compiler makes leaves its buffers when it is evaluated, in either layout. A
formula that can be read is refused for its depth just if its evaluation would need more than the
value stack holds. -/
theorem evaluation_stays_inside (reach : registry.Reachable) (layout : Layout)
    (formula : String) :
    (∀ program, compile formula registry layout = .ok program → program.StaysInside) ∧
      ∀ depth, compile formula registry layout = .error (.tooDeep depth) ↔
        ∃ code, ScansTo registry layout formula code ∧ IsGreatest (reachedSizes code) depth ∧
          stackCapacity < depth :=
  ⟨fun _ => compile_staysInside reach, fun _ => compile_eq_tooDeep_iff⟩

/-- A quotient of two terms takes two places of the stack at every point. -/
theorem evaluation_stays_inside_quotient :
    ∃ (registry : Registry Float) (program : Program Float), registry.Reachable ∧
      compile "t/t" registry .full = .ok program ∧ program.StaysInside ∧
      ∀ params, 1 ≤ params.length → ∀ x, IsGreatest (program.stackSizes params x) 2 := by
  obtain ⟨registry, -, reach, one, named⟩ := Registry.exists_constant_registered
  have kinds : (tokenize "t/t").map Token.kind =
      [.identifier "t", .operator .div, .identifier "t"] := by
    decide +kernel
  have t (level : Nat) : Reads registry level [.identifier "t"] _ := .identifier named
  have quotient := Reads.operate .div (Nat.zero_le 2) (t 2) (t 3)
  simp only [List.cons_append, List.nil_append] at quotient
  rw [← kinds] at quotient
  have compiled := compile_of_reads quotient
  rw [if_neg (by decide)] at compiled
  have stays := (evaluation_stays_inside reach .full "t/t").1 _ compiled
  refine ⟨registry, _, reach, compiled, stays, ?_⟩
  intro params enough x
  refine stays.depth_reached params x ((Nat.le_of_eq one).trans enough) ?_
  rintro u ⟨offset, member⟩ template
  have : u = ⟨"t", .polynomial 0, 0⟩ := by
    simp [Tree.code] at member
    exact member.1
  simp [this]

/-- The program of the formula that only names the template without a centre. -/
def uncentredProgram : Program Float :=
  ⟨"t", [.term uncentredTerm 0], .full, [], 1, 1⟩

theorem compile_uncentred : compile "t" uncentredRegistry .full = .ok uncentredProgram := by
  have kinds : (tokenize "t").map Token.kind = [.identifier "t"] := by decide +kernel
  have read : Reads uncentredRegistry 0 [.identifier "t"] _ := .identifier rfl
  rw [← kinds] at read
  exact compile_of_reads read

theorem not_definedAt_uncentred : ¬uncentredTerm.DefinedAt 0.5 := by
  intro defined
  have valued := defined uncentred rfl
  rw [interpolate?_uncentred] at valued
  cases valued

theorem evaluate_uncentred : uncentredProgram.evaluate [1.0] 0.5 = .error .outOfBounds := by
  have reach : uncentredRegistry.Reachable := .register .empty register_uncentred
  have stays := compile_staysInside reach compile_uncentred
  have mentioned : uncentredProgram.Mentions uncentredTerm := ⟨0, List.mem_singleton_self _⟩
  exact (stays.outOfBounds [1.0] 0.5).mpr
    ⟨Nat.le_refl 1, uncentredTerm, mentioned, not_definedAt_uncentred⟩

/-- A histogram that is accepted can still make an evaluation go out of bounds, as a template. -/
theorem exists_evaluation_outOfBounds :
    ∃ (template : Histogram Float) (registry : Registry Float) (program : Program Float),
      Histogram.ofColumns [Scalar.nan] [7.0] [1.0] = .ok template ∧
      Registry.empty.register "t" (.template template) [.held "n" 1.0] = .ok registry ∧
      registry.Reachable ∧ compile "t" registry .full = .ok program ∧ program.paramsLength = 1 ∧
      program.evaluate [1.0] 0.5 = .error .outOfBounds :=
  ⟨uncentred, uncentredRegistry, uncentredProgram, ofColumns_uncentred, register_uncentred,
    .register .empty register_uncentred, compile_uncentred, rfl, evaluate_uncentred⟩

end FormulaFit

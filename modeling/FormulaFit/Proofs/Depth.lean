import FormulaFit.Proofs.Language
import FormulaFit.Proofs.StackUse

namespace FormulaFit

variable {α : Type} [Scalar α] {registry : Registry α} {layout : Layout} {formula : String}

theorem Compiled.orderly {kinds : List TokenKind} {code : List (Instruction α)} {need : Nat}
    (h : Compiled registry kinds code need) : Orderly code := by
  cases h with
  | empty => exact ⟨[], [], 0, rfl, rfl, fun _ => rfl⟩
  | @formula kinds tree h =>
    exact ⟨tree.code Term.offset, [], 1, (List.append_nil _).symm,
      tree.countCode_code Term.offset 0 0, fun _ => rfl⟩
  | @trailing left tree h op code ops hcode =>
    have count := tree.countCode_code Term.offset 0 0
    rw [hcode] at count
    obtain ⟨size, counted⟩ := exists_countCode_of_prefix count (List.prefix_append _ _)
    refine ⟨code, op :: ops, size, rfl, counted, ?_⟩
    rintro rfl
    have := size_of_countCode_operators count
    omega

/-- The tokens of a formula are read without error, to the given instructions. -/
def ScansTo (registry : Registry α) (layout : Layout) (formula : String)
    (code : List (Instruction α)) : Prop :=
  ∃ last reversed, Scan.start.run registry layout (tokenize formula) = .ok last ∧
    Scan.popAll last.code last.pending = .ok reversed ∧ code = reversed.reverse

/-- Both layouts read the same formulas. -/
theorem exists_scansTo_full {code : List (Instruction α)}
    (h : ScansTo registry .compact formula code) :
    ∃ full offset, ScansTo registry .full formula full ∧ code = full.map (.renumber offset) := by
  obtain ⟨last, reversed, hrun, hpop, rfl⟩ := h
  rcases (Scan.Mirrors.start registry).run (tokenize formula) with
    ⟨e, -, failed⟩ | ⟨terms, full, compact, hfull, hcompact, mirrors⟩
  · rw [hrun] at failed
    cases failed
  · rw [hrun] at hcompact
    cases hcompact
    rcases Scan.popAll_eq (α := α) last.pending with ⟨e, popped⟩ | ⟨ops, popped⟩
    · rw [popped] at hpop
      cases hpop
    · rw [popped] at hpop
      cases hpop
      have poppedFull := popped full.code
      rw [mirrors.pending] at poppedFull
      have renumbered := congrArg List.reverse (mirrors.code.operators ops).renumbered
      rw [← List.map_reverse] at renumbered
      exact ⟨_, _, ⟨full, _, hfull, poppedFull, rfl⟩, renumbered⟩

theorem ScansTo.orderly {code : List (Instruction α)} (h : ScansTo registry layout formula code) :
    Orderly code := by
  have full : ∀ code, ScansTo registry .full formula code → Orderly code := by
    rintro code ⟨last, reversed, hrun, hpop, rfl⟩
    obtain ⟨need, compiled, -⟩ := compile_of_run hrun hpop
    exact compiled.orderly
  cases layout with
  | full => exact full code h
  | compact =>
    obtain ⟨original, offset, hfull, rfl⟩ := exists_scansTo_full h
    exact (full original hfull).renumber offset

theorem Scan.step_ne_tooDeep (s : Scan α) (t : Token) (depth : Nat) :
    s.step registry layout t ≠ .error (.tooDeep depth) := by
  intro h
  cases refuses_of_step h

theorem Scan.run_ne_tooDeep (s : Scan α) (tokens : List Token) (depth : Nat) :
    s.run registry layout tokens ≠ .error (.tooDeep depth) := by
  induction tokens generalizing s with
  | nil => simp [Scan.run]
  | cons t tokens ih =>
    rw [Scan.run]
    have here : s.step registry layout t ≠ .error (.tooDeep depth) := s.step_ne_tooDeep t depth
    cases hstep : s.step registry layout t with
    | ok next => exact ih next
    | error e =>
      rw [hstep] at here
      simpa using here

omit [Scalar α] in
theorem Scan.popAll_ne_tooDeep (code : List (Instruction α)) (pending : List Pending)
    (depth : Nat) : Scan.popAll code pending ≠ .error (.tooDeep depth) := by
  induction pending generalizing code with
  | nil => simp [Scan.popAll]
  | cons p pending ih =>
    cases p with
    | openParen offset => simp [Scan.popAll]
    | operator op => exact ih _

/-- A formula that is read is compiled, unless its instructions need too much of the stack. -/
theorem compile_of_scansTo {code : List (Instruction α)}
    (h : ScansTo registry layout formula code) :
    (stackCapacity < greatestHeight 0 code ∧
        compile formula registry layout = .error (.tooDeep (greatestHeight 0 code))) ∨
      (greatestHeight 0 code ≤ stackCapacity ∧
        ∃ program, compile formula registry layout = .ok program ∧ program.formula = formula ∧
          program.code = code ∧ program.depth = greatestHeight 0 code) := by
  obtain ⟨last, reversed, hrun, hpop, rfl⟩ := h
  rw [compile, compileTokens, hrun]
  simp only [Scan.finish, hpop]
  split
  next deep => exact Or.inl ⟨deep, rfl⟩
  next room =>
    refine Or.inr ⟨Nat.le_of_not_lt room, ?_⟩
    cases layout with
    | full => exact ⟨_, rfl, rfl, rfl, rfl⟩
    | compact => exact ⟨_, rfl, rfl, rfl, rfl⟩

/-- A formula that is not read fails for that, and not for its depth. -/
theorem exists_scansTo_or_error (registry : Registry α) (layout : Layout) (formula : String) :
    (∃ code, ScansTo registry layout formula code) ∨
      ∃ e, compile formula registry layout = .error e ∧ ∀ depth, e ≠ .tooDeep depth := by
  cases hrun : Scan.start.run registry layout (tokenize formula) with
  | error e =>
    refine Or.inr ⟨e, by rw [compile, compileTokens, hrun], ?_⟩
    rintro depth rfl
    exact Scan.run_ne_tooDeep _ _ depth hrun
  | ok last =>
    cases hpop : Scan.popAll last.code last.pending with
    | error e =>
      refine Or.inr ⟨e, by rw [compile, compileTokens, hrun]; simp only [Scan.finish, hpop], ?_⟩
      rintro depth rfl
      exact Scan.popAll_ne_tooDeep _ _ depth hpop
    | ok reversed => exact Or.inl ⟨_, last, reversed, hrun, hpop, rfl⟩

theorem scansTo_of_compile {program : Program α}
    (h : compile formula registry layout = .ok program) :
    ScansTo registry layout formula program.code ∧ program.formula = formula ∧
      program.depth = greatestHeight 0 program.code ∧
      greatestHeight 0 program.code ≤ stackCapacity := by
  rcases exists_scansTo_or_error registry layout formula with ⟨code, hcode⟩ | ⟨e, failed, -⟩
  · rcases compile_of_scansTo hcode with ⟨-, failed⟩ | ⟨room, found, hfound, named, rfl, depth⟩
    · rw [h] at failed
      cases failed
    · rw [h] at hfound
      cases hfound
      exact ⟨hcode, named, depth, room⟩
  · rw [h] at failed
    cases failed

/-- Just the formulas that are read to instructions above the stack's capacity are too deep, by the
greatest size that their instructions reach. -/
theorem compile_eq_tooDeep_iff {depth : Nat} :
    compile formula registry layout = .error (.tooDeep depth) ↔
      ∃ code, ScansTo registry layout formula code ∧ IsGreatest (reachedSizes code) depth ∧
        stackCapacity < depth := by
  constructor
  · intro h
    rcases exists_scansTo_or_error registry layout formula with ⟨code, hcode⟩ | ⟨e, failed, other⟩
    · rcases compile_of_scansTo hcode with ⟨deep, failed⟩ | ⟨-, program, compiled, -⟩
      · rw [h] at failed
        cases failed
        exact ⟨code, hcode, hcode.orderly.isGreatest, deep⟩
      · rw [h] at compiled
        cases compiled
    · rw [h] at failed
      cases failed
      exact absurd rfl (other depth)
  · rintro ⟨code, hcode, greatest, deep⟩
    obtain rfl := greatest.unique hcode.orderly.isGreatest
    rcases compile_of_scansTo hcode with ⟨-, failed⟩ | ⟨room, -⟩
    · exact failed
    · exact absurd deep (Nat.not_lt.mpr room)

end FormulaFit

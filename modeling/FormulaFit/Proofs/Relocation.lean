import FormulaFit.Proofs.Viability

namespace FormulaFit

/-- The same length at another place. -/
def Span.move (f : Nat → Nat) (s : Span) : Span :=
  ⟨f s.offset, s.length⟩

def Token.move (f : Nat → Nat) (t : Token) : Token :=
  { t with span := t.span.move f }

def Pending.move (f : Nat → Nat) : Pending → Pending
  | operator op => operator op
  | openParen offset => openParen (f offset)

/-- The same error with its span changed. -/
def FormulaError.mapSpan (g : Span → Span) : FormulaError → FormulaError
  | unknownIdentifier name span similar => unknownIdentifier name (g span) similar
  | malformedNumber text span => malformedNumber text (g span)
  | unexpectedCharacter c span => unexpectedCharacter c (g span)
  | unexpectedToken found expected span => unexpectedToken found expected (g span)
  | unbalancedParen span => unbalancedParen (g span)
  | tooDeep depth => tooDeep depth

namespace FormulaError

theorem span?_mapSpan (g : Span → Span) (e : FormulaError) :
    (e.mapSpan g).span? = e.span?.map g := by
  cases e <;> rfl

theorem mapSpan_mapSpan (g g' : Span → Span) (e : FormulaError) :
    (e.mapSpan g).mapSpan g' = e.mapSpan (g' ∘ g) := by
  cases e <;> rfl

/-- An error has one span at most. -/
theorem mapSpan_congr {g g' : Span → Span} {e : FormulaError} {s : Span} (h : e.span? = some s)
    (same : g s = g' s) : e.mapSpan g = e.mapSpan g' := by
  cases e <;> cases h <;> simp only [mapSpan, same]

end FormulaError

namespace Scan

variable {α : Type}

def move (f : Nat → Nat) (s : Scan α) : Scan α :=
  { s with pending := s.pending.map (Pending.move f) }

variable (f : Nat → Nat)

theorem popStronger_move (op : Operator) (code : List (Instruction α)) (pending : List Pending) :
    popStronger op code (pending.map (Pending.move f)) =
      ((popStronger op code pending).1, (popStronger op code pending).2.map (Pending.move f)) := by
  induction pending generalizing code with
  | nil => rfl
  | cons p pending ih =>
    cases p with
    | openParen offset => rfl
    | operator top =>
      simp only [List.map_cons, Pending.move, popStronger]
      split
      next => rfl
      next => exact ih _

theorem popGroup?_move (code : List (Instruction α)) (pending : List Pending) :
    popGroup? code (pending.map (Pending.move f)) =
      (popGroup? code pending).map fun closed => (closed.1, closed.2.map (Pending.move f)) := by
  induction pending generalizing code with
  | nil => rfl
  | cons p pending ih =>
    cases p with
    | openParen offset => rfl
    | operator top => exact ih _

theorem afterOperators_move (pending : List Pending) :
    afterOperators (pending.map (Pending.move f)) =
      (afterOperators pending).map (Pending.move f) := by
  induction pending with
  | nil => rfl
  | cons p pending ih =>
    cases p with
    | openParen offset => rfl
    | operator top => exact ih

theorem popAll_move (code : List (Instruction α)) (pending : List Pending) :
    popAll code (pending.map (Pending.move f)) =
      (popAll code pending).mapError (FormulaError.mapSpan (Span.move f)) := by
  induction pending generalizing code with
  | nil => rfl
  | cons p pending ih =>
    cases p with
    | openParen offset => rfl
    | operator top => exact ih _

theorem mention_move (s : Scan α) (layout : Layout) (t : Term α) :
    (s.mention layout t).move f = (s.move f).mention layout t := by
  cases layout with
  | full => rfl
  | compact =>
    simp only [mention, move]
    split <;> rfl

variable {registry : Registry α} {layout : Layout} {s next : Scan α} {t : Token}
  {tokens : List Token} {e : FormulaError}

theorem Refuses.move (h : Refuses registry s t e) :
    Refuses registry (s.move f) (t.move f) (e.mapSpan (Span.move f)) := by
  cases h with
  | operand kind holds => exact .operand kind holds
  | malformed kind wants h => exact .malformed kind wants h
  | unknown kind wants h => exact .unknown kind wants h
  | unopened kind h =>
    refine .unopened kind ?_
    simp only [Scan.move, afterOperators_move, h, List.map_nil]
  | emptyGroup kind h wants =>
    refine .emptyGroup kind ?_ wants
    simpa only [Scan.move, afterOperators_move, ne_eq, List.map_eq_nil_iff] using h
  | operator kind wants => exact .operator kind wants
  | other kind => exact .other kind

theorem finish_move_of_ok {formula : String} {program : Program α}
    (h : s.finish formula registry layout = .ok program) (formula' : String) :
    (s.move f).finish formula' registry layout = .ok { program with formula := formula' } := by
  unfold finish at h ⊢
  simp only [move, popAll_move]
  cases popped : popAll s.code s.pending with
  | error e => simp [popped] at h
  | ok reversed =>
    simp only [popped] at h
    simp only [Except.mapError]
    split at h
    next => cases h
    next fits =>
      rw [if_neg fits]
      cases layout <;> cases h <;> rfl

theorem finish_move_of_error {formula : String} (h : s.finish formula registry layout = .error e)
    (formula' : String) :
    (s.move f).finish formula' registry layout = .error (e.mapSpan (Span.move f)) := by
  unfold finish at h ⊢
  simp only [move, popAll_move]
  cases popped : popAll s.code s.pending with
  | error e' =>
    simp only [popped] at h
    cases h
    rfl
  | ok reversed =>
    simp only [popped] at h
    simp only [Except.mapError]
    split at h
    next deep =>
      cases h
      rw [if_pos deep]
      rfl
    next => cases layout <;> cases h

variable [Scalar α]

theorem Takes.move (h : Takes registry layout s t next) :
    Takes registry layout (s.move f) (t.move f) (next.move f) := by
  cases h with
  | number kind wants h => exact .number kind wants h
  | identifier kind wants h =>
    rw [mention_move]
    exact .identifier kind wants h
  | openParen kind wants => exact .openParen kind wants
  | closeParen kind holds h =>
    refine .closeParen kind holds ?_
    simp only [Scan.move, popGroup?_move, h, Option.map_some]
  | operator kind holds h =>
    refine .operator kind holds ?_
    simp only [Scan.move, popStronger_move, h]

theorem run_move_of_ok (h : s.run registry layout tokens = .ok next) :
    (s.move f).run registry layout (tokens.map (Token.move f)) = .ok (next.move f) := by
  induction tokens generalizing s with
  | nil =>
    cases h
    rfl
  | cons t tokens ih =>
    rw [run] at h
    cases hs : s.step registry layout t with
    | error e =>
      rw [hs] at h
      cases h
    | ok middle =>
      rw [hs] at h
      rw [List.map_cons, run_cons_of_ok ((takes_of_step hs).move f).step]
      exact ih h

theorem run_move_of_error (h : s.run registry layout tokens = .error e) :
    (s.move f).run registry layout (tokens.map (Token.move f)) =
      .error (e.mapSpan (Span.move f)) := by
  obtain ⟨before, t, after, middle, rfl, hrun, refused⟩ := exists_step_of_run h
  rw [List.map_append, run_append_of_ok (run_move_of_ok f hrun), List.map_cons, run,
    ((refuses_of_step refused).move f).step layout]

end Scan

section

variable {α : Type} [Scalar α] {registry : Registry α} {layout : Layout} {formula : String}
  {tokens : List Token} (f : Nat → Nat)

/-- A formula whose tokens stand elsewhere compiles to the same instructions. -/
theorem compileTokens_move_of_ok {program : Program α}
    (h : compileTokens formula tokens registry layout = .ok program) (formula' : String) :
    compileTokens formula' (tokens.map (Token.move f)) registry layout =
      .ok { program with formula := formula' } := by
  unfold compileTokens at h ⊢
  cases hs : Scan.start.run registry layout tokens with
  | error e =>
    rw [hs] at h
    cases h
  | ok s =>
    rw [hs] at h
    have moved : (Scan.start : Scan α).run registry layout (tokens.map (Token.move f)) =
        .ok (s.move f) :=
      Scan.run_move_of_ok f hs
    rw [moved]
    exact Scan.finish_move_of_ok f h formula'

/-- An error of a formula moves with the tokens. -/
theorem compileTokens_move_of_error {e : FormulaError}
    (h : compileTokens formula tokens registry layout = .error e) (formula' : String) :
    compileTokens formula' (tokens.map (Token.move f)) registry layout =
      .error (e.mapSpan (Span.move f)) := by
  unfold compileTokens at h ⊢
  cases hs : Scan.start.run registry layout tokens with
  | error e' =>
    rw [hs] at h
    cases h
    have moved : (Scan.start : Scan α).run registry layout (tokens.map (Token.move f)) =
        .error (e.mapSpan (Span.move f)) :=
      Scan.run_move_of_error f hs
    rw [moved]
  | ok s =>
    rw [hs] at h
    have moved : (Scan.start : Scan α).run registry layout (tokens.map (Token.move f)) =
        .ok (s.move f) :=
      Scan.run_move_of_ok f hs
    rw [moved]
    exact Scan.finish_move_of_error f h formula'

/-- Errors other than for the depth blame a token. -/
theorem compileTokens_error_cases {e : FormulaError}
    (sizes : ∀ t ∈ tokens, t.span.length = t.text.utf8ByteSize)
    (h : compileTokens formula tokens registry layout = .error e) :
    (∃ t ∈ tokens, e.span? = some t.span) ∨ ∃ depth, e = .tooDeep depth := by
  unfold compileTokens at h
  cases hs : Scan.start.run registry layout tokens with
  | error e' =>
    rw [hs] at h
    cases h
    obtain ⟨before, t, after, rfl, stops⟩ := exists_stopsAt_of_run hs
    exact Or.inl ⟨t, List.mem_append_right _ List.mem_cons_self, stops.span⟩
  | ok s =>
    simp only [hs, Scan.finish] at h
    rcases Scan.popAll_cases s.code s.pending with
      ⟨-, reversed, popped⟩ | ⟨offset, rest, opens, popped⟩
    · simp only [popped] at h
      split at h
      next =>
        cases h
        exact Or.inr ⟨_, rfl⟩
      next => cases layout <;> cases h
    · simp only [popped] at h
      cases h
      -- The scan keeps places only; the tokens that stand there are the unclosed ones.
      obtain ⟨unclosed, leaves, offsets⟩ := Scan.keeps_of_run hs
      rw [opens] at offsets
      obtain ⟨t, unclosed, rfl, rfl, -⟩ := List.map_eq_cons_iff.mp offsets.symm
      obtain ⟨before, after, rfl, kind, -⟩ := leaves.isLastUnclosed
      have member : t ∈ before ++ t :: after := List.mem_append_right _ List.mem_cons_self
      have one : t.span.length = 1 := by
        rw [sizes t member, Token.text, kind]
        rfl
      refine Or.inl ⟨t, member, ?_⟩
      rw [FormulaError.span?, ← one]

end

end FormulaFit

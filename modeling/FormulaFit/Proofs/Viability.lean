import FormulaFit.Proofs.Depth
import FormulaFit.Proofs.Lexemes
import FormulaFit.Proofs.Parentheses
import FormulaFit.Report

namespace FormulaFit

variable {α : Type} [Scalar α] {registry : Registry α} {layout : Layout}

/-- The tokens are the start of a formula. -/
def Viable (registry : Registry α) (kinds : List TokenKind) : Prop :=
  ∃ rest, IsFormula registry (kinds ++ rest)

/-- The token takes the tokens before it, which are the start of a formula, to what is none. -/
def IsHopeless (registry : Registry α) (before : List Token) (t : Token) : Prop :=
  Viable registry (before.map Token.kind) ∧ ¬Viable registry ((before ++ [t]).map Token.kind)

theorem PlainNumbers.left {kinds rest : List TokenKind} (h : PlainNumbers (kinds ++ rest)) :
    PlainNumbers kinds :=
  fun text member => h text (List.mem_append_left rest member)

open Scan

/-- An operand can be completed: what waits in front takes it, and what is open is closed. -/
theorem Holds.exists_completion {level : Nat} {kinds : List TokenKind} {pending : List Pending}
    {code : List (Instruction α)} (h : Holds registry level kinds pending code) :
    ∃ rest tree, Reads registry 0 (kinds ++ rest) tree ∧ PlainNumbers rest := by
  induction pending generalizing level kinds code with
  | nil =>
    obtain ⟨before, -, operand⟩ := h
    cases before with
    | start =>
      exact ⟨[], _, by simpa using operand.weaken (Nat.zero_le level),
        by simp [PlainNumbers]⟩
  | cons p pending ih =>
    cases p with
    | operator op => exact ih h.operate
    | openParen offset =>
      obtain ⟨rest, tree, reads, plain⟩ := ih (h.close rfl)
      refine ⟨.closeParen :: rest, tree, by simpa using reads, ?_⟩
      intro text member
      exact plain text (by simpa using member)

theorem read_one : Numeral.read "1".toList = .ok (.finite false 1 0) := by
  decide +kernel

theorem Scan.HasRead.viable {kinds : List TokenKind} {s : Scan α}
    (h : s.HasRead registry kinds) (plain : PlainNumbers kinds) : Viable registry kinds := by
  obtain ⟨more, numbers, level, pending, code, held⟩ : ∃ more, PlainNumbers more ∧
      ∃ level pending code, Holds registry level (kinds ++ more) pending code := by
    cases wants : s.wantsOperand with
    | false => exact ⟨[], by simp [PlainNumbers], _, _, _, by simpa using h.holds wants⟩
    | true =>
      -- Where an operand is wanted, any number will do.
      refine ⟨[.number "1"], ?_, 3, s.pending, _,
        .intro (h.awaits wants) (admits_operand s.pending) (.number read_one)⟩
      intro text member c digit
      obtain rfl : text = "1" := by simpa using member
      obtain rfl : c = '1' := by simpa using digit
      rfl
  obtain ⟨rest, tree, reads, closing⟩ := held.exists_completion
  rw [List.append_assoc] at reads
  refine ⟨more ++ rest, reads.isFormula fun text member => ?_⟩
  rcases List.mem_append.mp member with here | later
  · exact plain text here
  · rcases List.mem_append.mp later with here | later
    · exact numbers text here
    · exact closing text later

/-- Just the starts of formulas are read to their end. -/
theorem exists_run_iff_viable (layout : Layout) {tokens : List Token}
    (plain : PlainNumbers (tokens.map Token.kind)) :
    (∃ s, Scan.start.run registry layout tokens = .ok s) ↔
      Viable registry (tokens.map Token.kind) := by
  constructor
  · rintro ⟨s, hs⟩
    -- The meaning of what is read is known for the full layout; the other one reads the same.
    have full : ∃ s, Scan.start.run registry .full tokens = .ok s := by
      cases layout with
      | full => exact ⟨s, hs⟩
      | compact =>
        rcases (Mirrors.start registry).run tokens with ⟨e, -, failed⟩ | ⟨terms, s', -, hs', -⟩
        · cases hs.symm.trans failed
        · exact ⟨s', hs'⟩
    obtain ⟨s', hs'⟩ := full
    exact (hasRead_of_run hs').viable plain
  · rintro ⟨rest, formula⟩
    obtain ⟨more, kinds⟩ := exists_tokens rest
    have whole : (tokens ++ more).map Token.kind = tokens.map Token.kind ++ rest := by
      rw [List.map_append, kinds]
    obtain ⟨last, hrun, -, -⟩ := run_of_isFormula layout formula whole (s := Scan.start) rfl
    rw [run_append] at hrun
    cases hs : Scan.start.run registry layout tokens with
    | ok s => exact ⟨s, rfl⟩
    | error e =>
      rw [hs] at hrun
      cases hrun

/-- Reading stops at the token: what stands before it is read, and the token is refused. -/
def StopsAt (registry : Registry α) (layout : Layout) (before : List Token) (t : Token)
    (e : FormulaError) : Prop :=
  ∃ s, Scan.start.run registry layout before = .ok s ∧ s.step registry layout t = .error e

section

variable {before : List Token} {t : Token} {e : FormulaError}

theorem StopsAt.run (h : StopsAt registry layout before t e) (rest : List Token) :
    Scan.start.run registry layout (before ++ t :: rest) = .error e := by
  obtain ⟨s, hs, refused⟩ := h
  rw [run_append_of_ok hs, Scan.run, refused]

theorem StopsAt.compile (h : StopsAt registry layout before t e) (formula : String)
    (rest : List Token) :
    compileTokens formula (before ++ t :: rest) registry layout = .error e := by
  rw [compileTokens, h.run]

theorem StopsAt.span (h : StopsAt registry layout before t e) : e.span? = some t.span := by
  obtain ⟨s, -, refused⟩ := h
  cases refuses_of_step refused <;> rfl

theorem exists_stopsAt_iff (plain : PlainNumbers ((before ++ [t]).map Token.kind)) :
    (∃ e, StopsAt registry layout before t e) ↔ IsHopeless registry before t := by
  have first := plain
  rw [List.map_append] at first
  rw [IsHopeless, ← exists_run_iff_viable layout first.left, ← exists_run_iff_viable layout plain]
  constructor
  · rintro ⟨e, stops⟩
    obtain ⟨s, hs, -⟩ := id stops
    refine ⟨⟨s, hs⟩, ?_⟩
    rintro ⟨last, hlast⟩
    cases (stops.run []).symm.trans hlast
  · rintro ⟨⟨s, hs⟩, unread⟩
    cases refused : s.step registry layout t with
    | error e => exact ⟨e, s, hs, refused⟩
    | ok next =>
      refine absurd ⟨next, ?_⟩ unread
      rw [run_append_of_ok hs]
      exact run_cons_of_ok refused []

theorem exists_stopsAt_of_run {tokens : List Token}
    (h : Scan.start.run registry layout tokens = .error e) :
    ∃ before t after, tokens = before ++ t :: after ∧ StopsAt registry layout before t e := by
  obtain ⟨before, t, after, s, split, hs, refused⟩ := exists_step_of_run h
  exact ⟨before, t, after, split, s, hs, refused⟩

end

section

variable {formula : String} {t : Token}

theorem span_of_openParen (member : t ∈ tokenize formula) (kind : t.kind = .openParen) :
    t.span = ⟨t.span.offset, 1⟩ := by
  obtain ⟨before, after, -, span, -⟩ := tokenize_place member
  rw [span, Token.text, kind]
  rfl

/-- A formula that is read to its end fails for its last unclosed parenthesis, if there is one, and
else only for its depth. -/
theorem compile_cases_of_run {s : Scan α}
    (hs : Scan.start.run registry layout (tokenize formula) = .ok s) :
    (∃ t, IsLastUnclosed (tokenize formula) t ∧ t.span.length = 1 ∧
        compile formula registry layout = .error (.unbalancedParen t.span)) ∨
      ((∀ t, ¬IsUnclosed (tokenize formula) t) ∧
        ((∃ program, compile formula registry layout = .ok program) ∨
          ∃ depth, compile formula registry layout = .error (.tooDeep depth))) := by
  obtain ⟨unclosed, leaves, offsets⟩ := keeps_of_run hs
  rcases popAll_cases s.code s.pending with ⟨none, reversed, popped⟩ | ⟨offset, rest, some, failed⟩
  · rw [none] at offsets
    obtain rfl : unclosed = [] := by simpa using offsets.symm
    refine Or.inr ⟨leaves.not_isUnclosed, ?_⟩
    rcases compile_of_scansTo ⟨s, reversed, hs, popped, rfl⟩ with ⟨-, deep⟩ | ⟨-, program, done, -⟩
    · exact Or.inr ⟨_, deep⟩
    · exact Or.inl ⟨program, done⟩
  · rw [some] at offsets
    obtain ⟨t, unclosed, rfl, rfl, -⟩ := List.map_eq_cons_iff.mp offsets.symm
    have last := leaves.isLastUnclosed
    obtain ⟨before, after, split, kind, -⟩ := id last
    have span := span_of_openParen (split ▸ List.mem_append_right _ List.mem_cons_self) kind
    refine Or.inl ⟨t, last, congrArg Span.length span, ?_⟩
    rw [span, compile, compileTokens, hs]
    simp only [Scan.finish, failed]

end

/-- A formula that cannot be read fails at its first hopeless token, whatever stands behind it: the
tokens before it are the start of a formula, and with it they are none. If no token is hopeless, the
last unclosed parenthesis is to blame, or else the depth. -/
theorem compile_error_hopeless (registry : Registry α) (layout : Layout) (formula : String) :
    (∀ before t after, tokenize formula = before ++ t :: after →
      ((∃ e, StopsAt registry layout before t e) ↔ IsHopeless registry before t) ∧
      ∀ e, StopsAt registry layout before t e →
        compile formula registry layout = .error e ∧ e.span? = some t.span ∧
          t.span.Marks formula t.text ∧
          ∀ other rest, compileTokens other (before ++ t :: rest) registry layout = .error e) ∧
    ((∀ before t after, tokenize formula = before ++ t :: after →
        ¬IsHopeless registry before t) →
      ((∃ span, compile formula registry layout = .error (.unbalancedParen span)) ↔
        ∃ t, IsUnclosed (tokenize formula) t) ∧
      (∀ span, compile formula registry layout = .error (.unbalancedParen span) →
        span.length = 1 ∧ ∃ t, IsLastUnclosed (tokenize formula) t ∧ span = t.span) ∧
      ∀ e, compile formula registry layout = .error e →
        (∃ span, e = .unbalancedParen span) ∨ ∃ depth, e = .tooDeep depth) := by
  have stops {before t after} (split : tokenize formula = before ++ t :: after) :
      (∃ e, StopsAt registry layout before t e) ↔ IsHopeless registry before t := by
    have plain := tokenize_plainNumbers formula
    rw [split, List.append_cons, List.map_append] at plain
    exact exists_stopsAt_iff plain.left
  refine ⟨fun before t after split => ⟨stops split, fun e h => ⟨?_, h.span, ?_, ?_⟩⟩,
    fun hopeful => ?_⟩
  · rw [compile, split]
    exact h.compile formula after
  · exact tokenize_marks (split ▸ List.mem_append_right _ List.mem_cons_self)
  · exact h.compile
  · obtain ⟨s, hs⟩ : ∃ s, Scan.start.run registry layout (tokenize formula) = .ok s := by
      cases hs : Scan.start.run registry layout (tokenize formula) with
      | ok s => exact ⟨s, rfl⟩
      | error e =>
        obtain ⟨before, t, after, split, h⟩ := exists_stopsAt_of_run hs
        exact absurd ((stops split).mp ⟨e, h⟩) (hopeful before t after split)
    rcases compile_cases_of_run hs with
      ⟨t, last, one, failed⟩ | ⟨none, ⟨program, done⟩ | ⟨depth, deep⟩⟩
    · rw [failed]
      refine ⟨⟨fun _ => ⟨t, last.isUnclosed⟩, fun _ => ⟨_, rfl⟩⟩, ?_, ?_⟩
      · rintro span ⟨⟩
        exact ⟨one, t, last, rfl⟩
      · rintro e ⟨⟩
        exact Or.inl ⟨_, rfl⟩
    · have closed := not_exists.mpr none
      rw [done]
      refine ⟨⟨?_, fun some => absurd some closed⟩, by rintro span ⟨⟩, by rintro e ⟨⟩⟩
      rintro ⟨span, ⟨⟩⟩
    · have closed := not_exists.mpr none
      rw [deep]
      refine ⟨⟨?_, fun some => absurd some closed⟩, by rintro span ⟨⟩, ?_⟩
      · rintro ⟨span, ⟨⟩⟩
      · rintro e ⟨⟩
        exact Or.inr ⟨depth, rfl⟩

/-- A sign after an open parenthesis is hopeless, and blamed. After two open parentheses there is
hope, so at the end the second one is blamed. -/
theorem compile_error_hopeless_sign :
    (IsHopeless (Registry.empty : Registry Float) [⟨.openParen, ⟨0, 1⟩⟩] ⟨.operator .add, ⟨1, 1⟩⟩ ∧
      ∀ rest, compileTokens "(+" (⟨.openParen, ⟨0, 1⟩⟩ :: ⟨.operator .add, ⟨1, 1⟩⟩ :: rest)
        (Registry.empty : Registry Float) .compact =
          .error (.unexpectedToken "+" .operand ⟨1, 1⟩)) ∧
    compile "((" (Registry.empty : Registry Float) .compact = .error (.unbalancedParen ⟨1, 1⟩) ∧
    ∃ t, IsLastUnclosed (tokenize "((") t ∧ t.span = ⟨1, 1⟩ := by
  have sign : tokenize "(+" = [⟨.openParen, ⟨0, 1⟩⟩, ⟨.operator .add, ⟨1, 1⟩⟩] := by decide +kernel
  have open2 : tokenize "((" = [⟨.openParen, ⟨0, 1⟩⟩, ⟨.openParen, ⟨1, 1⟩⟩] := by decide +kernel
  have stops : StopsAt (Registry.empty : Registry Float) .compact [⟨.openParen, ⟨0, 1⟩⟩]
      ⟨.operator .add, ⟨1, 1⟩⟩ (.unexpectedToken "+" .operand ⟨1, 1⟩) := ⟨_, rfl, rfl⟩
  have failed : compile "((" (Registry.empty : Registry Float) .compact =
      .error (.unbalancedParen ⟨1, 1⟩) := by
    rw [compile, open2]
    rfl
  obtain ⟨first, -⟩ := compile_error_hopeless (Registry.empty : Registry Float) .compact "(+"
  obtain ⟨hopeless, blamed⟩ := first [⟨.openParen, ⟨0, 1⟩⟩] ⟨.operator .add, ⟨1, 1⟩⟩ [] sign
  obtain ⟨second, atEnd⟩ := compile_error_hopeless (Registry.empty : Registry Float) .compact "(("
  obtain ⟨-, last, -⟩ := atEnd fun before t after split lost => by
    obtain ⟨e, refused⟩ := (second before t after split).1.mpr lost
    have unread := refused.run after
    rw [← split, open2] at unread
    cases unread
  obtain ⟨-, t, unclosed, span⟩ := last _ failed
  exact ⟨⟨hopeless.mp ⟨_, stops⟩, (blamed _ stops).2.2.2 "(+"⟩, failed, t, unclosed, span.symm⟩

end FormulaFit

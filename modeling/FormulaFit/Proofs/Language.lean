import FormulaFit.Proofs.Compiler
import FormulaFit.Proofs.Layouts

namespace FormulaFit

variable {α : Type} [Scalar α] {registry : Registry α}

/-- A formula's last token is no operator. -/
theorem Reads.exists_last {level : Nat} {kinds : List TokenKind} {tree : Tree α}
    (h : Reads registry level kinds tree) :
    ∃ last, kinds.getLast? = some last ∧ ∀ op, last ≠ .operator op := by
  induction h with
  | number h | identifier h => exact ⟨_, rfl, by simp⟩
  | group h ih => exact ⟨.closeParen, by simp [List.getLast?_cons], by simp⟩
  | operate top strong hl hr ihl ihr =>
    obtain ⟨last, hlast, operand⟩ := ihr
    exact ⟨last, by simp [List.getLast?_cons, hlast], operand⟩

theorem Reads.ne_nil {level : Nat} {kinds : List TokenKind} {tree : Tree α}
    (h : Reads registry level kinds tree) : kinds ≠ [] := by
  obtain ⟨last, hlast, -⟩ := h.exists_last
  rintro rfl
  simp at hlast

theorem Reads.ne_trailing {level : Nat} {kinds : List TokenKind} {tree : Tree α}
    (h : Reads registry level kinds tree) (left : List TokenKind) (op : Operator) :
    kinds ≠ left ++ [.operator op] := by
  obtain ⟨last, hlast, operand⟩ := h.exists_last
  rintro rfl
  have : last = .operator op := by simpa using hlast.symm
  exact operand op this

/-- What tokens are compiled to, with the stack slots that the code needs. A trailing operator comes
before the operators that still waited when it was read. -/
inductive Compiled (registry : Registry α) : List TokenKind → List (Instruction α) → Nat → Prop
  | empty : Compiled registry [] [] 0
  | formula {kinds : List TokenKind} {tree : Tree α} (h : Reads registry 0 kinds tree) :
    Compiled registry kinds (tree.code Term.offset) tree.need
  | trailing {left : List TokenKind} {tree : Tree α} (h : Reads registry 0 left tree)
    (op : Operator) {code : List (Instruction α)} {ops : List Operator}
    (hcode : tree.code Term.offset = code ++ ops.map .operator) :
    Compiled registry (left ++ [.operator op]) (code ++ (op :: ops).map .operator) tree.need

open Scan

theorem Awaits.compiled {kinds : List TokenKind} {pending : List Pending}
    {code reversed : List (Instruction α)} (h : Awaits registry kinds pending code)
    (hp : popAll code pending = .ok reversed) :
    ∃ need, Compiled registry kinds reversed.reverse need := by
  obtain ⟨ops, hops, rfl⟩ := popAll_eq_ok_iff.mp hp
  cases h with
  | start =>
    have : ops = [] := by simpa using hops.symm
    subst ops
    exact ⟨0, .empty⟩
  | group before offset => cases ops <;> simp at hops
  | @operate kinds rest code before left a op admits hl =>
    cases ops with
    | nil => simp at hops
    | cons top ops =>
      simp only [List.map_cons, List.cons.injEq, Pending.operator.injEq] at hops
      obtain ⟨rfl, rfl⟩ := hops
      obtain ⟨tree, htree, hcode⟩ :=
        (Holds.intro before admits hl).popAll (popAll_eq_ok_iff.mpr ⟨ops, rfl, rfl⟩)
      have whole := congrArg List.reverse hcode
      rw [List.reverse_append, List.reverse_reverse, List.reverse_reverse] at whole
      rw [List.reverse_append, List.reverse_reverse]
      exact ⟨tree.need, .trailing htree op whole.symm⟩

theorem Scan.HasRead.compiled {kinds : List TokenKind} {s : Scan α}
    {reversed : List (Instruction α)} (h : s.HasRead registry kinds)
    (hp : popAll s.code s.pending = .ok reversed) :
    ∃ need, Compiled registry kinds reversed.reverse need := by
  cases wants : s.wantsOperand with
  | true => exact (h.awaits wants).compiled hp
  | false =>
    obtain ⟨tree, htree, rfl⟩ := (h.holds wants).popAll hp
    rw [List.reverse_reverse]
    exact ⟨tree.need, .formula htree⟩

namespace Compiled

variable {kinds : List TokenKind} {code : List (Instruction α)} {need : Nat}

theorem greatestHeight (h : Compiled registry kinds code need) :
    FormulaFit.greatestHeight 0 code = need := by
  cases h with
  | empty => rfl
  | @formula kinds tree h => rw [tree.greatestHeight_code, Nat.zero_add]
  | @trailing left tree h op code ops hcode =>
    have depth := tree.greatestHeight_code Term.offset 0
    have count := tree.countCode_code Term.offset 0 0
    have started : code ≠ [] := by
      rintro rfl
      rw [hcode] at count
      have := size_of_countCode_operators count
      omega
    rw [hcode, greatestHeight_append_operators started, Nat.zero_add] at depth
    rw [greatestHeight_append_operators started, depth]

/-- The tokens decide the need: those of different cases differ in the last one. -/
theorem need_eq (h : Compiled registry kinds code need) {code' : List (Instruction α)}
    {need' : Nat} (h' : Compiled registry kinds code' need') : need = need' := by
  cases h with
  | empty =>
    generalize hk : ([] : List TokenKind) = kinds at h'
    cases h' with
    | empty => rfl
    | formula h => exact absurd hk.symm h.ne_nil
    | trailing h op hcode => simp at hk
  | formula h =>
    cases h' with
    | empty => exact absurd rfl h.ne_nil
    | formula h' => rw [h.unique h']
    | trailing h' op hcode => exact absurd rfl (h.ne_trailing _ op)
  | @trailing left tree h op code ops hcode =>
    generalize hk : left ++ [.operator op] = kinds at h'
    cases h' with
    | empty => simp at hk
    | formula h' => exact absurd hk.symm (h'.ne_trailing left op)
    | trailing h' op' hcode' =>
      obtain ⟨rfl, -⟩ := List.append_inj' hk rfl
      rw [h.unique h']

end Compiled

theorem compile_of_run {formula : String} {last : Scan α} {reversed : List (Instruction α)}
    (hrun : Scan.start.run registry .full (tokenize formula) = .ok last)
    (hp : popAll last.code last.pending = .ok reversed) :
    ∃ need, Compiled registry ((tokenize formula).map Token.kind) reversed.reverse need ∧
      compile formula registry .full =
        if stackCapacity < need then .error (.tooDeep need)
        else .ok ⟨formula, reversed.reverse, .full, [], registry.paramsLength, need⟩ := by
  obtain ⟨need, compiled⟩ := (hasRead_of_run hrun).compiled hp
  refine ⟨need, compiled, ?_⟩
  rw [compile, compileTokens, hrun]
  simp only [Scan.finish, hp, compiled.greatestHeight]

theorem compiled_of_compile {formula : String} {program : Program α}
    (h : compile formula registry .full = .ok program) :
    ∃ need, Compiled registry ((tokenize formula).map Token.kind) program.code need ∧
      need ≤ stackCapacity := by
  have compiled := h
  rw [compile, compileTokens] at h
  cases hrun : Scan.start.run registry .full (tokenize formula) with
  | error e => simp [hrun] at h
  | ok last =>
    simp only [hrun, Scan.finish] at h
    cases hp : popAll last.code last.pending with
    | error e => simp [hp] at h
    | ok reversed =>
      obtain ⟨need, emitted, result⟩ := compile_of_run hrun hp
      rw [compiled] at result
      split at result
      next => simp at result
      next room =>
        cases result
        exact ⟨need, emitted, Nat.le_of_not_lt room⟩

theorem Compiled.exists_run {kinds : List TokenKind} {code : List (Instruction α)} {need : Nat}
    (h : Compiled registry kinds code need) {tokens : List Token}
    (hk : tokens.map Token.kind = kinds) :
    ∃ last reversed, Scan.start.run registry .full tokens = .ok last ∧
      popAll last.code last.pending = .ok reversed := by
  cases h with
  | empty =>
    have := List.map_eq_nil_iff.mp hk
    subst tokens
    exact ⟨_, [], rfl, rfl⟩
  | formula h =>
    obtain ⟨last, hrun, hcode⟩ := h.run_start hk
    exact ⟨last, _, hrun, hcode⟩
  | @trailing left tree h op code ops hcode =>
    obtain ⟨lefts, others, rfl, hleft, hothers⟩ := List.map_eq_append_iff.mp hk
    obtain ⟨t, rfl, kind⟩ := List.map_eq_singleton_iff.mp hothers
    obtain ⟨last, waiting, hrun, holds, hpending, -, -⟩ := h.run hleft (s := Scan.start) rfl trivial
    have operators : last.pending = waiting.map .operator := hpending.trans (List.append_nil _)
    have after := afterOperators_popStronger op last.code last.pending
    rw [operators, afterOperators_operators] at after
    obtain ⟨rest, hrest⟩ := eq_operators_of_afterOperators after
    rw [← operators] at hrest
    have hlast := run_append_of_ok hrun [t]
    rw [run_cons_of_ok (Takes.operator kind holds rfl).step] at hlast
    refine ⟨_, _, hlast, popAll_eq_ok_iff.mpr ⟨op :: rest, ?_, rfl⟩⟩
    rw [List.map_cons, hrest]

theorem exists_compile_iff (formula : String) :
    (∃ program, compile formula registry .full = .ok program) ↔
      ∃ code need, Compiled registry ((tokenize formula).map Token.kind) code need ∧
        need ≤ stackCapacity := by
  constructor
  · rintro ⟨program, h⟩
    exact ⟨program.code, compiled_of_compile h⟩
  · rintro ⟨code, need, h, room⟩
    obtain ⟨last, reversed, hrun, hp⟩ := h.exists_run rfl
    obtain ⟨need', h', result⟩ := compile_of_run hrun hp
    rw [← h.need_eq h', if_neg (Nat.not_lt.mpr room)] at result
    exact ⟨_, result⟩

/-- Verification fails at the last instruction, an operator that lacks operands. -/
def Program.FailsAtEnd (p : Program α) : Prop :=
  ∃ before last, p.code = before ++ [.operator last] ∧
    p.verify = .error (.stackUnderflow before.length last)

/-- The tokens derive a formula whose tree fits the value stack. -/
def Accepted (registry : Registry α) (kinds : List TokenKind) : Prop :=
  IsFormula registry kinds ∧ ∃ tree, Reads registry 0 kinds tree ∧ tree.need ≤ stackCapacity

theorem verify_cases_full {formula : String} {program : Program α}
    (h : compile formula registry .full = .ok program) :
    (Accepted registry ((tokenize formula).map Token.kind) ∧ program.verify = .ok ()) ∨
      ((tokenize formula).map Token.kind = [] ∧
        program.verify = .error (.malformedProgram 0)) ∨
      ((∃ left op, (tokenize formula).map Token.kind = left ++ [.operator op] ∧
        Accepted registry left) ∧ program.FailsAtEnd) := by
  obtain ⟨need, compiled, room⟩ := compiled_of_compile h
  have plain := tokenize_plainNumbers formula
  generalize (tokenize formula).map Token.kind = kinds at compiled plain ⊢
  generalize hcode : program.code = code at compiled
  cases compiled with
  | empty => exact Or.inr (Or.inl ⟨rfl, by simp [Program.verify, hcode, countCode]⟩)
  | @formula kinds tree h =>
    have count := tree.countCode_code Term.offset 0 0
    exact Or.inl ⟨⟨h.isFormula plain, tree, h, room⟩, by simp [Program.verify, hcode, count]⟩
  | @trailing left tree h op code ops whole =>
    have count := tree.countCode_code Term.offset 0 0
    rw [whole] at count
    obtain ⟨before, last, split, underflow⟩ := countCode_trailing count op
    have derived := h.isFormula fun text member => plain text (List.mem_append_left _ member)
    refine Or.inr (Or.inr ⟨⟨left, op, rfl, derived, tree, h, room⟩, before, last, ?_, ?_⟩)
    · rw [hcode, split]
    · rw [Program.verify, hcode, split, underflow]

omit [Scalar α] in
theorem Program.Compacts.failsAtEnd {terms : List (Term α)} {full compact : Program α}
    (h : full.Compacts registry terms compact) (fails : full.FailsAtEnd) : compact.FailsAtEnd := by
  obtain ⟨before, last, hcode, underflow⟩ := fails
  refine ⟨before.map (.renumber fun t => offsetIn terms t.name), last, ?_, ?_⟩
  · rw [h.code_eq, hcode, List.map_append]
    rfl
  · rw [h.verify_eq, underflow, List.length_map]

theorem exists_full_of_compile {layout : Layout} {formula : String} {program : Program α}
    (h : compile formula registry layout = .ok program) :
    ∃ full, compile formula registry .full = .ok full ∧ program.verify = full.verify ∧
      (full.FailsAtEnd → program.FailsAtEnd) := by
  cases layout with
  | full => exact ⟨program, h, rfl, id⟩
  | compact =>
    obtain ⟨terms, full, hf, compacts⟩ := compacts_of_compact h
    exact ⟨full, hf, compacts.verify_eq, compacts.failsAtEnd⟩

theorem exists_compile_of_full {formula : String} {full : Program α}
    (h : compile formula registry .full = .ok full) (layout : Layout) :
    ∃ program, compile formula registry layout = .ok program := by
  cases layout with
  | full => exact ⟨full, h⟩
  | compact =>
    obtain ⟨terms, compact, hc, -⟩ := compacts_of_full h
    exact ⟨compact, hc⟩

/-- What verification says of a compiled program, in either layout. -/
theorem verify_cases {layout : Layout} {formula : String} {program : Program α}
    (h : compile formula registry layout = .ok program) :
    (Accepted registry ((tokenize formula).map Token.kind) ∧ program.verify = .ok ()) ∨
      ((tokenize formula).map Token.kind = [] ∧
        program.verify = .error (.malformedProgram 0)) ∨
      ((∃ left op, (tokenize formula).map Token.kind = left ++ [.operator op] ∧
        Accepted registry left) ∧ program.FailsAtEnd) := by
  obtain ⟨full, hf, verify, fails⟩ := exists_full_of_compile h
  rw [verify]
  rcases verify_cases_full hf with accepted | empty | ⟨trailing, atEnd⟩
  · exact Or.inl accepted
  · exact Or.inr (Or.inl empty)
  · exact Or.inr (Or.inr ⟨trailing, fails atEnd⟩)

theorem exists_compile {formula : String} (layout : Layout) {code : List (Instruction α)}
    {need : Nat} (h : Compiled registry ((tokenize formula).map Token.kind) code need)
    (room : need ≤ stackCapacity) : ∃ program, compile formula registry layout = .ok program := by
  obtain ⟨full, hf⟩ := (exists_compile_iff formula).mpr ⟨code, need, h, room⟩
  exact exists_compile_of_full hf layout

theorem Accepted.ne_nil {kinds : List TokenKind} (h : Accepted registry kinds) : kinds ≠ [] := by
  obtain ⟨-, tree, htree, -⟩ := h
  exact htree.ne_nil

theorem Accepted.ne_trailing {kinds : List TokenKind} (h : Accepted registry kinds)
    (left : List TokenKind) (op : Operator) : kinds ≠ left ++ [.operator op] := by
  obtain ⟨-, tree, htree, -⟩ := h
  exact htree.ne_trailing left op

variable {layout : Layout} {formula : String}

theorem verified_iff_accepted :
    (∃ program, compile formula registry layout = .ok program ∧ program.verify = .ok ()) ↔
      Accepted registry ((tokenize formula).map Token.kind) := by
  constructor
  · rintro ⟨program, h, verified⟩
    rcases verify_cases h with ⟨accepted, -⟩ | ⟨-, empty⟩ | ⟨-, before, last, -, underflow⟩
    · exact accepted
    · simp [verified] at empty
    · simp [verified] at underflow
  · rintro ⟨-, tree, htree, room⟩
    obtain ⟨program, h⟩ := exists_compile layout (.formula htree) room
    rcases verify_cases h with ⟨-, verified⟩ | ⟨none, -⟩ | ⟨⟨left, op, split, -⟩, -⟩
    · exact ⟨program, h, verified⟩
    · exact absurd none htree.ne_nil
    · exact absurd split (htree.ne_trailing left op)

theorem malformed_iff_empty :
    (∃ program, compile formula registry layout = .ok program ∧
        program.verify = .error (.malformedProgram 0)) ↔
      (tokenize formula).map Token.kind = [] := by
  constructor
  · rintro ⟨program, h, empty⟩
    rcases verify_cases h with ⟨-, verified⟩ | ⟨none, -⟩ | ⟨-, before, last, -, underflow⟩
    · simp [verified] at empty
    · exact none
    · simp [empty] at underflow
  · intro none
    have compiled : Compiled registry ((tokenize formula).map Token.kind) [] 0 := none ▸ .empty
    obtain ⟨program, h⟩ := exists_compile layout compiled (Nat.zero_le _)
    rcases verify_cases h with ⟨accepted, -⟩ | ⟨-, empty⟩ | ⟨⟨left, op, split, -⟩, -⟩
    · exact absurd none accepted.ne_nil
    · exact ⟨program, h, empty⟩
    · simp [none] at split

theorem failsAtEnd_iff_trailing :
    (∃ program, compile formula registry layout = .ok program ∧ program.FailsAtEnd) ↔
      ∃ left op, (tokenize formula).map Token.kind = left ++ [.operator op] ∧
        Accepted registry left := by
  constructor
  · rintro ⟨program, h, before, last, hcode, underflow⟩
    rcases verify_cases h with ⟨-, verified⟩ | ⟨-, empty⟩ | ⟨trailing, -⟩
    · simp [verified] at underflow
    · simp [empty] at underflow
    · exact trailing
  · rintro ⟨left, op, split, -, tree, htree, room⟩
    have whole : tree.code Term.offset = tree.code Term.offset ++ List.map .operator [] :=
      (List.append_nil _).symm
    have compiled := Compiled.trailing htree op whole
    rw [← split] at compiled
    obtain ⟨program, h⟩ := exists_compile layout compiled room
    rcases verify_cases h with ⟨accepted, -⟩ | ⟨none, -⟩ | ⟨-, fails⟩
    · exact absurd split (accepted.ne_trailing left op)
    · simp [split] at none
    · exact ⟨program, h, fails⟩

/-- The language of formulas: just the derivable ones whose tree fits the value stack are compiled
and pass verification. Beyond these, only the empty formula and formulas with one trailing operator
are compiled, and verification tells which of the two it is. -/
theorem compile_language (registry : Registry α) (layout : Layout) (formula : String) :
    ((∃ program, compile formula registry layout = .ok program ∧ program.verify = .ok ()) ↔
      Accepted registry ((tokenize formula).map Token.kind)) ∧
    ((∃ program, compile formula registry layout = .ok program ∧
        program.verify = .error (.malformedProgram 0)) ↔
      (tokenize formula).map Token.kind = []) ∧
    ((∃ program, compile formula registry layout = .ok program ∧ program.FailsAtEnd) ↔
      ∃ left op, (tokenize formula).map Token.kind = left ++ [.operator op] ∧
        Accepted registry left) ∧
    ∀ program, compile formula registry layout = .ok program →
      program.verify = .ok () ∨ program.verify = .error (.malformedProgram 0) ∨
        program.FailsAtEnd := by
  refine ⟨verified_iff_accepted, malformed_iff_empty, failsAtEnd_iff_trailing, ?_⟩
  intro program h
  rcases verify_cases h with ⟨-, verified⟩ | ⟨-, empty⟩ | ⟨-, fails⟩
  · exact Or.inl verified
  · exact Or.inr (Or.inl empty)
  · exact Or.inr (Or.inr fails)

end FormulaFit

import FormulaFit.Formula.Compile
import FormulaFit.Proofs.Numeral

namespace FormulaFit

/-- The token can only stand where an operand begins. -/
def TokenKind.IsOperandStart (kind : TokenKind) : Prop :=
  (∃ text, kind = .number text) ∨ (∃ name, kind = .identifier name) ∨ kind = .openParen

namespace Scan

section

variable {α : Type}

theorem mention_pending (s : Scan α) (layout : Layout) (t : Term α) :
    (s.mention layout t).pending = s.pending := by
  cases layout with
  | full => rfl
  | compact =>
    simp only [mention]
    split <;> rfl

theorem mention_wantsOperand (s : Scan α) (layout : Layout) (t : Term α) :
    (s.mention layout t).wantsOperand = false := by
  cases layout with
  | full => rfl
  | compact =>
    simp only [mention]
    split <;> rfl

/-- What waits behind the operators in front. -/
def afterOperators : List Pending → List Pending
  | .operator _ :: rest => afterOperators rest
  | pending => pending

theorem afterOperators_popStronger (op : Operator) (code : List (Instruction α))
    (pending : List Pending) :
    afterOperators (popStronger op code pending).2 = afterOperators pending := by
  induction pending generalizing code with
  | nil => rfl
  | cons p pending ih =>
    cases p with
    | openParen offset => rfl
    | operator top =>
      simp only [popStronger]
      split
      next => rfl
      next => exact ih _

theorem eq_operators_of_afterOperators {pending : List Pending}
    (h : afterOperators pending = []) : ∃ ops : List Operator, pending = ops.map .operator := by
  induction pending with
  | nil => exact ⟨[], rfl⟩
  | cons p pending ih =>
    cases p with
    | openParen offset => simp [afterOperators] at h
    | operator op =>
      obtain ⟨ops, rfl⟩ := ih h
      exact ⟨op :: ops, rfl⟩

theorem afterOperators_operators (ops : List Operator) :
    afterOperators (ops.map .operator) = [] := by
  induction ops with
  | nil => rfl
  | cons op ops ih => exact ih

theorem popGroup?_of_afterOperators {pending rest : List Pending} {offset : Nat}
    (h : afterOperators pending = .openParen offset :: rest) (code : List (Instruction α)) :
    ∃ closed, popGroup? code pending = some (closed, rest) := by
  induction pending generalizing code with
  | nil => simp [afterOperators] at h
  | cons p pending ih =>
    cases p with
    | openParen first =>
      simp only [afterOperators, List.cons.injEq] at h
      exact ⟨code, by simp [popGroup?, h.2]⟩
    | operator top => exact ih h _

theorem popGroup?_eq_none_iff (code : List (Instruction α)) {pending : List Pending} :
    popGroup? code pending = none ↔ afterOperators pending = [] := by
  induction pending generalizing code with
  | nil => simp [popGroup?, afterOperators]
  | cons p pending ih =>
    cases p with
    | openParen offset => simp [popGroup?, afterOperators]
    | operator top => exact ih _

/-- Operators in front of an open parenthesis are appended when it is closed. -/
theorem popGroup?_operators (ops : List Operator) (offset : Nat) (rest : List Pending)
    (code : List (Instruction α)) :
    popGroup? code (ops.map .operator ++ .openParen offset :: rest) =
      some ((ops.map .operator).reverse ++ code, rest) := by
  induction ops generalizing code with
  | nil => rfl
  | cons op ops ih => simp [popGroup?, ih]

/-- Whether an operand that binds at least at `level` belongs to nothing that waits in front. -/
def Admits (level : Nat) : List Pending → Prop
  | .operator top :: _ => top.precedence < level
  | _ => True

theorem popStronger_operators {op : Operator} {ops : List Operator} {rest : List Pending}
    (strong : ∀ o ∈ ops, op.precedence ≤ o.precedence) (admits : Admits op.precedence rest)
    (code : List (Instruction α)) :
    popStronger op code (ops.map .operator ++ rest) =
      ((ops.map .operator).reverse ++ code, rest) := by
  induction ops generalizing code with
  | nil =>
    cases rest with
    | nil => rfl
    | cons p rest =>
      cases p with
      | openParen offset => rfl
      | operator top => simp [popStronger, show top.precedence < op.precedence from admits]
  | cons o ops ih =>
    have stays : ¬o.precedence < op.precedence := by
      have := strong o (by simp)
      omega
    simp [popStronger, stays, ih fun o ho => strong o (by simp [ho])]

theorem popAll_eq_ok_iff {code result : List (Instruction α)} {pending : List Pending} :
    popAll code pending = .ok result ↔
      ∃ ops : List Operator, pending = ops.map .operator ∧
        result = (ops.map .operator).reverse ++ code := by
  induction pending generalizing code with
  | nil =>
    simp only [popAll, Except.ok.injEq]
    constructor
    · rintro rfl
      exact ⟨[], rfl, rfl⟩
    · rintro ⟨ops, h, rfl⟩
      cases ops with
      | nil => rfl
      | cons op ops => simp at h
  | cons p pending ih =>
    cases p with
    | openParen offset =>
      simp only [popAll, reduceCtorEq, false_iff, not_exists, not_and]
      intro ops h
      cases ops <;> simp at h
    | operator op =>
      rw [popAll, ih]
      constructor
      · rintro ⟨ops, rfl, rfl⟩
        exact ⟨op :: ops, rfl, by simp⟩
      · rintro ⟨ops, h, rfl⟩
        cases ops with
        | nil => simp at h
        | cons o ops =>
          obtain ⟨ho, hops⟩ := List.cons.inj h
          cases ho
          exact ⟨ops, hops, by simp⟩

/-- Popping only moves operators to the code. -/
theorem popStronger_eq (op : Operator) (pending : List Pending) :
    ∃ ops rest, ∀ code : List (Instruction α),
      popStronger op code pending = (List.map .operator ops ++ code, rest) := by
  induction pending with
  | nil => exact ⟨[], [], fun code => rfl⟩
  | cons p pending ih =>
    cases p with
    | openParen offset => exact ⟨[], .openParen offset :: pending, fun code => rfl⟩
    | operator top =>
      by_cases loose : top.precedence < op.precedence
      · exact ⟨[], .operator top :: pending, fun code => by simp [popStronger, loose]⟩
      · obtain ⟨ops, rest, h⟩ := ih
        refine ⟨ops ++ [top], rest, fun code => ?_⟩
        simp [popStronger, loose, h]

theorem popGroup?_eq (pending : List Pending) :
    (∀ code : List (Instruction α), popGroup? code pending = none) ∨
      ∃ ops rest, ∀ code : List (Instruction α),
        popGroup? code pending = some (List.map .operator ops ++ code, rest) := by
  induction pending with
  | nil => exact Or.inl fun code => rfl
  | cons p pending ih =>
    cases p with
    | openParen offset => exact Or.inr ⟨[], pending, fun code => rfl⟩
    | operator top =>
      rcases ih with h | ⟨ops, rest, h⟩
      · exact Or.inl fun code => h _
      · refine Or.inr ⟨ops ++ [top], rest, fun code => ?_⟩
        simp [popGroup?, h]

theorem popAll_eq (pending : List Pending) :
    (∃ e, ∀ code : List (Instruction α), popAll code pending = .error e) ∨
      ∃ ops, ∀ code : List (Instruction α),
        popAll code pending = .ok (List.map .operator ops ++ code) := by
  induction pending with
  | nil => exact Or.inr ⟨[], fun code => rfl⟩
  | cons p pending ih =>
    cases p with
    | openParen offset => exact Or.inl ⟨_, fun code => rfl⟩
    | operator top =>
      rcases ih with ⟨e, h⟩ | ⟨ops, h⟩
      · exact Or.inl ⟨e, fun code => h _⟩
      · refine Or.inr ⟨ops ++ [top], fun code => ?_⟩
        simp [popAll, h]

end

variable {α : Type} [Scalar α] {registry : Registry α} {layout : Layout}

theorem run_append (s : Scan α) (tokens rest : List Token) :
    s.run registry layout (tokens ++ rest) =
      match s.run registry layout tokens with
      | .ok s => s.run registry layout rest
      | .error e => .error e := by
  induction tokens generalizing s with
  | nil => rfl
  | cons t tokens ih =>
    simp only [List.cons_append, run]
    cases s.step registry layout t with
    | error e => rfl
    | ok s => exact ih s

theorem run_append_of_ok {s middle : Scan α} {tokens : List Token}
    (h : s.run registry layout tokens = .ok middle) (rest : List Token) :
    s.run registry layout (tokens ++ rest) = middle.run registry layout rest := by
  rw [run_append, h]

theorem run_cons_of_ok {s next : Scan α} {t : Token} (h : s.step registry layout t = .ok next)
    (rest : List Token) : s.run registry layout (t :: rest) = next.run registry layout rest := by
  rw [run, h]

/-- A run that fails takes all tokens before some one, and refuses that. -/
theorem exists_step_of_run {s : Scan α} {tokens : List Token} {e : FormulaError}
    (h : s.run registry layout tokens = .error e) :
    ∃ before t after middle, tokens = before ++ t :: after ∧
      s.run registry layout before = .ok middle ∧ middle.step registry layout t = .error e := by
  induction tokens generalizing s with
  | nil => cases h
  | cons t tokens ih =>
    rw [run] at h
    cases hs : s.step registry layout t with
    | error e' =>
      rw [hs] at h
      cases h
      exact ⟨[], t, tokens, s, rfl, rfl, hs⟩
    | ok next =>
      rw [hs] at h
      obtain ⟨before, u, after, middle, rfl, hrun, refused⟩ := ih h
      exact ⟨t :: before, u, after, middle, rfl, by rw [run_cons_of_ok hs, hrun], refused⟩

/-- What a scan is after a token that it takes. -/
inductive Takes (registry : Registry α) (layout : Layout) (s : Scan α) (t : Token) : Scan α → Prop
  | number {text : String} {n : Numeral} (kind : t.kind = .number text)
    (wants : s.wantsOperand = true) (h : Numeral.read text.toList = .ok n) :
    Takes registry layout s t (s.emit (.number n.value))
  | identifier {name : String} {term : Term α} (kind : t.kind = .identifier name)
    (wants : s.wantsOperand = true) (h : registry.get? name = some term) :
    Takes registry layout s t (s.mention layout term)
  | openParen (kind : t.kind = .openParen) (wants : s.wantsOperand = true) :
    Takes registry layout s t { s with pending := .openParen t.span.offset :: s.pending }
  | closeParen {code : List (Instruction α)} {pending : List Pending} (kind : t.kind = .closeParen)
    (holds : s.wantsOperand = false) (h : popGroup? s.code s.pending = some (code, pending)) :
    Takes registry layout s t { s with code, pending }
  | operator {op : Operator} {code : List (Instruction α)} {pending : List Pending}
    (kind : t.kind = .operator op) (holds : s.wantsOperand = false)
    (h : popStronger op s.code s.pending = (code, pending)) :
    Takes registry layout s t
      { s with code, pending := .operator op :: pending, wantsOperand := true }

theorem Takes.step {s next : Scan α} {t : Token} (h : Takes registry layout s t next) :
    s.step registry layout t = .ok next := by
  cases h with
  | number kind wants h | identifier kind wants h => simp [Scan.step, kind, wants, h]
  | openParen kind wants => simp [Scan.step, kind, wants]
  | closeParen kind holds h | operator kind holds h => simp [Scan.step, kind, holds, h]

theorem takes_of_step {s next : Scan α} {t : Token} (hs : s.step registry layout t = .ok next) :
    Takes registry layout s t next := by
  unfold Scan.step at hs
  cases kind : t.kind with
  | number text =>
    simp only [kind] at hs
    cases wants : s.wantsOperand with
    | false => simp [wants] at hs
    | true =>
      cases h : Numeral.read text.toList with
      | error e => simp [wants, h] at hs
      | ok n =>
        simp only [wants, h, Bool.not_true, Bool.false_eq_true, if_false, Except.ok.injEq] at hs
        exact hs ▸ .number kind wants h
  | identifier name =>
    simp only [kind] at hs
    cases wants : s.wantsOperand with
    | false => simp [wants] at hs
    | true =>
      cases h : registry.get? name with
      | none => simp [wants, h] at hs
      | some term =>
        simp only [wants, h, Bool.not_true, Bool.false_eq_true, if_false, Except.ok.injEq] at hs
        exact hs ▸ .identifier kind wants h
  | openParen =>
    simp only [kind] at hs
    cases wants : s.wantsOperand with
    | false => simp [wants] at hs
    | true =>
      simp only [wants, Bool.not_true, Bool.false_eq_true, if_false, Except.ok.injEq] at hs
      exact hs ▸ wants ▸ .openParen kind wants
  | closeParen =>
    simp only [kind] at hs
    cases h : popGroup? s.code s.pending with
    | none => simp [h] at hs
    | some closed =>
      cases holds : s.wantsOperand with
      | true => simp [h, holds] at hs
      | false =>
        simp only [h, holds, Bool.false_eq_true, if_false, Except.ok.injEq] at hs
        exact hs ▸ holds ▸ .closeParen kind holds h
  | operator op =>
    simp only [kind] at hs
    cases holds : s.wantsOperand with
    | true => simp [holds] at hs
    | false =>
      simp only [holds, Bool.false_eq_true, if_false, Except.ok.injEq] at hs
      exact hs ▸ .operator kind holds rfl
  | other c => simp [kind] at hs

/-- Why a scan refuses a token. For a closing parenthesis the open one is looked for first. -/
inductive Refuses (registry : Registry α) (s : Scan α) (t : Token) : FormulaError → Prop
  | operand (kind : t.kind.IsOperandStart) (holds : s.wantsOperand = false) :
    Refuses registry s t (.unexpectedToken t.text .operator t.span)
  | malformed {text : String} {reason : NumeralError} (kind : t.kind = .number text)
    (wants : s.wantsOperand = true) (h : Numeral.read text.toList = .error reason) :
    Refuses registry s t (.malformedNumber text t.span)
  | unknown {name : String} (kind : t.kind = .identifier name) (wants : s.wantsOperand = true)
    (h : registry.get? name = none) :
    Refuses registry s t
      (.unknownIdentifier name t.span (mostSimilar? name (registry.terms.map Term.name)))
  | unopened (kind : t.kind = .closeParen) (h : afterOperators s.pending = []) :
    Refuses registry s t (.unbalancedParen t.span)
  | emptyGroup (kind : t.kind = .closeParen) (h : afterOperators s.pending ≠ [])
    (wants : s.wantsOperand = true) :
    Refuses registry s t (.unexpectedToken t.text .operand t.span)
  | operator {op : Operator} (kind : t.kind = .operator op) (wants : s.wantsOperand = true) :
    Refuses registry s t (.unexpectedToken t.text .operand t.span)
  | other {c : Char} (kind : t.kind = .other c) :
    Refuses registry s t (.unexpectedCharacter c t.span)

theorem Refuses.step {s : Scan α} {t : Token} {e : FormulaError} (h : Refuses registry s t e)
    (layout : Layout) : s.step registry layout t = .error e := by
  cases h with
  | operand kind holds =>
    rcases kind with ⟨text, kind⟩ | ⟨name, kind⟩ | kind <;> simp [Scan.step, kind, holds]
  | malformed kind wants h | unknown kind wants h => simp [Scan.step, kind, wants, h]
  | unopened kind h =>
    have unopened := (popGroup?_eq_none_iff s.code).mpr h
    simp [Scan.step, kind, unopened]
  | emptyGroup kind h wants =>
    obtain ⟨closed, hc⟩ := Option.ne_none_iff_exists'.mp (mt (popGroup?_eq_none_iff s.code).mp h)
    simp [Scan.step, kind, hc, wants]
  | operator kind wants => simp [Scan.step, kind, wants]
  | other kind => simp [Scan.step, kind]

theorem refuses_of_step {s : Scan α} {t : Token} {e : FormulaError}
    (hs : s.step registry layout t = .error e) : Refuses registry s t e := by
  unfold Scan.step at hs
  cases kind : t.kind with
  | number text =>
    simp only [kind] at hs
    cases wants : s.wantsOperand with
    | false =>
      cases (by simpa [wants] using hs : _ = e)
      exact .operand (Or.inl ⟨text, kind⟩) wants
    | true =>
      cases h : Numeral.read text.toList with
      | ok n => simp [wants, h] at hs
      | error reason =>
        cases (by simpa [wants, h] using hs : _ = e)
        exact .malformed kind wants h
  | identifier name =>
    simp only [kind] at hs
    cases wants : s.wantsOperand with
    | false =>
      cases (by simpa [wants] using hs : _ = e)
      exact .operand (Or.inr (Or.inl ⟨name, kind⟩)) wants
    | true =>
      cases h : registry.get? name with
      | some term => simp [wants, h] at hs
      | none =>
        cases (by simpa [wants, h] using hs : _ = e)
        exact .unknown kind wants h
  | openParen =>
    simp only [kind] at hs
    cases wants : s.wantsOperand with
    | false =>
      cases (by simpa [wants] using hs : _ = e)
      exact .operand (Or.inr (Or.inr kind)) wants
    | true => simp [wants] at hs
  | closeParen =>
    simp only [kind] at hs
    cases h : popGroup? s.code s.pending with
    | none =>
      cases (by simpa [h] using hs : _ = e)
      exact .unopened kind ((popGroup?_eq_none_iff s.code).mp h)
    | some closed =>
      cases wants : s.wantsOperand with
      | false => simp [h, wants] at hs
      | true =>
        cases (by simpa [h, wants] using hs : _ = e)
        refine .emptyGroup kind (fun none => ?_) wants
        rw [(popGroup?_eq_none_iff s.code).mpr none] at h
        cases h
  | operator op =>
    simp only [kind] at hs
    cases wants : s.wantsOperand with
    | false => simp [wants] at hs
    | true =>
      cases (by simpa [wants] using hs : _ = e)
      exact .operator kind wants
  | other c =>
    simp only [kind] at hs
    cases hs
    exact .other kind

/-- Only what waits and what is wanted decides which error a token gives. -/
theorem step_error_congr {s s' : Scan α} (pending : s'.pending = s.pending)
    (wants : s'.wantsOperand = s.wantsOperand) {t : Token} {e : FormulaError}
    (hs : s.step registry layout t = .error e) (layout' : Layout) :
    s'.step registry layout' t = .error e := by
  refine Refuses.step ?_ layout'
  cases refuses_of_step hs with
  | operand kind holds => exact .operand kind (wants.trans holds)
  | malformed kind here h => exact .malformed kind (wants.trans here) h
  | unknown kind here h => exact .unknown kind (wants.trans here) h
  | unopened kind h => exact .unopened kind (pending ▸ h)
  | emptyGroup kind h here => exact .emptyGroup kind (pending ▸ h) (wants.trans here)
  | operator kind here => exact .operator kind (wants.trans here)
  | other kind => exact .other kind

/-- A formula is read wherever an operand is wanted, and closes no parenthesis before it. -/
theorem run_of_isFormula (layout : Layout) {kinds : List TokenKind}
    (formula : IsFormula registry kinds) {tokens : List Token}
    (hk : tokens.map Token.kind = kinds) {s : Scan α} (wants : s.wantsOperand = true) :
    ∃ last, s.run registry layout tokens = .ok last ∧ last.wantsOperand = false ∧
      afterOperators last.pending = afterOperators s.pending := by
  induction formula generalizing tokens s with
  | number h =>
    obtain ⟨t, rfl, kind⟩ := List.map_eq_singleton_iff.mp hk
    obtain ⟨-, n, hn⟩ := isNumberText_iff.mp h
    exact ⟨_, run_cons_of_ok ((Takes.number kind wants hn).step) [], rfl, rfl⟩
  | identifier h =>
    obtain ⟨t, rfl, kind⟩ := List.map_eq_singleton_iff.mp hk
    exact ⟨_, run_cons_of_ok ((Takes.identifier kind wants h).step) [], mention_wantsOperand _ _ _,
      by rw [mention_pending]⟩
  | group inner ih =>
    obtain ⟨opening, closing, rfl, hopening, hclosing⟩ := List.map_eq_append_iff.mp hk
    obtain ⟨first, inside, rfl, kindFirst, hinside⟩ := List.map_eq_cons_iff.mp hopening
    obtain ⟨t, rfl, kind⟩ := List.map_eq_singleton_iff.mp hclosing
    obtain ⟨middle, hrun, holds, after⟩ :=
      ih hinside (s := { s with pending := .openParen first.span.offset :: s.pending }) wants
    obtain ⟨code, hclosed⟩ := popGroup?_of_afterOperators after middle.code
    refine ⟨{ middle with code, pending := s.pending }, ?_, holds, rfl⟩
    rw [List.cons_append, run_cons_of_ok ((Takes.openParen kindFirst wants).step),
      run_append_of_ok hrun]
    exact run_cons_of_ok ((Takes.closeParen kind holds hclosed).step) []
  | operate op hl hr ihl ihr =>
    obtain ⟨lefts, others, rfl, hleft, hothers⟩ := List.map_eq_append_iff.mp hk
    obtain ⟨t, rights, rfl, kind, hright⟩ := List.map_eq_cons_iff.mp hothers
    obtain ⟨middle, hrun, holds, after⟩ := ihl hleft wants
    obtain ⟨last, hlast, holdsLast, afterLast⟩ := ihr hright (s := { middle with
      code := (popStronger op middle.code middle.pending).1
      pending := .operator op :: (popStronger op middle.code middle.pending).2
      wantsOperand := true }) rfl
    refine ⟨last, ?_, holdsLast, ?_⟩
    · rw [run_append_of_ok hrun, run_cons_of_ok (Takes.operator kind holds rfl).step, hlast]
    · rw [afterLast, ← after]
      exact afterOperators_popStronger op middle.code middle.pending

end Scan

end FormulaFit

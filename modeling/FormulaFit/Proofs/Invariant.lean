import FormulaFit.Proofs.Grammar

namespace FormulaFit

variable {α : Type} [Scalar α] {registry : Registry α}

open Scan

/-- States that want an operand: the tokens so far are opened groups and left operands, each with
the operator that waits for the right one. -/
inductive Awaits (registry : Registry α) :
    List TokenKind → List Pending → List (Instruction α) → Prop
  | start : Awaits registry [] [] []
  | group {kinds pending code} (h : Awaits registry kinds pending code) (offset : Nat) :
    Awaits registry (kinds ++ [.openParen]) (.openParen offset :: pending) code
  | operate {kinds pending code} (h : Awaits registry kinds pending code) {left : List TokenKind}
    {a : Tree α} (op : Operator) (admits : Admits op.precedence pending)
    (hl : Reads registry op.precedence left a) :
    Awaits registry (kinds ++ left ++ [.operator op]) (.operator op :: pending)
      ((a.code Term.offset).reverse ++ code)

/-- States that hold an operand that binds at least at `level`. -/
inductive Holds (registry : Registry α) (level : Nat) :
    List TokenKind → List Pending → List (Instruction α) → Prop
  | intro {kinds pending code} (h : Awaits registry kinds pending code)
    (admits : Admits level pending) {operand : List TokenKind} {tree : Tree α}
    (ho : Reads registry level operand tree) :
    Holds registry level (kinds ++ operand) pending ((tree.code Term.offset).reverse ++ code)

theorem Operator.precedence_lt (op : Operator) : op.precedence < 3 := by
  cases op <;> decide

/-- Numbers, names and groups bind more strongly than any operator. -/
theorem admits_operand (pending : List Pending) : Admits 3 pending := by
  cases pending with
  | nil => trivial
  | cons p rest =>
    cases p with
    | openParen offset => trivial
    | operator top => exact top.precedence_lt

/-- An operator that waits in front takes the operand as its right one. -/
theorem Holds.operate {level : Nat} {kinds : List TokenKind} {op : Operator} {rest : List Pending}
    {code : List (Instruction α)} (h : Holds registry level kinds (.operator op :: rest) code) :
    Holds registry op.precedence kinds rest (.operator op :: code) := by
  obtain ⟨before, admits, right⟩ := h
  cases before with
  | @operate kinds pending code previous left a op admitsBefore hl =>
    have node := Reads.operate op (Nat.le_refl _) hl (right.weaken admits)
    have := Holds.intro previous admitsBefore node
    simpa [Tree.code] using this

theorem Holds.await {level : Nat} {kinds : List TokenKind} {pending : List Pending}
    {code : List (Instruction α)} (h : Holds registry level kinds pending code) {op : Operator}
    (strong : op.precedence ≤ level) (admits : Admits op.precedence pending) :
    Awaits registry (kinds ++ [.operator op]) (.operator op :: pending) code := by
  obtain ⟨before, -, left⟩ := h
  exact .operate before op admits (left.weaken strong)

theorem Holds.close {level : Nat} {kinds : List TokenKind} {pending rest : List Pending}
    {code closed : List (Instruction α)} (h : Holds registry level kinds pending code)
    (hc : popGroup? code pending = some (closed, rest)) :
    Holds registry 3 (kinds ++ [.closeParen]) rest closed := by
  induction pending generalizing level code with
  | nil => simp [popGroup?] at hc
  | cons p pending ih =>
    cases p with
    | operator op => exact ih h.operate hc
    | openParen offset =>
      simp only [popGroup?, Option.some.injEq, Prod.mk.injEq] at hc
      obtain ⟨rfl, rfl⟩ := hc
      obtain ⟨before, -, inner⟩ := h
      cases before with
      | group previous offset =>
        have := Holds.intro previous (admits_operand pending)
          (Reads.group (inner.weaken (Nat.zero_le level)))
        simpa using this

theorem Holds.popStronger {op : Operator} {level : Nat} {kinds : List TokenKind}
    {pending : List Pending} {code : List (Instruction α)}
    (h : Holds registry level kinds pending code) (strong : op.precedence ≤ level) :
    Admits op.precedence (popStronger op code pending).2 ∧
      ∃ high, op.precedence ≤ high ∧ Holds registry high kinds (popStronger op code pending).2
        (popStronger op code pending).1 := by
  induction pending generalizing level code with
  | nil => exact ⟨trivial, level, strong, h⟩
  | cons p pending ih =>
    cases p with
    | openParen offset => exact ⟨trivial, level, strong, h⟩
    | operator top =>
      by_cases loose : top.precedence < op.precedence
      · rw [Scan.popStronger, if_pos loose]
        exact ⟨loose, level, strong, h⟩
      · rw [Scan.popStronger, if_neg loose]
        exact ih h.operate (by omega)

theorem Holds.popAll {level : Nat} {kinds : List TokenKind} {pending : List Pending}
    {code result : List (Instruction α)} (h : Holds registry level kinds pending code)
    (hp : popAll code pending = .ok result) :
    ∃ tree, Reads registry 0 kinds tree ∧ result = (tree.code Term.offset).reverse := by
  induction pending generalizing level code with
  | nil =>
    obtain ⟨before, -, operand⟩ := h
    cases before with
    | start =>
      cases hp
      exact ⟨_, operand.weaken (Nat.zero_le level), List.append_nil _⟩
  | cons p pending ih =>
    cases p with
    | openParen offset => simp [Scan.popAll] at hp
    | operator op => exact ih h.operate hp

namespace Scan

/-- The scan has read the tokens. -/
def HasRead (registry : Registry α) (kinds : List TokenKind) (s : Scan α) : Prop :=
  if s.wantsOperand then Awaits registry kinds s.pending s.code
  else Holds registry 3 kinds s.pending s.code

theorem HasRead.awaits {kinds : List TokenKind} {s : Scan α} (h : s.HasRead registry kinds)
    (wants : s.wantsOperand = true) : Awaits registry kinds s.pending s.code := by
  simpa [HasRead, wants] using h

theorem HasRead.holds {kinds : List TokenKind} {s : Scan α} (h : s.HasRead registry kinds)
    (holds : s.wantsOperand = false) : Holds registry 3 kinds s.pending s.code := by
  simpa [HasRead, holds] using h

theorem HasRead.emit {kinds operand : List TokenKind} {s : Scan α} {tree : Tree α}
    {i : Instruction α} (h : s.HasRead registry kinds) (wants : s.wantsOperand = true)
    (ho : Reads registry 3 operand tree) (hi : tree.code Term.offset = [i]) :
    (s.emit i).HasRead registry (kinds ++ operand) := by
  have := Holds.intro (h.awaits wants) (admits_operand _) ho
  simpa [HasRead, Scan.emit, hi] using this

theorem HasRead.step {kinds : List TokenKind} {s next : Scan α} {t : Token}
    (h : s.HasRead registry kinds) (hs : s.step registry .full t = .ok next) :
    next.HasRead registry (kinds ++ [t.kind]) := by
  cases takes_of_step hs with
  | number kind wants hn =>
    rw [kind]
    exact h.emit wants (.number hn) rfl
  | identifier kind wants hn =>
    rw [kind]
    exact h.emit wants (.identifier hn) rfl
  | openParen kind wants =>
    rw [kind]
    simpa [HasRead, wants] using (h.awaits wants).group t.span.offset
  | closeParen kind holds hc =>
    rw [kind]
    simpa [HasRead, holds] using (h.holds holds).close hc
  | @operator op code pending kind holds hp =>
    obtain ⟨admits, high, strong, left⟩ :=
      (h.holds holds).popStronger (Nat.le_of_lt op.precedence_lt)
    rw [hp] at admits left
    rw [kind]
    simpa [HasRead] using left.await strong admits

theorem HasRead.run {kinds : List TokenKind} {s last : Scan α} {tokens : List Token}
    (h : s.HasRead registry kinds) (hs : s.run registry .full tokens = .ok last) :
    last.HasRead registry (kinds ++ tokens.map Token.kind) := by
  induction tokens generalizing kinds s with
  | nil =>
    cases hs
    simpa using h
  | cons t tokens ih =>
    rw [Scan.run] at hs
    cases hstep : s.step registry .full t with
    | error e => simp [hstep] at hs
    | ok next =>
      rw [hstep] at hs
      simpa using ih (h.step hstep) hs

theorem hasRead_of_run {last : Scan α} {tokens : List Token}
    (hs : Scan.start.run registry .full tokens = .ok last) :
    last.HasRead registry (tokens.map Token.kind) := by
  have h : HasRead registry [] Scan.start := .start
  simpa using h.run hs

end Scan

end FormulaFit

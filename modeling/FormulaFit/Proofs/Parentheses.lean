import FormulaFit.Proofs.Scan

namespace FormulaFit

def openings (tokens : List Token) : Nat :=
  tokens.countP (·.kind = .openParen)

def closings (tokens : List Token) : Nat :=
  tokens.countP (·.kind = .closeParen)

/-- The tokens close no parenthesis but their own. -/
def ClosesOwn (tokens : List Token) : Prop :=
  ∀ n, closings (tokens.take n) ≤ openings (tokens.take n)

/-- The token opens a parenthesis that is never closed. -/
def IsUnclosed (tokens : List Token) (t : Token) : Prop :=
  ∃ before after, tokens = before ++ t :: after ∧ t.kind = .openParen ∧ ClosesOwn after

/-- The token opens the last of the parentheses that are never closed. -/
def IsLastUnclosed (tokens : List Token) (t : Token) : Prop :=
  ∃ before after, tokens = before ++ t :: after ∧ t.kind = .openParen ∧ ClosesOwn after ∧
    ∀ u, ¬IsUnclosed after u

theorem IsLastUnclosed.isUnclosed {tokens : List Token} {t : Token} (h : IsLastUnclosed tokens t) :
    IsUnclosed tokens t := by
  obtain ⟨before, after, split, kind, own, -⟩ := h
  exact ⟨before, after, split, kind, own⟩

section

variable {t u : Token} {tokens rest : List Token}

theorem openings_append (tokens rest : List Token) :
    openings (tokens ++ rest) = openings tokens + openings rest :=
  List.countP_append

theorem closings_append (tokens rest : List Token) :
    closings (tokens ++ rest) = closings tokens + closings rest :=
  List.countP_append

theorem counts_opening (kind : t.kind = .openParen) (rest : List Token) :
    openings (t :: rest) = openings rest + 1 ∧ closings (t :: rest) = closings rest := by
  simp [openings, closings, kind]

theorem counts_closing (kind : t.kind = .closeParen) :
    openings [t] = 0 ∧ closings [t] = 1 := by
  simp [openings, closings, kind]

theorem counts_other (opens : t.kind ≠ .openParen) (closes : t.kind ≠ .closeParen) :
    openings [t] = 0 ∧ closings [t] = 0 := by
  simp [openings, closings, opens, closes]

theorem ClosesOwn.whole (h : ClosesOwn tokens) : closings tokens ≤ openings tokens := by
  have all := h tokens.length
  rwa [List.take_length] at all

theorem ClosesOwn.append (h : ClosesOwn tokens)
    (later : ∀ n, closings tokens + closings (rest.take n) ≤
      openings tokens + openings (rest.take n)) : ClosesOwn (tokens ++ rest) := by
  intro n
  rcases Nat.le_total n tokens.length with early | late
  · rw [List.take_append_of_le_length early]
    exact h n
  · rw [List.take_append, List.take_of_length_le late, closings_append, openings_append]
    exact later _

/-- The tokens close all their parentheses, and no others. -/
structure Balanced (tokens : List Token) : Prop where
  own : ClosesOwn tokens
  all : closings tokens = openings tokens

theorem Balanced.nil : Balanced [] := by
  refine ⟨fun n => ?_, rfl⟩
  rw [List.take_nil]
  exact Nat.le_refl _

theorem Balanced.append (h : Balanced tokens) (h' : Balanced rest) : Balanced (tokens ++ rest) := by
  refine ⟨h.own.append fun n => ?_, ?_⟩
  · have := h'.own n
    have := h.all
    omega
  · rw [closings_append, openings_append, h.all, h'.all]

theorem Balanced.other (opens : t.kind ≠ .openParen) (closes : t.kind ≠ .closeParen) :
    Balanced [t] := by
  obtain ⟨opened, closed⟩ := counts_other opens closes
  refine ⟨fun n => ?_, by omega⟩
  cases n with
  | zero => exact Nat.le_refl _
  | succ n =>
    rw [List.take_succ_cons, List.take_nil]
    omega

theorem Balanced.group (opening : t.kind = .openParen) (h : Balanced tokens)
    (closing : u.kind = .closeParen) : Balanced (t :: tokens ++ [u]) := by
  obtain ⟨opened, closed⟩ := counts_opening opening tokens
  obtain ⟨opens, closes⟩ := counts_closing closing
  have whole := h.all
  have front : ClosesOwn (t :: tokens) := by
    intro n
    cases n with
    | zero => exact Nat.le_refl _
    | succ n =>
      have := h.own n
      have := counts_opening opening (tokens.take n)
      rw [List.take_succ_cons]
      omega
  refine ⟨front.append fun n => ?_, ?_⟩
  · cases n with
    | zero => exact Nat.add_le_add_right front.whole 0
    | succ n =>
      rw [List.take_succ_cons, List.take_nil]
      omega
  · rw [closings_append, openings_append]
    omega

theorem Balanced.not_isUnclosed (h : Balanced tokens) (t : Token) : ¬IsUnclosed tokens t := by
  rintro ⟨before, after, rfl, kind, own⟩
  have front := h.own before.length
  rw [List.take_left] at front
  have back := own.whole
  have whole := h.all
  obtain ⟨opened, closed⟩ := counts_opening kind after
  rw [closings_append, openings_append] at whole
  omega

/-- What tokens leave open, the innermost parenthesis first. -/
inductive Leaves : List Token → List Token → Prop
  | nothing {tokens : List Token} (h : Balanced tokens) : Leaves tokens []
  | opened {tokens unclosed inner : List Token} {t : Token} (before : Leaves tokens unclosed)
    (kind : t.kind = .openParen) (h : Balanced inner) :
    Leaves (tokens ++ t :: inner) (t :: unclosed)

variable {unclosed : List Token}

theorem Leaves.append (h : Leaves tokens unclosed) (balanced : Balanced rest) :
    Leaves (tokens ++ rest) unclosed := by
  cases h with
  | nothing h => exact .nothing (h.append balanced)
  | opened before kind h =>
    rw [List.append_assoc]
    exact .opened before kind (h.append balanced)

theorem Leaves.close (h : Leaves tokens (t :: unclosed)) (kind : u.kind = .closeParen) :
    Leaves (tokens ++ [u]) unclosed := by
  cases h with
  | opened before opening inner =>
    rw [List.append_assoc]
    exact before.append (inner.group opening kind)

theorem Leaves.isLastUnclosed (h : Leaves tokens (t :: unclosed)) : IsLastUnclosed tokens t := by
  cases h with
  | opened before kind inner => exact ⟨_, _, rfl, kind, inner.own, inner.not_isUnclosed⟩

theorem Leaves.not_isUnclosed (h : Leaves tokens []) (t : Token) : ¬IsUnclosed tokens t := by
  cases h with
  | nothing h => exact h.not_isUnclosed t

end

namespace Scan

/-- The places of the open parentheses that wait, the innermost first. -/
def openOffsets : List Pending → List Nat
  | [] => []
  | .operator _ :: rest => openOffsets rest
  | .openParen offset :: rest => offset :: openOffsets rest

section

variable {α : Type} {code : List (Instruction α)} {pending : List Pending}

theorem openOffsets_popStronger (op : Operator) (code : List (Instruction α))
    (pending : List Pending) :
    openOffsets (popStronger op code pending).2 = openOffsets pending := by
  induction pending generalizing code with
  | nil => rfl
  | cons p pending ih =>
    cases p with
    | openParen offset => rfl
    | operator top =>
      rw [popStronger]
      split
      next => rfl
      next => exact ih _

theorem openOffsets_of_popGroup? {closed : List (Instruction α)} {rest : List Pending}
    (h : popGroup? code pending = some (closed, rest)) :
    ∃ offset, openOffsets pending = offset :: openOffsets rest := by
  induction pending generalizing code with
  | nil => cases h
  | cons p pending ih =>
    cases p with
    | operator op => exact ih h
    | openParen offset =>
      cases h
      exact ⟨offset, rfl⟩

/-- At the end the innermost open parenthesis is refused. -/
theorem popAll_cases (code : List (Instruction α)) (pending : List Pending) :
    (openOffsets pending = [] ∧ ∃ reversed, popAll code pending = .ok reversed) ∨
      ∃ offset rest, openOffsets pending = offset :: rest ∧
        popAll code pending = .error (.unbalancedParen ⟨offset, 1⟩) := by
  induction pending generalizing code with
  | nil => exact Or.inl ⟨rfl, code, rfl⟩
  | cons p pending ih =>
    cases p with
    | operator op => exact ih _
    | openParen offset => exact Or.inr ⟨offset, _, rfl, rfl⟩

end

/-- The scan holds the parentheses that the tokens leave open. -/
def Keeps {α : Type} (tokens : List Token) (s : Scan α) : Prop :=
  ∃ unclosed, Leaves tokens unclosed ∧ openOffsets s.pending = unclosed.map (·.span.offset)

variable {α : Type} [Scalar α] {registry : Registry α} {layout : Layout} {tokens : List Token}
  {s next : Scan α} {t : Token}

theorem Keeps.step (h : s.Keeps tokens) (hs : s.step registry layout t = .ok next) :
    next.Keeps (tokens ++ [t]) := by
  obtain ⟨unclosed, leaves, offsets⟩ := h
  cases takes_of_step hs with
  | number kind wants h =>
    exact ⟨unclosed, leaves.append (.other (by simp [kind]) (by simp [kind])), offsets⟩
  | identifier kind wants h =>
    refine ⟨unclosed, leaves.append (.other (by simp [kind]) (by simp [kind])), ?_⟩
    rw [mention_pending, offsets]
  | openParen kind wants =>
    exact ⟨t :: unclosed, .opened leaves kind .nil, congrArg (t.span.offset :: ·) offsets⟩
  | closeParen kind holds h =>
    -- A parenthesis that can be closed waits, so the innermost of the unclosed ones is closed.
    obtain ⟨offset, closed⟩ := openOffsets_of_popGroup? h
    rw [closed] at offsets
    obtain ⟨u, unclosed, rfl, -, rest⟩ := List.map_eq_cons_iff.mp offsets.symm
    exact ⟨unclosed, leaves.close kind, rest.symm⟩
  | @operator op code pending kind holds h =>
    refine ⟨unclosed, leaves.append (.other (by simp [kind]) (by simp [kind])), ?_⟩
    have popped := openOffsets_popStronger op s.code s.pending
    rw [h] at popped
    exact popped.trans offsets

theorem Keeps.run {more : List Token} (h : s.Keeps tokens)
    (hs : s.run registry layout more = .ok next) : next.Keeps (tokens ++ more) := by
  induction more generalizing tokens s with
  | nil =>
    cases hs
    rwa [List.append_nil]
  | cons t more ih =>
    rw [Scan.run] at hs
    cases hstep : s.step registry layout t with
    | error e => simp [hstep] at hs
    | ok middle =>
      rw [hstep] at hs
      have rest := ih (h.step hstep) hs
      rwa [List.append_assoc] at rest

theorem keeps_of_run (hs : Scan.start.run registry layout tokens = .ok s) : s.Keeps tokens := by
  have started : (Scan.start : Scan α).Keeps [] := ⟨[], .nothing .nil, rfl⟩
  exact started.run hs

end Scan

end FormulaFit

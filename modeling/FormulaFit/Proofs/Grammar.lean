import FormulaFit.Proofs.Evaluation
import FormulaFit.Proofs.Scan

namespace FormulaFit

variable {α : Type} [Scalar α] {registry : Registry α}

open Scan

theorem Reads.weaken {high low : Nat} {kinds : List TokenKind} {tree : Tree α}
    (h : Reads registry high kinds tree) (le : low ≤ high) : Reads registry low kinds tree := by
  cases h with
  | number h => exact .number h
  | identifier h => exact .identifier h
  | group h => exact .group h
  | operate op strong hl hr => exact .operate op (Nat.le_trans le strong) hl hr

/-- Every number text of the tokens is a run of digits and points. -/
def PlainNumbers (kinds : List TokenKind) : Prop :=
  ∀ text, .number text ∈ kinds → ∀ c ∈ text.toList, isNumberPart c

theorem TokenKind.ofSymbol_ne_number (c : Char) (text : String) : ofSymbol c ≠ .number text := by
  unfold ofSymbol
  split
  next => simp
  next =>
    split
    next => simp
    next => cases Operator.ofChar? c <;> simp

theorem TokenKind.isNumberPart_of_read {c : Char} {rest : List Char} {text : String}
    (h : (TokenKind.read c rest).1 = .number text) : ∀ d ∈ text.toList, isNumberPart d := by
  unfold TokenKind.read at h
  split at h
  next first =>
    cases h
    intro d member
    rcases List.mem_cons.mp (by simpa using member) with rfl | member
    · exact first
    · exact List.mem_takeWhile_imp member
  next =>
    split at h
    next => simp at h
    next => exact absurd h (ofSymbol_ne_number c text)

/-- The number texts of a formula are runs of digits and points. -/
theorem tokenize_plainNumbers (formula : String) :
    PlainNumbers ((tokenize formula).map Token.kind) := by
  have plain : ∀ offset text, PlainNumbers ((tokensFrom offset text).map Token.kind) := by
    intro offset text
    fun_induction tokensFrom offset text with
    | case1 => simp [PlainNumbers]
    | case2 offset c rest blank ih => exact ih
    | case3 offset c rest blank length ih =>
      intro text member
      rcases List.mem_cons.mp member with same | member
      · exact TokenKind.isNumberPart_of_read same.symm
      · exact ih text member
  exact plain 0 formula.toList

theorem Reads.isFormula {level : Nat} {kinds : List TokenKind} {tree : Tree α}
    (h : Reads registry level kinds tree) (plain : PlainNumbers kinds) :
    IsFormula registry kinds := by
  induction h with
  | @number level text n h =>
    exact .number (isNumberText_iff.mpr ⟨plain text (by simp), n, h⟩)
  | identifier h => exact .identifier h
  | group h ih => exact .group (ih fun text member => plain text (by simp [member]))
  | operate op strong hl hr ihl ihr =>
    exact .operate op (ihl fun text member => plain text (by simp [member]))
      (ihr fun text member => plain text (by simp [member]))

/-- Reading a tree's tokens where it is admitted leaves operators of its level at most waiting, and
appending these gives the tree's code. -/
theorem Reads.run {level : Nat} {kinds : List TokenKind} {tree : Tree α}
    (h : Reads registry level kinds tree) {tokens : List Token}
    (hk : tokens.map Token.kind = kinds) {s : Scan α} (wants : s.wantsOperand = true)
    (admits : Admits level s.pending) :
    ∃ last ops, s.run registry .full tokens = .ok last ∧ last.wantsOperand = false ∧
      last.pending = List.map .operator ops ++ s.pending ∧ (∀ o ∈ ops, level ≤ o.precedence) ∧
      (ops.map .operator).reverse ++ last.code = (tree.code Term.offset).reverse ++ s.code := by
  induction h generalizing tokens s with
  | number h =>
    obtain ⟨t, rfl, kind⟩ := List.map_eq_singleton_iff.mp hk
    exact ⟨_, [], run_cons_of_ok ((Takes.number kind wants h).step) [], rfl, rfl, by simp, rfl⟩
  | identifier h =>
    obtain ⟨t, rfl, kind⟩ := List.map_eq_singleton_iff.mp hk
    exact ⟨_, [], run_cons_of_ok ((Takes.identifier kind wants h).step) [], rfl, rfl, by simp, rfl⟩
  | group inner ih =>
    obtain ⟨opening, closing, rfl, hopening, hclosing⟩ := List.map_eq_append_iff.mp hk
    obtain ⟨first, inside, rfl, kindFirst, hinside⟩ := List.map_eq_cons_iff.mp hopening
    obtain ⟨t, rfl, kind⟩ := List.map_eq_singleton_iff.mp hclosing
    obtain ⟨middle, ops, hrun, holds, hpending, -, hcode⟩ :=
      ih hinside (s := { s with pending := .openParen first.span.offset :: s.pending }) wants
        trivial
    have hclosed := popGroup?_operators ops first.span.offset s.pending middle.code
    rw [← hpending] at hclosed
    refine ⟨{ middle with
      code := (ops.map .operator).reverse ++ middle.code
      pending := s.pending }, [], ?_, holds, rfl, by simp, hcode⟩
    rw [List.cons_append, run_cons_of_ok ((Takes.openParen kindFirst wants).step),
      run_append_of_ok hrun]
    exact run_cons_of_ok ((Takes.closeParen kind holds hclosed).step) []
  | @operate level left right a b op strong hl hr ihl ihr =>
    obtain ⟨lefts, others, rfl, hleft, hothers⟩ := List.map_eq_append_iff.mp hk
    obtain ⟨t, rights, rfl, kind, hright⟩ := List.map_eq_cons_iff.mp hothers
    have admitsLeft : Admits op.precedence s.pending := by
      cases hs : s.pending with
      | nil => trivial
      | cons p rest =>
        rw [hs] at admits
        cases p with
        | openParen offset => trivial
        | operator top => exact Nat.lt_of_lt_of_le admits strong
    obtain ⟨middle, opsLeft, hrun, holds, hpending, hstrong, hcode⟩ := ihl hleft wants admitsLeft
    -- All that the left operand leaves waiting binds at least as strongly as `op`.
    have hpop := popStronger_operators hstrong admitsLeft middle.code
    rw [← hpending] at hpop
    rw [hcode] at hpop
    obtain ⟨last, opsRight, hlast, holdsLast, hpendingLast, hstrongRight, hcodeLast⟩ :=
      ihr hright (s := { middle with
        code := (a.code Term.offset).reverse ++ s.code
        pending := .operator op :: s.pending
        wantsOperand := true }) rfl (Nat.lt_succ_self op.precedence)
    refine ⟨last, opsRight ++ [op], ?_, holdsLast, ?_, ?_, ?_⟩
    · rw [run_append_of_ok hrun, run_cons_of_ok (Takes.operator kind holds hpop).step, hlast]
    · simp [hpendingLast]
    · intro o ho
      rcases List.mem_append.mp ho with ho | ho
      · have := hstrongRight o ho
        omega
      · rw [List.mem_singleton.mp ho]
        exact strong
    · simp [Tree.code, hcodeLast]

/-- A whole formula is compiled to the code of its tree. -/
theorem Reads.run_start {kinds : List TokenKind} {tree : Tree α}
    (h : Reads registry 0 kinds tree) {tokens : List Token}
    (hk : tokens.map Token.kind = kinds) :
    ∃ last, Scan.start.run registry .full tokens = .ok last ∧
      popAll last.code last.pending = .ok (tree.code Term.offset).reverse := by
  obtain ⟨last, ops, hrun, -, hpending, -, hcode⟩ := h.run hk (s := Scan.start) rfl trivial
  refine ⟨last, hrun, popAll_eq_ok_iff.mpr ⟨ops, ?_, ?_⟩⟩
  · rw [hpending]
    exact List.append_nil _
  · rw [hcode]
    exact (List.append_nil _).symm

theorem exists_tokens (kinds : List TokenKind) :
    ∃ tokens : List Token, tokens.map Token.kind = kinds := by
  refine ⟨kinds.map fun kind => ⟨kind, ⟨0, 0⟩⟩, ?_⟩
  rw [List.map_map]
  exact List.map_id _

/-- Tokens have at most one tree. -/
theorem Reads.unique {kinds : List TokenKind} {tree other : Tree α}
    (h : Reads registry 0 kinds tree) (h' : Reads registry 0 kinds other) : tree = other := by
  obtain ⟨tokens, hk⟩ := exists_tokens kinds
  obtain ⟨last, hrun, hcode⟩ := h.run_start hk
  obtain ⟨last', hrun', hcode'⟩ := h'.run_start hk
  cases hrun.symm.trans hrun'
  have codes := Except.ok.inj (hcode.symm.trans hcode')
  exact Tree.code_injective Term.offset (List.reverse_inj.mp codes)

end FormulaFit

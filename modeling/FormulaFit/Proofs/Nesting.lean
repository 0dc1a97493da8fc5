import FormulaFit.Proofs.Depth
import FormulaFit.Proofs.Lexemes

namespace FormulaFit

/-- The greatest number of parentheses that are open at once, where `opened` are so before the
tokens. -/
def nestingFrom (opened : Nat) : List TokenKind → Nat
  | [] => opened
  | .openParen :: rest => nestingFrom (opened + 1) rest
  | .closeParen :: rest => max opened (nestingFrom (opened - 1) rest)
  | _ :: rest => nestingFrom opened rest

/-- How deep the parentheses of a formula are nested. -/
def nesting (formula : String) : Nat :=
  nestingFrom 0 ((tokenize formula).map Token.kind)

theorem le_nestingFrom (opened : Nat) (kinds : List TokenKind) :
    opened ≤ nestingFrom opened kinds := by
  fun_induction nestingFrom opened kinds with
  | case1 => exact Nat.le_refl _
  | case2 opened rest ih => omega
  | case3 opened rest ih => exact Nat.le_max_left _ _
  | case4 opened kind rest opens closes ih => exact ih

variable {α : Type} [Scalar α] {registry : Registry α} {layout : Layout} {formula : String}

section

variable {level : Nat} {kinds left right : List TokenKind} {tree a b : Tree α}

/-- A formula closes all that it opens, so what is open before it stays open. -/
theorem Reads.nestingFrom_append (h : Reads registry level kinds tree) (opened : Nat)
    (rest : List TokenKind) :
    nestingFrom opened (kinds ++ rest) =
      max (opened + nestingFrom 0 kinds) (nestingFrom opened rest) := by
  induction h generalizing opened rest with
  | number h | identifier h => exact (Nat.max_eq_right (le_nestingFrom opened rest)).symm
  | @group level inner tree h ih =>
    have closed (n : Nat) (rest : List TokenKind) :
        nestingFrom n (.openParen :: inner ++ .closeParen :: rest) =
          max (n + 1 + nestingFrom 0 inner) (max (n + 1) (nestingFrom n rest)) :=
      ih (n + 1) (.closeParen :: rest)
    rw [List.append_assoc, List.singleton_append, closed opened, closed 0]
    have := le_nestingFrom opened rest
    simp only [nestingFrom]
    omega
  | @operate level left right a b op strong hl hr ihl ihr =>
    have joined (n : Nat) (rest : List TokenKind) :
        nestingFrom n (left ++ .operator op :: (right ++ rest)) =
          max (n + nestingFrom 0 left) (max (n + nestingFrom 0 right) (nestingFrom n rest)) :=
      (ihl n (.operator op :: (right ++ rest))).trans (congrArg _ (ihr n rest))
    have alone := joined 0 []
    rw [List.append_nil] at alone
    rw [List.append_assoc, List.cons_append, joined opened, alone]
    have := le_nestingFrom opened rest
    simp only [nestingFrom]
    omega

theorem Reads.nestingFrom_group (h : Reads registry level kinds tree) :
    nestingFrom 0 (.openParen :: kinds ++ [.closeParen]) = nestingFrom 0 kinds + 1 := by
  have closed := h.nestingFrom_append 1 [.closeParen]
  simp only [nestingFrom] at closed
  rw [List.cons_append, nestingFrom, closed]
  omega

theorem Reads.nestingFrom_operate (hl : Reads registry level left a) (op : Operator) :
    nestingFrom 0 (left ++ .operator op :: right) =
      max (nestingFrom 0 left) (nestingFrom 0 right) := by
  rw [hl.nestingFrom_append, Nat.zero_add]
  rfl

theorem Operator.one_le_precedence (op : Operator) : 1 ≤ op.precedence := by
  cases op <;> decide

/-- At every depth of parentheses two operands at most wait for a right one: that of a sum, and that
of a product. -/
theorem Reads.need_le (h : Reads registry level kinds tree) :
    tree.need + max 1 (min level 3) ≤ 2 * nestingFrom 0 kinds + 4 := by
  induction h with
  | number h | identifier h =>
    simp only [Tree.need]
    omega
  | group h ih =>
    rw [h.nestingFrom_group]
    omega
  | operate op strong hl hr ihl ihr =>
    have := op.one_le_precedence
    have := op.precedence_lt
    rw [hl.nestingFrom_operate, Tree.need]
    omega

end

/-- The tokens decide the depth: a trailing operator does not add to it. -/
theorem Compiled.need_le {kinds : List TokenKind} {code : List (Instruction α)} {need : Nat}
    (h : Compiled registry kinds code need) : need ≤ 2 * nestingFrom 0 kinds + 3 := by
  cases h with
  | empty => exact Nat.zero_le _
  | formula h =>
    have := h.need_le
    omega
  | trailing h op hcode =>
    have := h.need_le
    rw [h.nestingFrom_operate]
    omega

theorem ScansTo.greatestHeight_le {code : List (Instruction α)}
    (h : ScansTo registry layout formula code) :
    greatestHeight 0 code ≤ 2 * nesting formula + 3 := by
  have full (code) (hf : ScansTo registry .full formula code) :
      greatestHeight 0 code ≤ 2 * nesting formula + 3 := by
    obtain ⟨last, reversed, hrun, hpop, rfl⟩ := hf
    obtain ⟨need, compiled, -⟩ := compile_of_run hrun hpop
    rw [compiled.greatestHeight]
    exact compiled.need_le
  cases layout with
  | full => exact full code h
  | compact =>
    obtain ⟨original, offset, hf, rfl⟩ := exists_scansTo_full h
    rw [greatestHeight_renumber]
    exact full original hf

/-- Compiling the formula counts the depth, and refuses the formula only if that is too great. -/
def CountsDepth (registry : Registry α) (layout : Layout) (formula : String) (depth : Nat) : Prop :=
  (depth ≤ stackCapacity ∧
      ∃ program, compile formula registry layout = .ok program ∧ program.depth = depth) ∨
    (stackCapacity < depth ∧ compile formula registry layout = .error (.tooDeep depth))

theorem countsDepth_iff {depth : Nat} :
    CountsDepth registry layout formula depth ↔
      ∃ code, ScansTo registry layout formula code ∧ greatestHeight 0 code = depth := by
  constructor
  · rintro (⟨-, program, h, rfl⟩ | ⟨-, failed⟩)
    · obtain ⟨scans, -, depth, -⟩ := scansTo_of_compile h
      exact ⟨program.code, scans, depth.symm⟩
    · obtain ⟨code, scans, greatest, -⟩ := compile_eq_tooDeep_iff.mp failed
      exact ⟨code, scans, scans.orderly.isGreatest.unique greatest⟩
  · rintro ⟨code, scans, rfl⟩
    rcases compile_of_scansTo scans with ⟨deep, failed⟩ | ⟨room, program, h, -, -, depth⟩
    · exact Or.inr ⟨deep, failed⟩
    · exact Or.inl ⟨room, program, h, depth⟩

theorem CountsDepth.le {depth : Nat} (h : CountsDepth registry layout formula depth) :
    depth ≤ 2 * nesting formula + 3 := by
  obtain ⟨code, scans, rfl⟩ := countsDepth_iff.mp h
  exact scans.greatestHeight_le

theorem countsDepth_of_reads {tree : Tree α}
    (h : Reads registry 0 ((tokenize formula).map Token.kind) tree) (layout : Layout) :
    CountsDepth registry layout formula tree.need := by
  have compiled := compile_of_reads h
  split at compiled
  next deep => exact Or.inr ⟨deep, compile_eq_error_of_full compiled layout⟩
  next room =>
    refine Or.inl ⟨Nat.le_of_not_lt room, ?_⟩
    cases layout with
    | full => exact ⟨_, compiled, rfl⟩
    | compact =>
      obtain ⟨terms, compact, hc, compacts⟩ := compacts_of_full compiled
      exact ⟨compact, hc, compacts.depth⟩

/-- A formula of the given depth of parentheses where a sum and a product wait at every depth. -/
def steep : Nat → String
  | 0 => "1+1*1"
  | d + 1 => "1+1*(" ++ steep d ++ ")"

theorem kinds_steep_succ (d : Nat) :
    (tokenize (steep (d + 1))).map Token.kind =
      [.number "1", .operator .add, .number "1", .operator .mul] ++
        (.openParen :: (tokenize (steep d)).map Token.kind ++ [.closeParen]) := by
  have split : (steep (d + 1)).toList =
      "1+1*".toList ++ '(' :: ((steep d).toList ++ ')' :: []) := by
    simp [steep]
  have front : tokenKinds "1+1*".toList =
      [.number "1", .operator .add, .number "1", .operator .mul] := by
    decide +kernel
  have closing : tokenKinds [')'] = [.closeParen] := by decide +kernel
  change tokenKinds (steep (d + 1)).toList = _
  rw [split, tokenKinds_append (by decide), front, tokenKinds_symbol (by decide) rfl (by decide),
    tokenKinds_append (by decide), closing]
  rfl

theorem exists_reads_steep (registry : Registry α) (d : Nat) :
    nesting (steep d) = d ∧ ∃ tree, tree.need = 2 * d + 3 ∧
      Reads registry 0 ((tokenize (steep d)).map Token.kind) tree := by
  have one (level : Nat) : Reads registry level [.number "1"] _ :=
    .number (n := .finite false 1 0) (by decide)
  -- An operand of a product, after a sum and a product with a number each.
  have climb {kinds : List TokenKind} {tree : Tree α} (h : Reads registry 3 kinds tree) :
      ∃ whole, whole.need = tree.need + 2 ∧ Reads registry 0
        ([.number "1", .operator .add, .number "1", .operator .mul] ++ kinds) whole := by
    have product := Reads.operate .mul (Nat.le_refl 2) (one 2) h
    refine ⟨_, ?_, Reads.operate .add (Nat.zero_le 1) (one 1) product⟩
    have := tree.one_le_need
    simp only [Tree.need]
    omega
  induction d with
  | zero =>
    have kinds : (tokenize (steep 0)).map Token.kind =
        [.number "1", .operator .add, .number "1", .operator .mul] ++ [.number "1"] := by
      decide +kernel
    obtain ⟨whole, need, reads⟩ := climb (one 3)
    rw [nesting, kinds]
    exact ⟨rfl, whole, need, reads⟩
  | succ d ih =>
    obtain ⟨deep, tree, need, reads⟩ := ih
    obtain ⟨whole, needWhole, readsWhole⟩ := climb reads.group
    rw [nesting, kinds_steep_succ]
    refine ⟨?_, whole, by omega, readsWhole⟩
    rw [nesting] at deep
    have grouped := reads.nestingFrom_group
    rw [deep] at grouped
    exact grouped

/-- Parentheses alone make a formula deep: however long it is, a formula whose parentheses are nested
`d` deep takes at most `2 * d + 3` places of the stack, and some such formula takes them all. So with
30 of them in one another every formula fits the stack, and with 31 some formula does not. -/
theorem compile_depth_nesting (registry : Registry α) (layout : Layout) :
    (∀ formula,
      ((∃ code, ScansTo registry layout formula code) ↔
        ∃ depth, CountsDepth registry layout formula depth) ∧
      ∀ depth, CountsDepth registry layout formula depth → depth ≤ 2 * nesting formula + 3) ∧
    (∀ d, ∃ formula, nesting formula = d ∧ CountsDepth registry layout formula (2 * d + 3)) ∧
    (∀ formula, nesting formula ≤ 30 →
      ∀ depth, compile formula registry layout ≠ .error (.tooDeep depth)) ∧
    ∃ formula, nesting formula = 31 ∧
      compile formula registry layout = .error (.tooDeep 65) := by
  have reached (d : Nat) :
      ∃ formula, nesting formula = d ∧ CountsDepth registry layout formula (2 * d + 3) := by
    obtain ⟨deep, tree, need, reads⟩ := exists_reads_steep registry d
    exact ⟨steep d, deep, need ▸ countsDepth_of_reads reads layout⟩
  refine ⟨fun formula => ⟨?_, fun depth => CountsDepth.le⟩, reached, ?_, ?_⟩
  · constructor
    · rintro ⟨code, scans⟩
      exact ⟨_, countsDepth_iff.mpr ⟨code, scans, rfl⟩⟩
    · rintro ⟨depth, counts⟩
      obtain ⟨code, scans, -⟩ := countsDepth_iff.mp counts
      exact ⟨code, scans⟩
  · intro formula flat depth failed
    obtain ⟨code, scans, greatest, deep⟩ := compile_eq_tooDeep_iff.mp failed
    have counts : CountsDepth registry layout formula depth := Or.inr ⟨deep, failed⟩
    have bound := counts.le
    have capacity : stackCapacity = 64 := rfl
    omega
  · obtain ⟨formula, deep, counts⟩ := reached 31
    rcases counts with ⟨room, -⟩ | ⟨-, failed⟩
    · exact absurd room (by decide)
    · exact ⟨formula, deep, failed⟩

end FormulaFit

import FormulaFit.Proofs.Growth
import FormulaFit.Proofs.Lexemes

namespace FormulaFit

/-- Two formulas in parentheses, joined by an operator. -/
def joinFormulas (op : Operator) (f g : String) : String :=
  "(" ++ f ++ ")" ++ op.symbol.toString ++ "(" ++ g ++ ")"

theorem toList_joinFormulas (op : Operator) (f g : String) :
    (joinFormulas op f g).toList =
      '(' :: (f.toList ++ ')' :: op.symbol :: '(' :: (g.toList ++ [')'])) := by
  simp [joinFormulas]

theorem isDelimiter_closeParen : IsDelimiter ')' :=
  ⟨by decide +kernel, by decide +kernel⟩

theorem kinds_joinFormulas (op : Operator) (f g : String) :
    (tokenize (joinFormulas op f g)).map Token.kind =
      (.openParen :: (tokenize f).map Token.kind ++ [.closeParen]) ++
        .operator op :: (.openParen :: (tokenize g).map Token.kind ++ [.closeParen]) := by
  have opening (rest : List Char) : tokenKinds ('(' :: rest) = .openParen :: tokenKinds rest :=
    tokenKinds_symbol (by decide +kernel) (by decide +kernel) (by decide +kernel) rest
  have closing (rest : List Char) : tokenKinds (')' :: rest) = .closeParen :: tokenKinds rest :=
    tokenKinds_symbol (by decide +kernel) (by decide +kernel) (by decide +kernel) rest
  have joining (rest : List Char) :
      tokenKinds (op.symbol :: rest) = .operator op :: tokenKinds rest := by
    cases op <;>
      exact tokenKinds_symbol (by decide +kernel) (by decide +kernel) (by decide +kernel) rest
  have nothing : tokenKinds [] = [] := by simp [tokenKinds, tokensFrom]
  have whole (formula : String) : (tokenize formula).map Token.kind = tokenKinds formula.toList :=
    rfl
  rw [whole, whole, whole, toList_joinFormulas, opening,
    tokenKinds_append isDelimiter_closeParen, closing, joining, opening,
    tokenKinds_append isDelimiter_closeParen, closing, nothing]
  simp

variable {α : Type} [Scalar α] {registry : Registry α} {layout : Layout} {formula : String}
  {tree : Tree α}

omit [Scalar α] in
theorem Tree.mem_code_iff {offset : Term α → Nat} {t : Term α} {o : Nat} :
    .term t o ∈ tree.code offset ↔ t ∈ tree.terms ∧ o = offset t := by
  induction tree with
  | number v => simp [code, terms]
  | term u =>
    simp only [code, terms, List.mem_singleton, Instruction.term.injEq]
    constructor <;> rintro ⟨rfl, rfl⟩ <;> exact ⟨rfl, rfl⟩
  | node op left right ihl ihr => simp [code, terms, ihl, ihr, or_and_right]

omit [Scalar α] in
theorem Tree.filterMap_termName?_code (tree : Tree α) (offset : Term α → Nat) :
    (tree.code offset).filterMap Instruction.termName? = tree.terms.map Term.name := by
  induction tree with
  | number v => rfl
  | term t => rfl
  | node op left right ihl ihr => simp [code, terms, ihl, ihr, Instruction.termName?]

/-- The program computes the tree on its own part of a vector of all parameters. -/
structure Program.Computes (registry : Registry α) (tree : Tree α) (p : Program α) : Prop where
  verify : p.verify = .ok ()
  depth : p.depth = tree.need
  terms : p.terms = firstOccurrences (tree.terms.map Term.name)
  mentions : ∀ t, p.Mentions t ↔ t ∈ tree.terms
  value : ∀ params, registry.paramsLength ≤ params.length →
    ∃ bound, p.bind params = .ok bound ∧ ∀ x, p.evaluate bound x = tree.value params x

omit [Scalar α] in
theorem Program.Compacts.mentions_iff {terms : List (Term α)} {full compact : Program α}
    (h : full.Compacts registry terms compact) (t : Term α) :
    compact.Mentions t ↔ full.Mentions t := by
  constructor
  · rintro ⟨offset, member⟩
    obtain ⟨before, after, rfl, -⟩ := h.mem_code_iff.mp member
    exact ⟨t.offset, h.exists_mention (by simp)⟩
  · rintro ⟨offset, member⟩
    obtain ⟨before, after, split⟩ := List.append_of_mem (h.mem_terms member).1
    exact ⟨_, h.mem_code_iff.mpr ⟨before, after, split, rfl⟩⟩

namespace Program.Computes

variable {terms : List (Term α)} {full compact : Program α}

theorem of_code (inside : full.Contained) (layout : full.layout = .full)
    (length : full.paramsLength = registry.paramsLength)
    (code : full.code = tree.code Term.offset) (depth : full.depth = tree.need)
    (room : tree.need ≤ stackCapacity) : full.Computes registry tree := by
  refine ⟨?_, depth, ?_, ?_, ?_⟩
  · simp only [Program.verify, code, tree.countCode_code Term.offset 0 0]
  · rw [Program.terms_eq, code, tree.filterMap_termName?_code]
  · intro t
    simp only [Program.Mentions, code, Tree.mem_code_iff, exists_and_left, exists_eq, and_true]
  · intro params enough
    rw [← length] at enough
    refine ⟨params.take full.paramsLength, Program.bind_of_full layout enough, ?_⟩
    intro x
    rw [Program.evaluate_take inside enough, Program.evaluate_of_code code room enough]

theorem of_compacts (h : full.Computes registry tree) (reach : registry.Reachable)
    (compacts : full.Compacts registry terms compact)
    (value : ∀ params, registry.paramsLength ≤ params.length → ∀ x,
      full.evaluate params x = tree.value params x) : compact.Computes registry tree := by
  refine ⟨compacts.verify_eq.trans h.verify, compacts.depth.trans h.depth, ?_, ?_, ?_⟩
  · rw [compacts.terms_eq.2, ← compacts.terms_eq.1, h.terms]
  · intro t
    rw [compacts.mentions_iff, ← h.mentions]
  · intro params enough
    refine ⟨joinSlices terms params, compacts.bind_eq_ok reach enough, ?_⟩
    intro x
    have fit := compacts.slices_fit reach enough
    rw [compacts.evaluate_joinSlices fit enough, value params enough]

end Program.Computes

/-- In either layout a formula is compiled to a program that computes its tree, unless the tree
needs too much of the stack. -/
theorem compile_cases_of_reads (reach : registry.Reachable) (layout : Layout)
    (h : Reads registry 0 ((tokenize formula).map Token.kind) tree) :
    (stackCapacity < tree.need ∧
        compile formula registry layout = .error (.tooDeep tree.need)) ∨
      (tree.need ≤ stackCapacity ∧ ∃ program, compile formula registry layout = .ok program ∧
        program.Computes registry tree) := by
  have hfull := compile_of_reads h
  split at hfull
  next deep =>
    exact Or.inl ⟨deep, compile_eq_error_of_full hfull layout⟩
  next room =>
    have room := Nat.le_of_not_lt room
    have computes := Program.Computes.of_code (compile_contained reach hfull) rfl rfl rfl rfl room
    refine Or.inr ⟨room, ?_⟩
    cases layout with
    | full => exact ⟨_, hfull, computes⟩
    | compact =>
      obtain ⟨terms, compact, hcompact, compacts⟩ := compacts_of_full hfull
      refine ⟨compact, hcompact, computes.of_compacts reach compacts ?_⟩
      intro params enough x
      exact Program.evaluate_of_code rfl room enough x

/-- A program that passes verification computes the tree of its formula. -/
theorem exists_computes_of_verify (reach : registry.Reachable) {program : Program α}
    (h : compile formula registry layout = .ok program) (verified : program.verify = .ok ()) :
    ∃ tree, Reads registry 0 ((tokenize formula).map Token.kind) tree ∧
      program.Computes registry tree := by
  obtain ⟨-, tree, htree, room⟩ := verified_iff_accepted.mp ⟨program, h, verified⟩
  rcases compile_cases_of_reads reach layout htree with ⟨deep, -⟩ | ⟨-, found, hfound, computes⟩
  · exact absurd deep (Nat.not_lt.mpr room)
  · cases h.symm.trans hfound
    exact ⟨tree, htree, computes⟩

/-- What two programs compute, joined by an operator. -/
structure Program.Joins (registry : Registry α) (op : Operator) (pf pg p : Program α) : Prop where
  verify : p.verify = .ok ()
  depth : p.depth = max pf.depth (1 + pg.depth)
  terms : p.terms = firstOccurrences (pf.terms ++ pg.terms)
  mentions : ∀ t, p.Mentions t ↔ pf.Mentions t ∨ pg.Mentions t
  value : ∀ params, registry.paramsLength ≤ params.length →
    ∃ left right bound, pf.bind params = .ok left ∧ pg.bind params = .ok right ∧
      p.bind params = .ok bound ∧ ∀ x,
        (p.evaluate bound x = do
          let a ← pf.evaluate left x
          let b ← pg.evaluate right x
          return op.apply a b) ∧
        ((∃ v, p.evaluate bound x = .ok v) ↔ ∀ t, p.Mentions t → t.DefinedAt x)

theorem Program.Computes.joins {op : Operator} {a b : Tree α} {pf pg p : Program α}
    (reach : registry.Reachable)
    (members : ∀ t ∈ (Tree.node op a b).terms, t ∈ registry.terms)
    (hf : pf.Computes registry a) (hg : pg.Computes registry b)
    (hp : p.Computes registry (.node op a b)) : Program.Joins registry op pf pg p := by
  refine ⟨hp.verify, ?_, ?_, ?_, ?_⟩
  · rw [hp.depth, hf.depth, hg.depth, Tree.need]
  · rw [hp.terms, hf.terms, hg.terms, Tree.terms, List.map_append, firstOccurrences_append]
  · intro t
    rw [hp.mentions, hf.mentions, hg.mentions, Tree.terms, List.mem_append]
  · intro params enough
    obtain ⟨left, hleft, leftValue⟩ := hf.value params enough
    obtain ⟨right, hright, rightValue⟩ := hg.value params enough
    obtain ⟨bound, hbound, value⟩ := hp.value params enough
    refine ⟨left, right, bound, hleft, hright, hbound, ?_⟩
    intro x
    refine ⟨by rw [value, leftValue, rightValue, Tree.value], ?_⟩
    simp only [value, hp.mentions]
    exact exists_value_iff_templates reach.wellFormed members enough x

/-- Formulas compose. Two of them in parentheses, joined by an operator, are compiled to a program
whose value is the operator's at their own values, unless the stack is too small for that. -/
theorem compile_joinFormulas (reach : registry.Reachable) (layout : Layout) (op : Operator)
    {f g : String} {pf pg : Program α} (hf : compile f registry layout = .ok pf)
    (verifiedF : pf.verify = .ok ()) (hg : compile g registry layout = .ok pg)
    (verifiedG : pg.verify = .ok ()) :
    (max pf.depth (1 + pg.depth) ≤ stackCapacity →
        ∃ p, compile (joinFormulas op f g) registry layout = .ok p ∧
          Program.Joins registry op pf pg p) ∧
      (stackCapacity < max pf.depth (1 + pg.depth) →
        compile (joinFormulas op f g) registry layout =
          .error (.tooDeep (max pf.depth (1 + pg.depth)))) := by
  obtain ⟨a, ha, computesF⟩ := exists_computes_of_verify reach hf verifiedF
  obtain ⟨b, hb, computesG⟩ := exists_computes_of_verify reach hg verifiedG
  have joined := Reads.operate op (Nat.zero_le _) ha.group hb.group
  rw [← kinds_joinFormulas] at joined
  have need : (Tree.node op a b).need = max pf.depth (1 + pg.depth) := by
    rw [Tree.need, computesF.depth, computesG.depth]
  rw [← need]
  rcases compile_cases_of_reads reach layout joined with
    ⟨deep, failed⟩ | ⟨room, p, compiled, computes⟩
  · exact ⟨fun room => absurd deep (Nat.not_lt.mpr room), fun _ => failed⟩
  · have joins := computesF.joins reach (fun t => joined.mem_terms) computesG computes
    exact ⟨fun _ => ⟨p, compiled, joins⟩,
      fun deep => absurd deep (Nat.not_lt.mpr room)⟩

/-- A constant over its square takes three places of the stack. -/
theorem compile_joinFormulas_quotient :
    ∃ (registry : Registry Float) (pf pg p : Program Float), registry.Reachable ∧
      compile "t" registry .full = .ok pf ∧ compile "t*t" registry .full = .ok pg ∧
      compile "(t)/(t*t)" registry .full = .ok p ∧ p.depth = 3 ∧
      Program.Joins registry .div pf pg p := by
  obtain ⟨registry, -, reach, -, named⟩ := Registry.exists_constant_registered
  have kindsF : (tokenize "t").map Token.kind = [.identifier "t"] := by decide +kernel
  have kindsG : (tokenize "t*t").map Token.kind =
      [.identifier "t", .operator .mul, .identifier "t"] := by
    decide +kernel
  have t (level : Nat) : Reads registry level [.identifier "t"] _ := .identifier named
  have square := Reads.operate .mul (Nat.zero_le 2) (t 2) (t 3)
  simp only [List.cons_append, List.nil_append] at square
  have readF := t 0
  rw [← kindsF] at readF
  rw [← kindsG] at square
  have hf := compile_of_reads readF
  have hg := compile_of_reads square
  rw [if_neg (by decide)] at hf hg
  obtain ⟨p, hp, joins⟩ :=
    (compile_joinFormulas reach .full .div hf rfl hg rfl).1 (by simp [Tree.need, stackCapacity])
  exact ⟨registry, _, _, p, reach, hf, hg, hp, joins.depth, joins⟩

end FormulaFit

import FormulaFit.Proofs.Checking
import FormulaFit.Proofs.Lexemes
import FormulaFit.Proofs.RegistryRuns

namespace FormulaFit

theorem isIdentifier_iff {name : String} :
    isIdentifier name ↔ ∃ first rest, name.toList = first :: rest ∧ isIdentifierStart first ∧
      ∀ c ∈ rest, isIdentifierPart c := by
  rw [isIdentifier]
  cases name.toList with
  | nil => simp
  | cons first rest => simp

namespace TokenKind

theorem ofSymbol_ne_identifier (c : Char) (name : String) : ofSymbol c ≠ .identifier name := by
  unfold ofSymbol
  split
  next => simp
  next =>
    split
    next => simp
    next => cases Operator.ofChar? c <;> simp

/-- Wherever it stands, a name that a formula mentions is an identifier. -/
theorem Lexeme.isIdentifier {name : String} {after : List Char}
    (h : Lexeme (.identifier name) after) : isIdentifier name := by
  generalize whole : TokenKind.identifier name = kind at h
  cases h with
  | number parts ends => cases whole
  | @identifier first rest _ start parts ends =>
    cases whole
    exact isIdentifier_iff.mpr ⟨first, rest, String.toList_ofList, start, parts⟩
  | @symbol c => exact absurd whole.symm (ofSymbol_ne_identifier c name)

end TokenKind

/-- Just the identifiers are a single name when they are split into tokens. -/
theorem isIdentifier_iff_tokenize {name : String} :
    isIdentifier name ↔ tokenize name = [⟨.identifier name, ⟨0, name.utf8ByteSize⟩⟩] := by
  constructor
  · intro identifier
    obtain ⟨first, rest, chars, start, parts⟩ := isIdentifier_iff.mp identifier
    have same : String.ofList (first :: rest) = name := by rw [← chars, String.ofList_toList]
    have lexeme : (TokenKind.identifier (String.ofList (first :: rest))).Lexeme [] :=
      .identifier start parts (by simp)
    have visible : isBlank first = false := lexeme.visible first (by simp [TokenKind.text])
    have done (offset : Nat) : tokensFrom offset [] = [] := by rw [tokensFrom]
    rw [tokenize, chars, tokensFrom, if_neg (Bool.eq_false_iff.mp visible)]
    simp only [TokenKind.read_identifier start parts, done, same, TokenKind.text]
  · intro single
    obtain ⟨before, after, -, -, lexeme⟩ :=
      tokenize_place (single ▸ List.mem_singleton_self _)
    exact TokenKind.Lexeme.isIdentifier lexeme

/-- Numbers and names stand for operands. -/
def TokenKind.isOperand : TokenKind → Bool
  | .number _ | .identifier _ => true
  | _ => false

def Instruction.isOperand {α : Type} : Instruction α → Bool
  | .operator _ => false
  | _ => true

variable {α : Type} [Scalar α] {registry : Registry α} {layout : Layout} {formula : String}
  {program : Program α}

/-- What an operand of a formula is compiled to, wherever its slice is. -/
inductive Denotes (registry : Registry α) : TokenKind → Instruction α → Prop
  | number {text : String} {n : Numeral} (h : Numeral.read text.toList = .ok n) :
    Denotes registry (.number text) (.number n.value)
  | term {name : String} {t : Term α} (h : registry.get? name = some t) (offset : Nat) :
    Denotes registry (.identifier name) (.term t offset)

/-- The code has the operands that the tokens name, in their order. -/
def Aligned (registry : Registry α) (kinds : List TokenKind) (code : List (Instruction α)) : Prop :=
  List.Forall₂ (Denotes registry) (kinds.filter TokenKind.isOperand)
    (code.filter Instruction.isOperand)

section

variable {kinds : List TokenKind} {code : List (Instruction α)}

theorem Aligned.operand (h : Aligned registry kinds code) {kind : TokenKind} {i : Instruction α}
    (hk : kind.isOperand) (denotes : Denotes registry kind i) :
    Aligned registry (kinds ++ [kind]) (code ++ [i]) := by
  have own : i.isOperand := by cases denotes <;> rfl
  rw [Aligned, List.filter_append, List.filter_append, List.filter_singleton,
    List.filter_singleton, hk, own]
  exact List.rel_append h (.cons denotes .nil)

theorem Aligned.skip (h : Aligned registry kinds code) {kind : TokenKind}
    (hk : kind.isOperand = false) : Aligned registry (kinds ++ [kind]) code := by
  have none : [kind].filter TokenKind.isOperand = [] := by simp [hk]
  rw [Aligned, List.filter_append, none, List.append_nil]
  exact h

theorem Aligned.operators (h : Aligned registry kinds code) (ops : List Operator) :
    Aligned registry kinds (code ++ ops.map .operator) := by
  have none : (ops.map (Instruction.operator (α := α))).filter Instruction.isOperand = [] := by
    simp [List.filter_eq_nil_iff, Instruction.isOperand]
  rw [Aligned, List.filter_append, none, List.append_nil]
  exact h

namespace Scan

theorem aligned_mention {s : Scan α} {name : String} {t : Term α}
    (h : Aligned registry kinds s.code.reverse) (found : registry.get? name = some t)
    (layout : Layout) :
    Aligned registry (kinds ++ [.identifier name]) (s.mention layout t).code.reverse := by
  have emitted (s' : Scan α) (same : s'.code = s.code) (offset : Nat) :
      Aligned registry (kinds ++ [.identifier name]) (s'.emit (.term t offset)).code.reverse := by
    rw [emit, List.reverse_cons, same]
    exact h.operand rfl (.term found offset)
  cases layout with
  | full => exact emitted s rfl _
  | compact =>
    rw [mention]
    split
    next m known => exact emitted s rfl _
    next new => exact emitted _ rfl _

/-- A token that is taken adds its operand, and operators that waited. -/
theorem aligned_step {s next : Scan α} {t : Token} (h : Aligned registry kinds s.code.reverse)
    (hs : s.step registry layout t = .ok next) :
    Aligned registry (kinds ++ [t.kind]) next.code.reverse := by
  cases takes_of_step hs with
  | number kind wants hn =>
    rw [kind, emit, List.reverse_cons]
    exact h.operand rfl (.number hn)
  | identifier kind wants found =>
    rw [kind]
    exact aligned_mention h found layout
  | openParen kind wants => exact h.skip (by rw [kind]; rfl)
  | @closeParen code pending kind holds hc =>
    rcases popGroup?_eq (α := α) s.pending with unopened | ⟨ops, rest, closed⟩
    · rw [unopened] at hc
      cases hc
    · rw [closed] at hc
      cases hc
      rw [List.reverse_append, ← List.map_reverse]
      exact (h.skip (by rw [kind]; rfl)).operators ops.reverse
  | @operator op code pending kind holds hp =>
    obtain ⟨ops, rest, popped⟩ := popStronger_eq (α := α) op s.pending
    rw [popped] at hp
    cases hp
    rw [List.reverse_append, ← List.map_reverse]
    exact (h.skip (by rw [kind]; rfl)).operators ops.reverse

theorem aligned_run {s last : Scan α} {tokens : List Token}
    (h : Aligned registry kinds s.code.reverse)
    (hs : s.run registry layout tokens = .ok last) :
    Aligned registry (kinds ++ tokens.map Token.kind) last.code.reverse := by
  induction tokens generalizing kinds s with
  | nil =>
    cases hs
    rwa [List.map_nil, List.append_nil]
  | cons t tokens ih =>
    rw [run] at hs
    cases hstep : s.step registry layout t with
    | error e => simp [hstep] at hs
    | ok next =>
      rw [hstep] at hs
      have rest := ih (aligned_step h hstep) hs
      rwa [List.append_assoc] at rest

end Scan

theorem aligned_of_compile (h : compile formula registry layout = .ok program) :
    Aligned registry ((tokenize formula).map Token.kind) program.code := by
  obtain ⟨⟨last, reversed, hrun, hpop, code⟩, -⟩ := scansTo_of_compile h
  obtain ⟨ops, -, rfl⟩ := Scan.popAll_eq_ok_iff.mp hpop
  have started : Aligned registry [] (Scan.start : Scan α).code.reverse := .nil
  have read := Scan.aligned_run started hrun
  rw [code, List.reverse_append, List.reverse_reverse]
  exact read.operators ops

end

section

variable {params bound : List α}

theorem exists_bind_of_compile (reach : registry.Reachable)
    (h : compile formula registry layout = .ok program)
    (enough : registry.paramsLength ≤ params.length) : ∃ bound, program.bind params = .ok bound := by
  cases layout with
  | full =>
    obtain ⟨terms, compact, -, compacts⟩ := compacts_of_full h
    rw [← compacts.fullLength] at enough
    exact ⟨_, Program.bind_of_full compacts.fullLayout enough⟩
  | compact =>
    obtain ⟨terms, full, -, compacts⟩ := compacts_of_compact h
    exact ⟨_, compacts.bind_eq_ok reach enough⟩

/-- The program finds the term's own parameters where it looks for them, whatever it binds. -/
def Program.ReadsOwn (p : Program α) (t : Term α) (offset : Nat) : Prop :=
  ∀ params bound, p.bind params = .ok bound →
    ∃ own, t.slice? params = some own ∧ paramSlice? bound offset t.arity = some own

theorem readsOwn_of_compile (reach : registry.Reachable)
    (h : compile formula registry layout = .ok program) {t : Term α} {offset : Nat}
    (member : .term t offset ∈ program.code) : program.ReadsOwn t offset := by
  intro params bound hb
  cases layout with
  | full =>
    obtain ⟨terms, compact, -, compacts⟩ := compacts_of_full h
    obtain ⟨-, rfl⟩ := compacts.mem_terms member
    have inside := slice_le_of_compile reach h member
    rw [Program.bind, compacts.fullLayout] at hb
    dsimp only at hb
    split at hb
    next => cases hb
    next enough =>
      cases hb
      have enough := Nat.le_of_not_lt enough
      have own := paramSlice?_eq_some (Nat.le_trans inside enough)
      exact ⟨_, own, (paramSlice?_take inside enough).trans own⟩
  | compact =>
    obtain ⟨terms, full, -, compacts⟩ := compacts_of_compact h
    obtain ⟨before, after, rfl, rfl⟩ := compacts.mem_code_iff.mp member
    rw [compacts.bind_eq] at hb
    obtain ⟨fit, rfl⟩ := bindSlices_eq_ok_iff.mp hb
    have own := paramSlice?_eq_some (fit t (by simp))
    exact ⟨_, own, (paramSlice?_joinSlices fit).trans own⟩

end

/-- What an operand of a formula is compiled to: a name is the only term of that name, on the term's
own parameters. -/
inductive StandsFor (registry : Registry α) (p : Program α) : TokenKind → Instruction α → Prop
  | number {text : String} {n : Numeral} (h : Numeral.read text.toList = .ok n) :
    StandsFor registry p (.number text) (.number n.value)
  | term {name : String} {t : Term α} {offset : Nat}
    (only : ∀ u, u ∈ registry.terms ∧ u.name = name ↔ u = t) (own : p.ReadsOwn t offset) :
    StandsFor registry p (.identifier name) (.term t offset)

theorem standsFor_of_compile (reach : registry.Reachable)
    (h : compile formula registry layout = .ok program) :
    List.Forall₂ (StandsFor registry program)
      (((tokenize formula).map Token.kind).filter TokenKind.isOperand)
      (program.code.filter Instruction.isOperand) := by
  obtain ⟨lengths, denotes⟩ := List.forall₂_iff_zip.mp (aligned_of_compile h)
  refine List.forall₂_iff_zip.mpr ⟨lengths, fun {kind i} pair => ?_⟩
  have member := List.mem_of_mem_filter (List.of_mem_zip pair).2
  cases denotes pair with
  | number hn => exact .number hn
  | @term name t found offset =>
    refine .term (fun u => ?_) (readsOwn_of_compile reach h member)
    rw [← reach.wellFormed.get?_eq_some_iff, found, Option.some.injEq, eq_comm]

/-- All names in a formula that compiles are registered. -/
theorem exists_term_of_compile (h : compile formula registry layout = .ok program) {t : Token}
    (member : t ∈ tokenize formula) {name : String} (kind : t.kind = .identifier name) :
    ∃ term, registry.get? name = some term := by
  have operand : .identifier name ∈
      ((tokenize formula).map Token.kind).filter TokenKind.isOperand :=
    List.mem_filter.mpr ⟨kind ▸ List.mem_map_of_mem member, rfl⟩
  have each : List.Forall₂ (fun kind i => (∃ i, Denotes registry kind i) ∧ Denotes registry kind i)
      _ _ := (aligned_of_compile h).imp fun kind i denotes => ⟨⟨i, denotes⟩, denotes⟩
  obtain ⟨i, denotes⟩ := ((List.forall₂_and_left _ _).mp each).1 _ operand
  cases denotes with
  | term found offset => exact ⟨_, found⟩

/-- The program is the term alone, on the term's own parameters. -/
structure Program.IsTerm (registry : Registry α) (t : Term α) (p : Program α) : Prop where
  code : ∃ offset, p.code = [.term t offset]
  verify : p.verify = .ok ()
  bind : ∀ params, registry.paramsLength ≤ params.length → ∃ bound, p.bind params = .ok bound
  value : ∀ params bound, p.bind params = .ok bound → ∃ own, t.slice? params = some own ∧
    ∀ x, p.evaluate bound x = (t.basis.value? x own).elim (.error .outOfBounds) .ok

theorem Program.evaluate_term {p : Program α} {t : Term α} {offset : Nat} {bound own : List α}
    (code : p.code = [.term t offset]) (enough : p.paramsLength ≤ bound.length)
    (slice : paramSlice? bound offset t.arity = some own) (x : α) :
    p.evaluate bound x = (t.basis.value? x own).elim (.error .outOfBounds) .ok := by
  rw [evaluate, if_neg (Nat.not_lt.mpr enough), code]
  simp only [runCode, Instruction.run, slice, Option.bind_some]
  cases t.basis.value? x own <;> rfl

theorem exists_isTerm (reach : registry.Reachable) (layout : Layout) {t : Term α}
    (member : t ∈ registry.terms) :
    ∃ program, compile t.name registry layout = .ok program ∧ program.IsTerm registry t := by
  have found := reach.wellFormed.get?_eq_some_iff.mpr ⟨member, rfl⟩
  have single := isIdentifier_iff_tokenize.mp (reach.isIdentifier t member)
  have reads : Reads registry 0 ((tokenize t.name).map Token.kind) (.term t) := by
    rw [single]
    exact .identifier found
  have room : (Tree.term t).need ≤ stackCapacity := show 1 ≤ 64 by decide
  have compiled := compile_of_reads reads
  rw [if_neg (Nat.not_lt.mpr room)] at compiled
  obtain ⟨program, offset, h, code⟩ : ∃ program offset,
      compile t.name registry layout = .ok program ∧ program.code = [.term t offset] := by
    cases layout with
    | full => exact ⟨_, t.offset, compiled, rfl⟩
    | compact =>
      obtain ⟨terms, compact, hc, compacts⟩ := compacts_of_full compiled
      exact ⟨compact, offsetIn terms t.name, hc, compacts.code_eq⟩
  have reads := readsOwn_of_compile reach h (code ▸ List.mem_singleton_self _)
  refine ⟨program, h, ⟨offset, code⟩, ?_, fun params => exists_bind_of_compile reach h, ?_⟩
  · rw [Program.verify, code]
    rfl
  · intro params bound hb
    obtain ⟨own, slice, place⟩ := reads params bound hb
    have enough := Nat.le_of_eq (length_of_bind h hb).symm
    exact ⟨own, slice, Program.evaluate_term code enough place⟩

/-- The names that can be registered are the names that formulas can mention. A formula that is one
of them alone computes its term; a formula with any other name is refused; and in a formula that
compiles every name is the one term of that name. -/
theorem compile_names (reach : registry.Reachable) (layout : Layout) :
    (∀ name, isIdentifier name ↔
      tokenize name = [⟨.identifier name, ⟨0, name.utf8ByteSize⟩⟩]) ∧
    (∀ t ∈ registry.terms, ∃ program, compile t.name registry layout = .ok program ∧
      program.IsTerm registry t) ∧
    (∀ formula, ∀ t ∈ tokenize formula, ∀ name, t.kind = .identifier name →
      name ∉ registry.terms.map Term.name → ∃ e, compile formula registry layout = .error e) ∧
    ∀ formula program, compile formula registry layout = .ok program →
      List.Forall₂ (StandsFor registry program)
        (((tokenize formula).map Token.kind).filter TokenKind.isOperand)
        (program.code.filter Instruction.isOperand) := by
  refine ⟨fun name => isIdentifier_iff_tokenize, fun t => exists_isTerm reach layout, ?_,
    fun formula program => standsFor_of_compile reach⟩
  intro formula t member name kind unknown
  cases h : compile formula registry layout with
  | error e => exact ⟨e, rfl⟩
  | ok program =>
    obtain ⟨term, found⟩ := exists_term_of_compile h member kind
    rw [Registry.get?_eq_none_iff.mpr unknown] at found
    cases found

/-- A term named by a Greek letter computes its own parameter, the second one; with a further letter
the name is another one, and unknown. -/
theorem compile_names_greek :
    ∃ (registry : Registry Float) (program : Program Float), registry.Reachable ∧
      compile "Λ" registry .compact = .ok program ∧
      (∀ a b x, ∃ bound, program.bind [a, b] = .ok bound ∧
        program.evaluate bound x = .ok (horner x [b])) ∧
      ∃ e, compile "2*Λλ" registry .compact = .error e := by
  obtain ⟨registry, reach, terms, two, -⟩ :=
    Registry.exists_constants_registered "Λ" (by decide +kernel) (by decide)
  have more : tokenize "2*Λλ" = [⟨.number "2", ⟨0, 1⟩⟩, ⟨.operator .mul, ⟨1, 1⟩⟩,
      ⟨.identifier "Λλ", ⟨2, 4⟩⟩] := by
    decide +kernel
  obtain ⟨-, own, unknown, -⟩ := compile_names reach .compact
  obtain ⟨program, compiled, alone⟩ := own ⟨"Λ", .polynomial 0, 1⟩ (by simp [terms])
  refine ⟨registry, program, reach, compiled, fun a b x => ?_, ?_⟩
  · obtain ⟨bound, hb⟩ := alone.bind [a, b] (by simp [two])
    obtain ⟨params, slice, value⟩ := alone.value _ _ hb
    cases slice
    exact ⟨bound, hb, value x⟩
  · refine unknown "2*Λλ" ⟨.identifier "Λλ", ⟨2, 4⟩⟩ ?_ "Λλ" rfl ?_
    · rw [more]
      simp
    · simp [terms]

end FormulaFit

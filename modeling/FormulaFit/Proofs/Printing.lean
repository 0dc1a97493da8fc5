import FormulaFit.Proofs.Relocation

namespace FormulaFit

/-- Alone, the text of a token is that token. -/
theorem TokenKind.Lexeme.tokenKinds_text {kind : TokenKind} {after : List Char}
    (h : kind.Lexeme after) : tokenKinds kind.text.toList = [kind] := by
  have shown := h.visible
  have done : tokenKinds [] = [] := by rw [tokenKinds, tokensFrom, List.map_nil]
  cases h with
  | @number first rest _ parts ends =>
    obtain ⟨start, parts⟩ := List.forall_mem_cons.mp parts
    rw [text, String.toList_ofList] at shown ⊢
    have visible := shown first List.mem_cons_self
    have whole : read first rest = (.number (String.ofList (first :: rest)), []) := by
      rw [read, if_pos start, List.takeWhile_eq_self_iff.mpr parts,
        List.dropWhile_eq_nil_iff.mpr parts]
    rw [tokenKinds_cons (Bool.eq_false_iff.mp visible), whole, done]
  | @identifier first rest _ start parts ends =>
    rw [text, String.toList_ofList] at shown ⊢
    have visible := shown first List.mem_cons_self
    rw [tokenKinds_cons (Bool.eq_false_iff.mp visible), read_identifier start parts, done]
  | @symbol c _ visible number identifier =>
    rw [text_ofSymbol]
    refine (congrArg tokenKinds (String.toList_singleton c)).trans ?_
    rw [tokenKinds_symbol (Bool.eq_false_iff.mp visible) number identifier, done]

section

variable {tokens tokens' : List Token}

/-- Spaces part the texts of the tokens again. -/
theorem tokenKinds_printTokens (h : ∀ t ∈ tokens, tokenKinds t.text.toList = [t.kind]) :
    tokenKinds (printTokens tokens).toList = tokens.map Token.kind := by
  induction tokens with
  | nil =>
    change tokenKinds [] = []
    rw [tokenKinds, tokensFrom, List.map_nil]
  | cons t tokens ih =>
    obtain ⟨first, later⟩ := List.forall_mem_cons.mp h
    cases tokens with
    | nil => simpa [printTokens] using first
    | cons u tokens =>
      have split : (printTokens (t :: u :: tokens)).toList =
          t.text.toList ++ ' ' :: (printTokens (u :: tokens)).toList := by
        simp [printTokens, String.intercalate_cons_cons]
      have space : IsDelimiter ' ' := by decide
      rw [split, tokenKinds_append space, tokenKinds_blank (by decide), first, ih later]
      rfl

theorem printTokens_congr (h : tokens'.map Token.kind = tokens.map Token.kind) :
    printTokens tokens' = printTokens tokens := by
  have texts (tokens : List Token) :
      tokens.map Token.text = (tokens.map Token.kind).map TokenKind.text := by
    rw [List.map_map]
    rfl
  rw [printTokens, printTokens, texts, texts, h]

end

/-- A formula with its tokens joined by single spaces. -/
def spaced (formula : String) : String :=
  printTokens (tokenize formula)

theorem map_kind_tokenize_spaced (formula : String) :
    (tokenize (spaced formula)).map Token.kind = (tokenize formula).map Token.kind := by
  refine tokenKinds_printTokens fun t member => ?_
  obtain ⟨before, after, -, -, lexeme⟩ := tokenize_place member
  exact lexeme.tokenKinds_text

/-- The tokens of the kinds, where the place of each is its number. -/
def numbered (kinds : List TokenKind) : List Token :=
  kinds.mapIdx fun i kind => ⟨kind, ⟨i, kind.text.utf8ByteSize⟩⟩

theorem length_of_mem_numbered {kinds : List TokenKind} {t : Token} (h : t ∈ numbered kinds) :
    t.span.length = t.text.utf8ByteSize := by
  obtain ⟨i, bound, rfl⟩ := List.mem_mapIdx.mp h
  rfl

def offsetAt (tokens : List Token) (i : Nat) : Nat :=
  (tokens[i]?.map fun t => t.span.offset).getD 0

theorem length_of_mem_tokenize {formula : String} {t : Token} (h : t ∈ tokenize formula) :
    t.span.length = t.text.utf8ByteSize := by
  obtain ⟨before, after, -, span, -⟩ := tokenize_place h
  rw [span]

theorem move_place {formula : String} {i : Nat} {t : Token} (h : (tokenize formula)[i]? = some t) :
    Span.move (offsetAt (tokenize formula)) ⟨i, t.kind.text.utf8ByteSize⟩ = t.span := by
  have size := length_of_mem_tokenize (List.mem_of_getElem? h)
  rw [Token.text] at size
  simp [Span.move, offsetAt, h, ← size]

/-- The tokens of a formula are those of their kinds, moved to their places. -/
theorem move_numbered (formula : String) :
    (numbered ((tokenize formula).map Token.kind)).map
      (Token.move (offsetAt (tokenize formula))) = tokenize formula := by
  refine List.ext_getElem? fun i => ?_
  cases here : (tokenize formula)[i]? with
  | none => simp [numbered, here]
  | some t => simp [numbered, here, Token.move, move_place here]

theorem exists_token_of_numbered {formula : String} {t : Token}
    (h : t ∈ numbered ((tokenize formula).map Token.kind)) :
    ∃ u, (tokenize formula)[t.span.offset]? = some u ∧ u.kind = t.kind ∧
      t.span.move (offsetAt (tokenize formula)) = u.span := by
  obtain ⟨i, bound, rfl⟩ := List.mem_mapIdx.mp h
  have found := List.getElem?_eq_getElem (List.length_map Token.kind ▸ bound)
  have kind := List.getElem_map Token.kind (h := bound)
  have moved := move_place found
  rw [← kind] at moved
  exact ⟨_, found, kind.symm, moved⟩

/-- Two formulas fail at the same token in the same way, or both for the same depth. -/
inductive SameFault (formula formula' : String) : FormulaError → FormulaError → Prop
  | token {t t' : Token} {e : FormulaError} (i : Nat) (first : (tokenize formula)[i]? = some t)
    (second : (tokenize formula')[i]? = some t') (kind : t'.kind = t.kind)
    (span : e.span? = some t.span) :
    SameFault formula formula' e (e.mapSpan fun _ => t'.span)
  | depth (depth : Nat) : SameFault formula formula' (.tooDeep depth) (.tooDeep depth)

section

variable {α : Type} [Scalar α] {formula formula' : String}

/-- Formulas with the same kinds of tokens compile alike, wherever their tokens stand. -/
theorem compile_congr
    (same : (tokenize formula').map Token.kind = (tokenize formula).map Token.kind)
    (registry : Registry α) (layout : Layout) :
    (∃ program, compile formula registry layout = .ok program ∧
        compile formula' registry layout = .ok { program with formula := formula' }) ∨
      ∃ e e', compile formula registry layout = .error e ∧
        compile formula' registry layout = .error e' ∧ SameFault formula formula' e e' := by
  -- Both formulas are one list of tokens, moved: where it fails, the place is the token's number.
  have first := move_numbered formula
  have second := move_numbered formula'
  rw [same] at second
  cases h : compileTokens formula (numbered ((tokenize formula).map Token.kind)) registry
      layout with
  | ok program =>
    have done := compileTokens_move_of_ok (offsetAt (tokenize formula)) h formula
    have done' := compileTokens_move_of_ok (offsetAt (tokenize formula')) h formula'
    rw [first] at done
    rw [second] at done'
    exact Or.inl ⟨_, done, done'⟩
  | error e =>
    have failed := compileTokens_move_of_error (offsetAt (tokenize formula)) h formula
    have failed' := compileTokens_move_of_error (offsetAt (tokenize formula')) h formula'
    rw [first] at failed
    rw [second] at failed'
    refine Or.inr ⟨_, _, failed, failed', ?_⟩
    rcases compileTokens_error_cases (fun t => length_of_mem_numbered) h with
      ⟨t, member, span⟩ | ⟨depth, rfl⟩
    · obtain ⟨u, at_u, kind, moved⟩ := exists_token_of_numbered member
      obtain ⟨u', at_u', kind', moved'⟩ := exists_token_of_numbered (same ▸ member)
      have here : (e.mapSpan (Span.move (offsetAt (tokenize formula)))).span? = some u.span := by
        rw [FormulaError.span?_mapSpan, span, ← moved]
        rfl
      have there : e.mapSpan (Span.move (offsetAt (tokenize formula'))) =
          (e.mapSpan (Span.move (offsetAt (tokenize formula)))).mapSpan fun _ => u'.span := by
        rw [FormulaError.mapSpan_mapSpan]
        exact FormulaError.mapSpan_congr span moved'
      rw [there]
      exact .token _ at_u at_u' (kind'.trans kind.symm) here
    · exact .depth depth

/-- Writing a formula with single spaces between its tokens changes nothing but places: it has the
same tokens, is written in the same way again, and compiles to the same program or fails at the same
token. -/
theorem compile_spaced (registry : Registry α) (layout : Layout) (formula : String) :
    (tokenize (spaced formula)).map Token.kind = (tokenize formula).map Token.kind ∧
    spaced (spaced formula) = spaced formula ∧
    ((∃ program, compile formula registry layout = .ok program ∧
        compile (spaced formula) registry layout = .ok { program with formula := spaced formula }) ∨
      ∃ e e', compile formula registry layout = .error e ∧
        compile (spaced formula) registry layout = .error e' ∧
        SameFault formula (spaced formula) e e') := by
  have same := map_kind_tokenize_spaced formula
  exact ⟨same, printTokens_congr same, compile_congr same registry layout⟩

end

end FormulaFit

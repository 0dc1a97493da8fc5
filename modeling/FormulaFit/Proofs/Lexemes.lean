import FormulaFit.Formula.Token
import Mathlib.Data.List.TakeWhile

namespace FormulaFit

section

variable {β : Type} {p : β → Bool} {c : β}

theorem takeWhile_append_cons_of_not (hc : p c = false) (text rest : List β) :
    (text ++ c :: rest).takeWhile p = text.takeWhile p := by
  induction text with
  | nil => simp [hc]
  | cons d text ih => simp [List.takeWhile_cons, ih]

theorem dropWhile_append_cons_of_not (hc : p c = false) (text rest : List β) :
    (text ++ c :: rest).dropWhile p = text.dropWhile p ++ c :: rest := by
  induction text with
  | nil => simp [hc]
  | cons d text ih =>
    rw [List.cons_append, List.dropWhile_cons, List.dropWhile_cons, ih]
    split <;> rfl

theorem append_eq_append_cons_iff {xs ys before after : List β} :
    xs ++ ys = before ++ c :: after ↔
      (∃ more, xs = before ++ c :: more ∧ after = more ++ ys) ∨
        ∃ more, before = xs ++ more ∧ ys = more ++ c :: after := by
  constructor
  · intro h
    rcases List.append_eq_append_iff.mp h with ⟨more, rfl, rest⟩ | ⟨more, rfl, rest⟩
    · exact Or.inr ⟨more, rfl, rest⟩
    · cases more with
      | nil => exact Or.inr ⟨[], by simp, rest.symm⟩
      | cons d more =>
        obtain ⟨rfl, rfl⟩ := List.cons.inj rest
        exact Or.inl ⟨more, rfl, rfl⟩
  · rintro (⟨more, rfl, rfl⟩ | ⟨more, rfl, rfl⟩)
    · simp
    · simp

theorem head?_dropWhile_of_mem {text : List β} (h : c ∈ (text.dropWhile p).head?) :
    p c = false := by
  have stops := List.head?_dropWhile_not p text
  rw [Option.mem_def.mp h] at stops
  exact stops

end

theorem exists_range_of_inRanges {n : Nat} {ranges : List (Nat × Nat)} (h : inRanges n ranges) :
    ∃ r ∈ ranges, r.1 ≤ n ∧ n ≤ r.2 := by
  induction ranges with
  | nil => cases h
  | cons r ranges ih =>
    obtain ⟨first, last⟩ := r
    rw [inRanges] at h
    split at h
    next => cases h
    next low =>
      rcases Bool.or_eq_true_iff.mp h with high | later
      · exact ⟨_, List.mem_cons_self, Nat.le_of_not_lt low, of_decide_eq_true high⟩
      · obtain ⟨r, member, inside⟩ := ih later
        exact ⟨r, List.mem_cons_of_mem _ member, inside⟩

/-- No number and no name goes on with the character. -/
def IsDelimiter (c : Char) : Prop :=
  isNumberPart c = false ∧ isIdentifierPart c = false

instance (c : Char) : Decidable (IsDelimiter c) :=
  inferInstanceAs (Decidable (_ ∧ _))

/-- Blanks are no letters, digits or points. -/
theorem isDelimiter_of_isBlank {c : Char} (blank : isBlank c) : IsDelimiter c := by
  obtain ⟨r, member, low, high⟩ := exists_range_of_inRanges blank
  have each : ∀ r ∈ blankRanges, ∀ n ∈ List.range' r.1 (r.2 + 1 - r.1),
      IsDelimiter (Char.ofNat n) := by
    decide +kernel
  have here := each r member c.toNat (List.mem_range'_1.mpr ⟨low, by omega⟩)
  rwa [Char.ofNat_toNat] at here

theorem isNumberPart_of_isIdentifierStart {c : Char} (start : isIdentifierStart c) :
    isNumberPart c = false := by
  -- The point and the digits stand between the code points 46 and 57.
  have each : ∀ n ∈ List.range' 46 12, isIdentifierStart (Char.ofNat n) = false := by
    decide +kernel
  rw [← Bool.not_eq_true]
  intro part
  have inside : 46 ≤ c.toNat ∧ c.toNat ≤ 57 := by
    rcases Bool.or_eq_true_iff.mp part with digit | point
    · have low : 48 ≤ c.toNat := (Char.isDigit_iff_toNat.mp digit).1
      have high : c.toNat ≤ 57 := (Char.isDigit_iff_toNat.mp digit).2
      omega
    · rw [of_decide_eq_true point]
      decide
  have here := each c.toNat (List.mem_range'_1.mpr ⟨inside.1, by omega⟩)
  rw [Char.ofNat_toNat, start] at here
  cases here

theorem isIdentifierPart_of_isIdentifierStart {c : Char} (start : isIdentifierStart c) :
    isIdentifierPart c := by
  unfold isIdentifierStart at start
  unfold isIdentifierPart
  cases letter : isLetter c <;> simp_all

theorem Operator.symbol_of_ofChar? {c : Char} {op : Operator} (h : ofChar? c = some op) :
    op.symbol = c := by
  unfold ofChar? at h
  split at h <;> cases h <;> rfl

namespace TokenKind

/-- The longest tokens: a number or a name is not followed by a character that it could go on with,
and every other visible character is a token of its own. -/
inductive Lexeme : TokenKind → List Char → Prop
  | number {first : Char} {rest after : List Char} (parts : ∀ c ∈ first :: rest, isNumberPart c)
    (ends : ∀ c ∈ after.head?, isNumberPart c = false) :
    Lexeme (.number (String.ofList (first :: rest))) after
  | identifier {first : Char} {rest after : List Char} (start : isIdentifierStart first)
    (parts : ∀ c ∈ rest, isIdentifierPart c)
    (ends : ∀ c ∈ after.head?, isIdentifierPart c = false) :
    Lexeme (.identifier (String.ofList (first :: rest))) after
  | symbol {c : Char} {after : List Char} (visible : isBlank c = false)
    (number : isNumberPart c = false) (identifier : isIdentifierStart c = false) :
    Lexeme (ofSymbol c) after

theorem text_ofSymbol (c : Char) : (ofSymbol c).text = c.toString := by
  unfold ofSymbol
  split
  next opens => rw [opens]; rfl
  next =>
    split
    next closes => rw [closes]; rfl
    next =>
      split
      next op found => exact congrArg Char.toString (Operator.symbol_of_ofChar? found)
      next => rfl

variable {kind : TokenKind} {after : List Char}

theorem Lexeme.exists_first (h : kind.Lexeme after) :
    ∃ first rest, kind.text.toList = first :: rest := by
  cases h with
  | number parts ends => exact ⟨_, _, String.toList_ofList⟩
  | identifier start parts ends => exact ⟨_, _, String.toList_ofList⟩
  | @symbol c =>
    rw [text_ofSymbol]
    exact ⟨c, [], String.toList_singleton c⟩

theorem Lexeme.visible (h : kind.Lexeme after) : ∀ c ∈ kind.text.toList, isBlank c = false := by
  have part {c : Char} (h : isNumberPart c ∨ isIdentifierPart c) : isBlank c = false := by
    rw [← Bool.not_eq_true]
    intro blank
    obtain ⟨number, identifier⟩ := isDelimiter_of_isBlank blank
    rcases h with h | h
    · rw [number] at h
      cases h
    · rw [identifier] at h
      cases h
  intro c member
  cases h with
  | number parts ends =>
    rw [text, String.toList_ofList] at member
    exact part (Or.inl (parts c member))
  | identifier start parts ends =>
    rw [text, String.toList_ofList] at member
    rcases List.mem_cons.mp member with rfl | member
    · exact part (Or.inr (isIdentifierPart_of_isIdentifierStart start))
    · exact part (Or.inr (parts c member))
  | symbol visible number identifier =>
    rw [text_ofSymbol] at member
    obtain rfl := List.mem_singleton.mp ((String.toList_singleton _) ▸ member)
    exact visible

theorem Lexeme.text_ne (h : kind.Lexeme after) : kind.text ≠ "" := by
  obtain ⟨first, rest, chars⟩ := h.exists_first
  intro empty
  rw [empty] at chars
  cases chars

/-- Reading takes the longest token off the front, and leaves all the rest. -/
theorem read_lexeme {c : Char} (visible : isBlank c = false) (rest : List Char) :
    (read c rest).1.Lexeme (read c rest).2 ∧
      (read c rest).1.text.toList ++ (read c rest).2 = c :: rest := by
  unfold read
  split
  next number =>
    refine ⟨.number ?_ fun d => head?_dropWhile_of_mem, ?_⟩
    · exact List.forall_mem_cons.mpr ⟨number, fun d => List.mem_takeWhile_imp⟩
    · rw [text, String.toList_ofList, List.cons_append, List.takeWhile_append_dropWhile]
  next number =>
    split
    next start =>
      refine ⟨.identifier start (fun d => List.mem_takeWhile_imp) fun d => head?_dropWhile_of_mem,
        ?_⟩
      rw [text, String.toList_ofList, List.cons_append, List.takeWhile_append_dropWhile]
    next start =>
      refine ⟨.symbol visible (Bool.eq_false_iff.mpr number) (Bool.eq_false_iff.mpr start), ?_⟩
      rw [text_ofSymbol]
      exact congrArg (· ++ rest) (String.toList_singleton c)

/-- The characters of an identifier are read as one name. -/
theorem read_identifier {first : Char} {rest : List Char} (start : isIdentifierStart first)
    (parts : ∀ c ∈ rest, isIdentifierPart c) :
    read first rest = (.identifier (String.ofList (first :: rest)), []) := by
  have number := isNumberPart_of_isIdentifierStart start
  rw [read, if_neg (Bool.eq_false_iff.mp number), if_pos start,
    List.takeWhile_eq_self_iff.mpr parts, List.dropWhile_eq_nil_iff.mpr parts]

theorem read_append (c : Char) {d : Char} (hd : IsDelimiter d) (text rest : List Char) :
    TokenKind.read c (text ++ d :: rest) =
      ((TokenKind.read c text).1, (TokenKind.read c text).2 ++ d :: rest) := by
  unfold TokenKind.read
  split
  · rw [takeWhile_append_cons_of_not hd.1, dropWhile_append_cons_of_not hd.1]
  · split
    · rw [takeWhile_append_cons_of_not hd.2, dropWhile_append_cons_of_not hd.2]
    · rfl

end TokenKind

/-- The kinds of the tokens of a text. -/
def tokenKinds (text : List Char) : List TokenKind :=
  (tokensFrom 0 text).map Token.kind

theorem map_kind_tokensFrom (offset : Nat) (text : List Char) :
    (tokensFrom offset text).map Token.kind = tokenKinds text := by
  have same : ∀ offset other, (tokensFrom offset text).map Token.kind =
      (tokensFrom other text).map Token.kind := by
    intro offset
    fun_induction tokensFrom offset text with
    | case1 => simp [tokensFrom]
    | case2 offset c rest blank ih =>
      intro other
      rw [tokensFrom, if_pos blank]
      exact ih _
    | case3 offset c rest visible length ih =>
      intro other
      rw [tokensFrom, if_neg visible, List.map_cons, List.map_cons]
      exact congrArg _ (ih _)
  exact same offset 0

theorem tokenKinds_blank {c : Char} (blank : isBlank c) (rest : List Char) :
    tokenKinds (c :: rest) = tokenKinds rest := by
  rw [tokenKinds, tokensFrom, if_pos blank, map_kind_tokensFrom]

theorem tokenKinds_cons {c : Char} (visible : ¬isBlank c) (rest : List Char) :
    tokenKinds (c :: rest) = (TokenKind.read c rest).1 :: tokenKinds (TokenKind.read c rest).2 := by
  rw [tokenKinds, tokensFrom, if_neg visible, List.map_cons, map_kind_tokensFrom]

/-- A text falls into the tokens before a delimiter and those from there on. -/
theorem tokenKinds_append {d : Char} (hd : IsDelimiter d) (text rest : List Char) :
    tokenKinds (text ++ d :: rest) = tokenKinds text ++ tokenKinds (d :: rest) := by
  have split : ∀ _offset : Nat,
      tokenKinds (text ++ d :: rest) = tokenKinds text ++ tokenKinds (d :: rest) := by
    intro offset
    -- The recursion of the tokenizer, whatever the place that it counts from.
    fun_induction tokensFrom offset text with
    | case1 => simp [tokenKinds, tokensFrom]
    | case2 offset c text blank ih =>
      rw [List.cons_append, tokenKinds_blank blank, tokenKinds_blank blank, ih]
    | case3 offset c text visible length ih =>
      rw [List.cons_append, tokenKinds_cons visible, tokenKinds_cons visible,
        TokenKind.read_append c hd, ih, List.cons_append]
  exact split 0

theorem tokenKinds_symbol {c : Char} (visible : ¬isBlank c) (number : isNumberPart c = false)
    (identifier : isIdentifierStart c = false) (rest : List Char) :
    tokenKinds (c :: rest) = TokenKind.ofSymbol c :: tokenKinds rest := by
  rw [tokenKinds_cons visible, TokenKind.read, number, identifier]
  rfl

/-- The bytes that characters take. -/
def utf8Length (text : List Char) : Nat :=
  (String.ofList text).utf8ByteSize

theorem utf8Length_append (text rest : List Char) :
    utf8Length (text ++ rest) = utf8Length text + utf8Length rest := by
  rw [utf8Length, String.ofList_append, String.utf8ByteSize_append]
  rfl

theorem utf8Length_cons (c : Char) (text : List Char) :
    utf8Length (c :: text) = c.utf8Size + utf8Length text := by
  rw [utf8Length, String.ofList_cons, String.utf8ByteSize_append, String.utf8ByteSize_singleton]
  rfl

theorem utf8Length_toList (text : String) : utf8Length text.toList = text.utf8ByteSize := by
  rw [utf8Length, String.ofList_toList]

/-- The first byte behind the span. -/
def Span.stop (s : Span) : Nat :=
  s.offset + s.length

section

variable {offset : Nat} {text : List Char}

/-- Every token is the longest one at its place. -/
theorem exists_place_of_mem {t : Token} (h : t ∈ tokensFrom offset text) :
    ∃ before after, text = before ++ (t.text.toList ++ after) ∧
      t.span = ⟨offset + utf8Length before, utf8Length t.text.toList⟩ ∧ t.kind.Lexeme after := by
  fun_induction tokensFrom offset text with
  | case1 => cases h
  | case2 offset c rest blank ih =>
    obtain ⟨before, after, rfl, span, lexeme⟩ := ih h
    refine ⟨c :: before, after, rfl, ?_, lexeme⟩
    rw [span, utf8Length_cons, Nat.add_assoc]
  | case3 offset c rest visible length ih =>
    obtain ⟨lexeme, whole⟩ := TokenKind.read_lexeme (Bool.eq_false_iff.mpr visible) rest
    rcases List.mem_cons.mp h with rfl | h
    · exact ⟨[], _, whole.symm, by rw [utf8Length_toList]; rfl, lexeme⟩
    · obtain ⟨before, after, split, span, later⟩ := ih h
      refine ⟨(TokenKind.read c rest).1.text.toList ++ before, after, ?_, ?_, later⟩
      · rw [← whole, split, List.append_assoc]
      · have first : length = utf8Length (TokenKind.read c rest).1.text.toList :=
          (utf8Length_toList _).symm
        rw [span, utf8Length_append, first, Nat.add_assoc]

theorem le_offset_of_mem {t : Token} (h : t ∈ tokensFrom offset text) : offset ≤ t.span.offset := by
  obtain ⟨before, after, -, span, -⟩ := exists_place_of_mem h
  rw [span]
  exact Nat.le_add_right _ _

theorem tokensFrom_pairwise (offset : Nat) (text : List Char) :
    (tokensFrom offset text).Pairwise fun t u => t.span.stop ≤ u.span.offset := by
  fun_induction tokensFrom offset text with
  | case1 => exact List.Pairwise.nil
  | case2 offset c rest blank ih => exact ih
  | case3 offset c rest visible length ih =>
    exact List.pairwise_cons.mpr ⟨fun u later => le_offset_of_mem later, ih⟩

/-- No visible character is left out. -/
theorem exists_token_of_visible (offset : Nat) {c : Char} (visible : isBlank c = false)
    {before after : List Char} (h : text = before ++ c :: after) :
    ∃ t ∈ tokensFrom offset text, t.span.offset ≤ offset + utf8Length before ∧
      offset + utf8Length before + c.utf8Size ≤ t.span.stop := by
  revert before
  fun_induction tokensFrom offset text with
  | case1 => simp
  | case2 offset d rest blank ih =>
    intro before h
    cases before with
    | nil =>
      obtain ⟨rfl, -⟩ := List.cons.inj h
      simp [visible] at blank
    | cons e before =>
      obtain ⟨rfl, rfl⟩ := List.cons.inj h
      obtain ⟨t, member, low, high⟩ := ih rfl
      rw [utf8Length_cons]
      exact ⟨t, member, by omega, by omega⟩
  | case3 offset d rest shown length =>
    rename_i ih
    intro before h
    have size : length = utf8Length (TokenKind.read d rest).1.text.toList :=
      (utf8Length_toList _).symm
    obtain ⟨-, whole⟩ := TokenKind.read_lexeme (Bool.eq_false_iff.mpr shown) rest
    rw [← whole] at h
    rcases append_eq_append_cons_iff.mp h with ⟨more, inside, -⟩ | ⟨more, rfl, later⟩
    · refine ⟨_, List.mem_cons_self, Nat.le_add_right _ _, ?_⟩
      rw [inside, utf8Length_append, utf8Length_cons] at size
      rw [Span.stop]
      dsimp only
      omega
    · obtain ⟨t, member, low, high⟩ := ih later
      rw [utf8Length_append, ← size]
      exact ⟨t, List.mem_cons_of_mem _ member, by omega, by omega⟩

/-- No token reaches over a blank. -/
theorem disjoint_of_blank {c : Char} (blank : isBlank c) {before after : List Char}
    (h : text = before ++ c :: after) {t : Token} (member : t ∈ tokensFrom offset text) :
    t.span.stop ≤ offset + utf8Length before ∨
      offset + utf8Length before + c.utf8Size ≤ t.span.offset := by
  obtain ⟨front, back, split, span, lexeme⟩ := exists_place_of_mem member
  rw [Span.stop, span]
  dsimp only
  rw [split] at h
  rcases append_eq_append_cons_iff.mp h with ⟨more, rfl, -⟩ | ⟨more, rfl, rest⟩
  · refine Or.inr ?_
    rw [utf8Length_append, utf8Length_cons]
    omega
  · rcases append_eq_append_cons_iff.mp rest with ⟨inner, inside, -⟩ | ⟨inner, rfl, -⟩
    · have shown := lexeme.visible c (inside ▸ by simp)
      rw [blank] at shown
      cases shown
    · refine Or.inl ?_
      rw [utf8Length_append, utf8Length_append]
      omega

theorem flatMap_tokensFrom (offset : Nat) (text : List Char) :
    (tokensFrom offset text).flatMap (fun t => t.text.toList) = text.filter (!isBlank ·) := by
  fun_induction tokensFrom offset text with
  | case1 => rfl
  | case2 offset c rest blank ih => rw [ih, List.filter_cons_of_neg (by simp [blank])]
  | case3 offset c rest visible length ih =>
    obtain ⟨lexeme, whole⟩ := TokenKind.read_lexeme (Bool.eq_false_iff.mpr visible) rest
    have kept : (TokenKind.read c rest).1.text.toList.filter (!isBlank ·) =
        (TokenKind.read c rest).1.text.toList :=
      List.filter_eq_self.mpr fun d member => by rw [lexeme.visible d member]; rfl
    rw [← whole, List.filter_append, kept, List.flatMap_cons, ih]
    rfl

end

/-- The span marks the text where it stands in a formula. -/
def Span.Marks (s : Span) (formula text : String) : Prop :=
  ∃ before after, formula = before ++ text ++ after ∧ s = ⟨before.utf8ByteSize, text.utf8ByteSize⟩

section

variable {s : Span} {formula text : String}

theorem Span.Marks.stop_le (h : s.Marks formula text) : s.stop ≤ formula.utf8ByteSize := by
  obtain ⟨before, after, rfl, rfl⟩ := h
  rw [Span.stop, String.utf8ByteSize_append, String.utf8ByteSize_append]
  exact Nat.le_add_right _ _

/-- Both ends of the span are between characters. -/
theorem Span.Marks.isValid (h : s.Marks formula text) :
    (⟨s.offset⟩ : String.Pos.Raw).IsValid formula ∧
      (⟨s.stop⟩ : String.Pos.Raw).IsValid formula := by
  obtain ⟨before, after, rfl, rfl⟩ := h
  refine ⟨String.Pos.Raw.isValid_iff_exists_append.mpr ⟨before, text ++ after, ?_, rfl⟩,
    String.Pos.Raw.isValid_iff_exists_append.mpr ⟨before ++ text, after, rfl, ?_⟩⟩
  · exact String.append_assoc
  · rw [Span.stop, ← String.utf8ByteSize_append]
    rfl

theorem Span.Marks.bytes (h : s.Marks formula text) :
    formula.toByteArray.extract s.offset s.stop = text.toByteArray := by
  obtain ⟨before, after, rfl, rfl⟩ := h
  rw [String.append_assoc, String.toByteArray_append, String.toByteArray_append, Span.stop]
  dsimp only
  exact (ByteArray.extract_append_size_add (i := 0)).trans (ByteArray.extract_append_eq_left rfl)

end

/-- How tokens lie in a formula: one after the other, each where its text stands, and with nothing
but blanks between them. Each is the longest one at its place. -/
structure Tiles (formula : String) (tokens : List Token) : Prop where
  places : ∀ t ∈ tokens, ∃ before after, formula = before ++ t.text ++ after ∧
    t.span = ⟨before.utf8ByteSize, t.text.utf8ByteSize⟩ ∧ t.kind.Lexeme after.toList
  nonempty : ∀ t ∈ tokens, 1 ≤ t.span.length
  inside : ∀ t ∈ tokens, t.span.stop ≤ formula.utf8ByteSize
  boundaries : ∀ t ∈ tokens, (⟨t.span.offset⟩ : String.Pos.Raw).IsValid formula ∧
    (⟨t.span.stop⟩ : String.Pos.Raw).IsValid formula
  bytes : ∀ t ∈ tokens,
    formula.toByteArray.extract t.span.offset t.span.stop = t.text.toByteArray
  ordered : tokens.Pairwise fun t u => t.span.offset < u.span.offset ∧ t.span.stop ≤ u.span.offset
  visible : ∀ before c after, formula = before ++ String.singleton c ++ after →
    isBlank c = false → ∃ t ∈ tokens, t.span.offset ≤ before.utf8ByteSize ∧
      before.utf8ByteSize + c.utf8Size ≤ t.span.stop
  blank : ∀ before c after, formula = before ++ String.singleton c ++ after → isBlank c →
    ∀ t ∈ tokens, t.span.stop ≤ before.utf8ByteSize ∨
      before.utf8ByteSize + c.utf8Size ≤ t.span.offset
  texts : ∀ t ∈ tokens, ∀ c ∈ t.text.toList, isBlank c = false
  joined : String.join (tokens.map Token.text) =
    String.ofList (formula.toList.filter (!isBlank ·))

theorem tokenize_place {formula : String} {t : Token} (h : t ∈ tokenize formula) :
    ∃ before after, formula = before ++ t.text ++ after ∧
      t.span = ⟨before.utf8ByteSize, t.text.utf8ByteSize⟩ ∧ t.kind.Lexeme after.toList := by
  obtain ⟨before, after, split, span, lexeme⟩ := exists_place_of_mem h
  refine ⟨String.ofList before, String.ofList after, ?_, ?_, ?_⟩
  · rw [← String.ofList_toList (s := formula), split, String.ofList_append, String.ofList_append,
      String.ofList_toList, String.append_assoc]
  · rw [span, Nat.zero_add, utf8Length_toList]
    rfl
  · rwa [String.toList_ofList]

theorem length_pos_of_mem {formula : String} {t : Token} (h : t ∈ tokenize formula) :
    1 ≤ t.span.length := by
  obtain ⟨before, after, -, span, lexeme⟩ := tokenize_place h
  rw [span]
  exact Nat.pos_of_ne_zero fun zero => lexeme.text_ne (String.utf8ByteSize_eq_zero_iff.mp zero)

theorem tokenize_marks {formula : String} {t : Token} (h : t ∈ tokenize formula) :
    t.span.Marks formula t.text := by
  obtain ⟨before, after, split, span, -⟩ := tokenize_place h
  exact ⟨before, after, split, span⟩

theorem toList_of_split {formula before after : String} {c : Char}
    (h : formula = before ++ String.singleton c ++ after) :
    formula.toList = before.toList ++ c :: after.toList := by
  rw [h, String.toList_append, String.toList_append, String.toList_singleton, List.append_assoc]
  rfl

/-- Splitting a formula into tokens loses nothing but blanks, and no token could be longer. -/
theorem tokenize_tiles (formula : String) : Tiles formula (tokenize formula) where
  places _ member := tokenize_place member
  nonempty _ member := length_pos_of_mem member
  inside _ member := (tokenize_marks member).stop_le
  boundaries _ member := (tokenize_marks member).isValid
  bytes _ member := (tokenize_marks member).bytes
  ordered := by
    refine (tokensFrom_pairwise 0 formula.toList).imp_of_mem fun {t u} member _ apart => ?_
    have long := length_pos_of_mem member
    rw [Span.stop] at apart
    exact ⟨by omega, apart⟩
  visible before c after split shown := by
    obtain ⟨t, member, low, high⟩ :=
      exists_token_of_visible 0 shown (toList_of_split split)
    rw [utf8Length_toList, Nat.zero_add] at low high
    exact ⟨t, member, low, high⟩
  blank before c after split blank t member := by
    have apart := disjoint_of_blank blank (toList_of_split split) member
    rwa [utf8Length_toList, Nat.zero_add] at apart
  texts t member := by
    obtain ⟨before, after, -, -, lexeme⟩ := tokenize_place member
    exact lexeme.visible
  joined := by
    rw [← flatMap_tokensFrom 0, ← String.toList_inj, String.toList_join, String.toList_ofList,
      List.flatMap_map]
    rfl

end FormulaFit

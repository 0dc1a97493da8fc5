import FormulaFit.Proofs.Compiler
import FormulaFit.Proofs.Layouts

namespace FormulaFit

section

variable {α : Type}

/-- The parameters of terms, one after another. -/
def joinSlices (terms : List (Term α)) (params : List α) : List α :=
  terms.flatMap fun t => (params.drop t.offset).take t.arity

theorem length_joinSlices {terms : List (Term α)} {params : List α}
    (fit : ∀ t ∈ terms, t.offset + t.arity ≤ params.length) :
    (joinSlices terms params).length = (terms.map Term.arity).sum := by
  induction terms with
  | nil => rfl
  | cons t terms ih =>
    have here := fit t (by simp)
    have there := ih fun u hu => fit u (by simp [hu])
    rw [joinSlices] at there
    simp only [joinSlices, List.flatMap_cons, List.length_append, List.length_take,
      List.length_drop, there, List.map_cons, List.sum_cons]
    omega

theorem paramSlice?_joinSlices {before after : List (Term α)} {t : Term α} {params : List α}
    (fit : ∀ u ∈ before ++ t :: after, u.offset + u.arity ≤ params.length) :
    paramSlice? (joinSlices (before ++ t :: after) params) (before.map Term.arity).sum t.arity =
      paramSlice? params t.offset t.arity := by
  have whole := length_joinSlices fit
  have front : (joinSlices before params).length = (before.map Term.arity).sum :=
    length_joinSlices fun u hu => fit u (by simp [hu])
  have here := fit t (by simp)
  rw [paramSlice?_eq_some here, paramSlice?_eq_some (by rw [whole]; simp)]
  have split : joinSlices (before ++ t :: after) params = joinSlices before params ++
      ((params.drop t.offset).take t.arity ++ joinSlices after params) := by
    simp [joinSlices]
  have taken : ((params.drop t.offset).take t.arity).length = t.arity := by
    simp only [List.length_take, List.length_drop]
    omega
  rw [split, ← front, List.drop_left, List.take_append_of_le_length (by omega),
    List.take_of_length_le (by omega)]

theorem bindSlices_of_fit {terms : List (Term α)} {params : List α}
    (fit : ∀ t ∈ terms, t.offset + t.arity ≤ params.length) :
    Program.bindSlices params (terms.map fun t => ⟨t.offset, t.arity⟩) =
      .ok (joinSlices terms params) := by
  induction terms with
  | nil => rfl
  | cons t terms ih =>
    have here := paramSlice?_eq_some (fit t (by simp))
    have there := ih fun u hu => fit u (by simp [hu])
    rw [List.map_cons, Program.bindSlices, here, there]
    rfl

/-- The first slice that does not fit is reported. -/
theorem bindSlices_of_not_fit {before : List (Term α)} {t : Term α} {params : List α}
    (fit : ∀ u ∈ before, u.offset + u.arity ≤ params.length)
    (short : params.length < t.offset + t.arity) (after : List (Term α)) :
    Program.bindSlices params ((before ++ t :: after).map fun t => ⟨t.offset, t.arity⟩) =
      .error (.missingParameters (t.offset + t.arity) params.length) := by
  induction before with
  | nil =>
    have here : paramSlice? params t.offset t.arity = none := if_neg (by omega)
    rw [List.nil_append, List.map_cons, Program.bindSlices, here]
  | cons u before ih =>
    have here := paramSlice?_eq_some (fit u (by simp))
    have there := ih fun v hv => fit v (by simp [hv])
    rw [List.cons_append, List.map_cons, Program.bindSlices, here, there]
    rfl

theorem fit_or_first_not_fit (terms : List (Term α)) (params : List α) :
    (∀ t ∈ terms, t.offset + t.arity ≤ params.length) ∨
      ∃ before t after, terms = before ++ t :: after ∧
        (∀ u ∈ before, u.offset + u.arity ≤ params.length) ∧
        params.length < t.offset + t.arity := by
  induction terms with
  | nil => simp
  | cons t terms ih =>
    by_cases here : t.offset + t.arity ≤ params.length
    · rcases ih with fit | ⟨before, u, after, rfl, fit, short⟩
      · exact Or.inl (List.forall_mem_cons.mpr ⟨here, fit⟩)
      · exact Or.inr ⟨t :: before, u, after, rfl, List.forall_mem_cons.mpr ⟨here, fit⟩, short⟩
    · exact Or.inr ⟨[], t, terms, rfl, by simp, Nat.lt_of_not_le here⟩

theorem bindSlices_eq_ok_iff {terms : List (Term α)} {params bound : List α} :
    Program.bindSlices params (terms.map fun t => ⟨t.offset, t.arity⟩) = .ok bound ↔
      (∀ t ∈ terms, t.offset + t.arity ≤ params.length) ∧ bound = joinSlices terms params := by
  constructor
  · intro h
    rcases fit_or_first_not_fit terms params with fit | ⟨before, t, after, rfl, fit, short⟩
    · rw [bindSlices_of_fit fit] at h
      exact ⟨fit, (Except.ok.inj h).symm⟩
    · rw [bindSlices_of_not_fit fit short] at h
      cases h
  · rintro ⟨fit, rfl⟩
    exact bindSlices_of_fit fit

theorem paramSlice?_congr {params params' : List α} {offset length : Nat} (inhabited : 0 < length)
    (same : ∀ i, offset ≤ i → i < offset + length → params'[i]? = params[i]?)
    (fits : offset + length ≤ params.length) :
    offset + length ≤ params'.length ∧
      (params'.drop offset).take length = (params.drop offset).take length := by
  -- The last entry is there on one side, so on the other.
  have last := same (offset + length - 1) (by omega) (by omega)
  have here : offset + length - 1 < params.length := by omega
  have there : offset + length - 1 < params'.length := by
    rw [List.getElem?_eq_getElem here] at last
    exact (List.getElem?_eq_some_iff.mp last).1
  refine ⟨by omega, List.ext_getElem? fun i => ?_⟩
  simp only [List.getElem?_take, List.getElem?_drop]
  split
  next inside => exact same (offset + i) (by omega) (by omega)
  next => rfl

theorem joinSlices_congr {terms : List (Term α)} {params params' : List α}
    (same : ∀ t ∈ terms, ∀ i, t.offset ≤ i → i < t.offset + t.arity → params'[i]? = params[i]?)
    (fit : ∀ t ∈ terms, t.offset + t.arity ≤ params.length) :
    (∀ t ∈ terms, t.offset + t.arity ≤ params'.length) ∧
      joinSlices terms params' = joinSlices terms params := by
  have each t (ht : t ∈ terms) := paramSlice?_congr t.basis.arity_pos (same t ht) (fit t ht)
  refine ⟨fun t ht => (each t ht).1, ?_⟩
  rw [joinSlices, joinSlices, List.flatMap_def, List.flatMap_def]
  exact congrArg List.flatten (List.map_congr_left fun t ht => (each t ht).2)

/-- Binding depends on the entries of the slices alone, and on the length where it fails. -/
theorem bindSlices_congr {terms : List (Term α)} {params params' : List α}
    (same : ∀ t ∈ terms, ∀ i, t.offset ≤ i → i < t.offset + t.arity → params'[i]? = params[i]?) :
    (∀ bound, Program.bindSlices params (terms.map fun t => ⟨t.offset, t.arity⟩) = .ok bound →
        Program.bindSlices params' (terms.map fun t => ⟨t.offset, t.arity⟩) = .ok bound) ∧
      (params'.length = params.length →
        Program.bindSlices params' (terms.map fun t => ⟨t.offset, t.arity⟩) =
          Program.bindSlices params (terms.map fun t => ⟨t.offset, t.arity⟩)) := by
  constructor
  · intro bound hb
    obtain ⟨fit, rfl⟩ := bindSlices_eq_ok_iff.mp hb
    obtain ⟨fit', join⟩ := joinSlices_congr same fit
    rw [bindSlices_of_fit fit', join]
  · intro lengths
    rcases fit_or_first_not_fit terms params with fit | ⟨before, t, after, rfl, fit, short⟩
    · obtain ⟨fit', join⟩ := joinSlices_congr same fit
      rw [bindSlices_of_fit fit, bindSlices_of_fit fit', join]
    · rw [bindSlices_of_not_fit fit short,
        bindSlices_of_not_fit (lengths ▸ fit) (lengths ▸ short), lengths]

/-- Renumbered instructions compute the same on a vector that has the slices at their new places. -/
theorem runCode_renumber [Scalar α] {offset : Term α → Nat} {params params' : List α}
    {code : List (Instruction α)}
    (same : ∀ t o, .term t o ∈ code →
      paramSlice? params' (offset t) t.arity = paramSlice? params o t.arity)
    (x : α) (position : Nat) (stack : List α) :
    runCode params' x position stack (code.map (.renumber offset)) =
      runCode params x position stack code := by
  refine runCode_map ?_ position stack
  intro i member position stack
  cases i with
  | number v => rfl
  | operator op => rfl
  | term t o => simp only [Instruction.renumber, Instruction.run, same t o member]

end

variable {α : Type} {registry : Registry α}

namespace Program.Compacts

variable {terms : List (Term α)} {full compact : Program α}

theorem terms_eq (h : full.Compacts registry terms compact) :
    full.terms = terms.map Term.name ∧ compact.terms = terms.map Term.name := by
  have order := h.code.order
  rw [List.reverse_reverse] at order
  have names : compact.code.filterMap Instruction.termName? =
      full.code.filterMap Instruction.termName? := by
    simp [h.code_eq, List.filterMap_map, Instruction.termName?_renumber]
  exact ⟨order, by rw [Program.terms_eq, names, order]⟩

theorem mem_terms (h : full.Compacts registry terms compact) {t : Term α} {offset : Nat}
    (member : .term t offset ∈ full.code) : t ∈ terms ∧ offset = t.offset :=
  h.code.slices t offset (by simpa using member)

theorem exists_mention (h : full.Compacts registry terms compact) {t : Term α}
    (member : t ∈ terms) : .term t t.offset ∈ full.code := by
  have named : t.name ∈ full.terms := by
    rw [h.terms_eq.1]
    exact List.mem_map_of_mem member
  rw [Program.terms_eq, mem_firstOccurrences] at named
  obtain ⟨i, hi, name⟩ := List.mem_filterMap.mp named
  cases i with
  | number v => simp [Instruction.termName?] at name
  | operator op => simp [Instruction.termName?] at name
  | term u offset =>
    obtain ⟨mentioned, rfl⟩ := h.mem_terms hi
    have same := List.inj_on_of_nodup_map h.distinct mentioned member (Option.some.inj name)
    exact same ▸ hi

theorem mem_registry (h : full.Compacts registry terms compact) {t : Term α} (member : t ∈ terms) :
    t ∈ registry.terms :=
  Registry.mem_of_get? (h.registered t member)

/-- The slices of the compact program follow one another in the order of the terms. -/
theorem mem_code_iff (h : full.Compacts registry terms compact) {t : Term α} {offset : Nat} :
    .term t offset ∈ compact.code ↔
      ∃ before after, terms = before ++ t :: after ∧ offset = (before.map Term.arity).sum := by
  rw [h.code_eq]
  constructor
  · intro member
    obtain ⟨i, hi, eq⟩ := List.mem_map.mp member
    cases i with
    | number v => simp [Instruction.renumber] at eq
    | operator op => simp [Instruction.renumber] at eq
    | term u previous =>
      obtain ⟨rfl, rfl⟩ := Instruction.term.inj eq
      obtain ⟨before, after, split⟩ := List.append_of_mem (h.mem_terms hi).1
      have distinct := h.distinct
      rw [split] at distinct ⊢
      exact ⟨before, after, rfl, offsetIn_split distinct⟩
  · rintro ⟨before, after, split, rfl⟩
    have distinct := h.distinct
    have member := h.exists_mention (t := t) (by simp [split])
    rw [split] at distinct
    rw [← offsetIn_split distinct, ← split]
    exact List.mem_map_of_mem member

end Program.Compacts

/-- The slices of a program's terms fill its parameter vector, in the order of the terms. -/
structure Program.Tiled (terms : List (Term α)) (p : Program α) : Prop where
  names : p.terms = terms.map Term.name
  distinct : p.terms.Nodup
  length : p.paramsLength = (terms.map Term.arity).sum
  slices : ∀ t offset, .term t offset ∈ p.code ↔
    ∃ before after, terms = before ++ t :: after ∧ offset = (before.map Term.arity).sum
  tiles : ∀ i < p.paramsLength, ∃! slice : Term α × Nat,
    .term slice.1 slice.2 ∈ p.code ∧ slice.2 ≤ i ∧ i < slice.2 + slice.1.arity

namespace Program.Compacts

variable {terms : List (Term α)} {full compact : Program α}

theorem tiled (h : full.Compacts registry terms compact) : compact.Tiled terms := by
  refine ⟨h.terms_eq.2, ?_, h.compactLength, fun t offset => h.mem_code_iff, ?_⟩
  · rw [h.terms_eq.2]
    exact h.distinct
  · intro i hi
    rw [h.compactLength] at hi
    obtain ⟨before, t, after, split, low, high⟩ := exists_slice_of_lt hi
    refine ⟨⟨t, _⟩, ⟨h.mem_code_iff.mpr ⟨before, after, split, rfl⟩, low, high⟩, ?_⟩
    rintro ⟨u, offset⟩ ⟨member, lowU, highU⟩
    obtain ⟨before', after', split', rfl⟩ := h.mem_code_iff.mp member
    obtain ⟨rfl, rfl⟩ := slice_unique (split'.symm.trans split) lowU highU low high
    rfl

theorem bind_eq (h : full.Compacts registry terms compact) (params : List α) :
    compact.bind params = Program.bindSlices params (terms.map fun t => ⟨t.offset, t.arity⟩) := by
  rw [Program.bind, h.compactLayout, h.bindings]

/-- A vector of all parameters has every slice that is taken from it. -/
theorem slices_fit [Scalar α] (h : full.Compacts registry terms compact)
    (reach : registry.Reachable) {params : List α}
    (enough : registry.paramsLength ≤ params.length) :
    ∀ t ∈ terms, t.offset + t.arity ≤ params.length := by
  intro t ht
  exact Nat.le_trans (reach.wellFormed.slice_le (h.mem_registry ht)) enough

theorem bind_eq_ok [Scalar α] (h : full.Compacts registry terms compact)
    (reach : registry.Reachable) {params : List α}
    (enough : registry.paramsLength ≤ params.length) :
    compact.bind params = .ok (joinSlices terms params) := by
  rw [h.bind_eq]
  exact bindSlices_of_fit (h.slices_fit reach enough)

theorem evaluate_joinSlices [Scalar α] (h : full.Compacts registry terms compact) {params : List α}
    (fit : ∀ t ∈ terms, t.offset + t.arity ≤ params.length)
    (enough : registry.paramsLength ≤ params.length) (x : α) :
    compact.evaluate (joinSlices terms params) x = full.evaluate params x := by
  have bound : ¬(joinSlices terms params).length < compact.paramsLength := by
    rw [length_joinSlices fit, h.compactLength]
    exact Nat.lt_irrefl _
  have all : ¬params.length < full.paramsLength := by
    rw [h.fullLength]
    exact Nat.not_lt.mpr enough
  have same : ∀ t offset, .term t offset ∈ full.code →
      paramSlice? (joinSlices terms params) (offsetIn terms t.name) t.arity =
        paramSlice? params offset t.arity := by
    intro t offset member
    obtain ⟨mentioned, rfl⟩ := h.mem_terms member
    obtain ⟨before, after, split⟩ := List.append_of_mem mentioned
    have distinct := h.distinct
    rw [split] at distinct fit ⊢
    rw [offsetIn_split distinct]
    exact paramSlice?_joinSlices fit
  rw [Program.evaluate, Program.evaluate, if_neg bound, if_neg all, h.code_eq,
    runCode_renumber same]

end Program.Compacts

/-- The compact layout agrees with the full one. Both compile the same formulas; the compact program
takes just the slices of the terms that it refers to, in the order of their first mention, and then
computes what the other one does on all parameters. -/
theorem compile_compact_agrees [Scalar α] (reach : registry.Reachable) (formula : String) :
    (∃ e, compile formula registry .full = .error e ∧
        compile formula registry .compact = .error e) ∨
      ∃ full compact terms, compile formula registry .full = .ok full ∧
        compile formula registry .compact = .ok compact ∧
        (∀ t ∈ terms, t ∈ registry.terms) ∧ compact.terms = full.terms ∧ compact.Tiled terms ∧
        ∀ params,
          (∀ bound, compact.bind params = .ok bound ↔
            (∀ t ∈ terms, t.offset + t.arity ≤ params.length) ∧ bound = joinSlices terms params) ∧
          (∀ before t after, terms = before ++ t :: after →
            (∀ u ∈ before, u.offset + u.arity ≤ params.length) →
            params.length < t.offset + t.arity → compact.bind params =
              .error (.missingParameters (t.offset + t.arity) params.length)) ∧
          (registry.paramsLength ≤ params.length → ∃ bound, compact.bind params = .ok bound ∧
            ∀ x, compact.evaluate bound x = full.evaluate params x) ∧
          ∀ params', (∀ t ∈ terms, ∀ i, t.offset ≤ i → i < t.offset + t.arity →
              params'[i]? = params[i]?) →
            (∀ bound, compact.bind params = .ok bound → compact.bind params' = .ok bound) ∧
            (params'.length = params.length → compact.bind params' = compact.bind params) := by
  rcases compile_compacts registry formula with failed | ⟨terms, full, compact, hf, hc, h⟩
  · exact Or.inl failed
  · have names : compact.terms = full.terms := h.terms_eq.2.trans h.terms_eq.1.symm
    refine Or.inr ⟨full, compact, terms, hf, hc, fun t => h.mem_registry, names, h.tiled, ?_⟩
    intro params
    refine ⟨?_, ?_, ?_, ?_⟩
    · intro bound
      rw [h.bind_eq]
      exact bindSlices_eq_ok_iff
    · rintro before t after split fit short
      rw [h.bind_eq, split]
      exact bindSlices_of_not_fit fit short after
    · intro enough
      have fit : ∀ t ∈ terms, t.offset + t.arity ≤ params.length := fun t ht =>
        Nat.le_trans (reach.wellFormed.slice_le (h.mem_registry ht)) enough
      refine ⟨joinSlices terms params, ?_, h.evaluate_joinSlices fit enough⟩
      rw [h.bind_eq]
      exact bindSlices_of_fit fit
    · intro params' same
      rw [h.bind_eq, h.bind_eq]
      exact bindSlices_congr same

/-- The product of the second of two terms takes one of the two parameters. -/
theorem compile_compact_agrees_product :
    ∃ (registry : Registry Float) (full compact : Program Float), registry.Reachable ∧
      registry.paramsLength = 2 ∧ compile "b*b" registry .full = .ok full ∧
      compile "b*b" registry .compact = .ok compact ∧ compact.terms = ["b"] ∧
      ∀ params, 2 ≤ params.length → ∃ bound, compact.bind params = .ok bound ∧
        ∀ x, compact.evaluate bound x = full.evaluate params x := by
  obtain ⟨registry, reach, -, two, named⟩ :=
    Registry.exists_constants_registered "b" (by decide) (by decide)
  have kinds : (tokenize "b*b").map Token.kind =
      [.identifier "b", .operator .mul, .identifier "b"] := by
    decide +kernel
  have b (level : Nat) : Reads registry level [.identifier "b"] _ := .identifier named
  have product := Reads.operate .mul (Nat.zero_le 2) (b 2) (b 3)
  simp only [List.cons_append, List.nil_append] at product
  rw [← kinds] at product
  have compiled := compile_of_reads product
  rw [if_neg (by decide)] at compiled
  rcases compile_compact_agrees reach "b*b" with
    ⟨e, failed, -⟩ | ⟨full, compact, terms, hf, hc, -, names, -, draws⟩
  · simp [compiled] at failed
  · refine ⟨registry, full, compact, reach, two, hf, hc, ?_, ?_⟩
    · rw [compiled] at hf
      cases hf
      rw [names]
      rfl
    · intro params enough
      exact (draws params).2.2.1 (two ▸ enough)

end FormulaFit

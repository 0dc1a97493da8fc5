import FormulaFit.Proofs.Registrations
import FormulaFit.Proofs.Counterparts
import Mathlib.Data.List.Perm.Basic

namespace FormulaFit

/-- Each term has the same parameters in both vectors. -/
def Registry.SameSlices {α : Type} (r r' : Registry α) (params params' : List α) : Prop :=
  ∀ t ∈ r.terms, ∀ t' ∈ r'.terms, t'.name = t.name →
    ∃ slice, t.slice? params = some slice ∧ t'.slice? params' = some slice

section

variable {α : Type} {r r' : Registry α} {params params' : List α}

theorem paramSlice?_eq_some_iff {offset length : Nat} {slice : List α} :
    paramSlice? params offset length = some slice ↔
      offset + length ≤ params.length ∧ slice = (params.drop offset).take length := by
  unfold paramSlice?
  split
  next bound => simp [bound, eq_comm]
  next short => simp [short]

namespace Registry

/-- A vector with a slice for every term has all parameters. -/
theorem WellFormed.paramsLength_le (wf : r.WellFormed)
    (fit : ∀ t ∈ r.terms, t.offset + t.arity ≤ params.length) :
    r.paramsLength ≤ params.length := by
  by_contra short
  obtain ⟨t, member, -, high⟩ := wf.lt_paramsLength_iff.mp (Nat.lt_of_not_le short)
  have := fit t member
  omega

theorem SameTerms.symm (h : r.SameTerms r') : r'.SameTerms r :=
  fun name => (h name).symm

theorem SameTerms.mem_terms (h : r.SameTerms r') (wf : r.WellFormed) {t : Term α}
    (member : t ∈ r.terms) :
    r'.counterpart t ∈ r'.terms ∧ (r'.counterpart t).basis = t.basis := by
  obtain ⟨found, basis⟩ := h.get?_eq_some (wf.get?_eq_some_iff.mpr ⟨member, rfl⟩)
  exact ⟨mem_of_get? found, basis⟩

theorem SameSlices.symm (same : r.SameSlices r' params params') :
    r'.SameSlices r params' params := by
  intro t' member' t member named
  obtain ⟨slice, hslice, hslice'⟩ := same t member t' member' named.symm
  exact ⟨slice, hslice', hslice⟩

theorem SameSlices.slice_eq (same : r.SameSlices r' params params') (h : r.SameTerms r')
    (wf : r.WellFormed) {t : Term α} (member : t ∈ r.terms) :
    t.offset + t.arity ≤ params.length ∧
      (r'.counterpart t).slice? params' = t.slice? params := by
  obtain ⟨slice, hslice, hslice'⟩ :=
    same t member _ (h.mem_terms wf member).1 (r'.counterpart_name t)
  exact ⟨(paramSlice?_eq_some_iff.mp hslice).1, hslice'.trans hslice.symm⟩

theorem SameSlices.enough (same : r.SameSlices r' params params') (h : r.SameTerms r')
    (wf : r.WellFormed) : r.paramsLength ≤ params.length :=
  wf.paramsLength_le fun _ member => (same.slice_eq h wf member).1

end Registry

end

theorem offsetIn_map {α : Type} {f : Term α → Term α} {terms : List (Term α)}
    (name : ∀ t, (f t).name = t.name) (arity : ∀ t ∈ terms, (f t).arity = t.arity)
    (wanted : String) : offsetIn (terms.map f) wanted = offsetIn terms wanted := by
  induction terms with
  | nil => rfl
  | cons t terms ih =>
    obtain ⟨here, there⟩ := List.forall_mem_cons.mp arity
    rw [List.map_cons, offsetIn, offsetIn, name, here, ih there]

section

variable {α : Type} [Scalar α] {r r' : Registry α} {params params' : List α} {formula : String}
  {full compact compact' : Program α} {terms terms' : List (Term α)}

theorem Program.evaluate_transfer (h : r.SameTerms r') (wf : r.WellFormed)
    (wf' : r'.WellFormed) (compacts : full.Compacts r terms compact)
    (same : r.SameSlices r' params params') (x : α) :
    (full.transfer r').evaluate params' x = full.evaluate params x := by
  have enough : ¬params.length < full.paramsLength := by
    rw [compacts.fullLength]
    exact Nat.not_lt.mpr (same.enough h wf)
  have enough' : ¬params'.length < (full.transfer r').paramsLength :=
    Nat.not_lt.mpr (same.symm.enough h.symm wf')
  have alike : ∀ i ∈ full.code, ∀ position stack,
      (i.transfer r').run params' x position stack = i.run params x position stack := by
    intro i member position stack
    cases i with
    | number | operator => rfl
    | term t offset =>
      obtain ⟨mentioned, rfl⟩ := compacts.mem_terms member
      have registered := compacts.mem_registry mentioned
      have slices := (same.slice_eq h wf registered).2
      have basis := (h.mem_terms wf registered).2
      rw [Term.slice?, Term.slice?] at slices
      simp only [Instruction.transfer, Instruction.retarget, Instruction.renumber, Instruction.run,
        slices, basis]
  rw [Program.evaluate, Program.evaluate, if_neg enough, if_neg enough', transfer,
    runCode_map alike]

namespace Program.Compacts

omit [Scalar α] in
/-- The compact program of the other registry has the counterparts of the terms, in the same
order. -/
theorem terms_transfer (h : r.SameTerms r') (compacts : full.Compacts r terms compact)
    (compacts' : (full.transfer r').Compacts r' terms' compact') :
    terms' = terms.map r'.counterpart := by
  have names : terms'.map Term.name = terms.map Term.name := by
    rw [← compacts'.terms_eq.1, ← compacts.terms_eq.1]
    exact Program.terms_eq_of_code rfl (Instruction.termName?_transfer r')
  have found : terms'.map some = (terms.map r'.counterpart).map some := calc
    terms'.map some = (terms'.map Term.name).map r'.get? := by
      rw [List.map_map]
      exact List.map_congr_left fun t member => (compacts'.registered t member).symm
    _ = (terms.map Term.name).map r'.get? := by rw [names]
    _ = (terms.map r'.counterpart).map some := by
      rw [List.map_map, List.map_map]
      exact List.map_congr_left fun t member =>
        (h.get?_eq_some (compacts.registered t member)).1
  exact List.map_injective_iff.mpr (Option.some_injective _) found

omit [Scalar α] in
theorem joinSlices_transfer (h : r.SameTerms r') (wf : r.WellFormed)
    (compacts : full.Compacts r terms compact) (same : r.SameSlices r' params params') :
    joinSlices (terms.map r'.counterpart) params' = joinSlices terms params := by
  rw [joinSlices, joinSlices, List.flatMap_map]
  refine List.flatMap_congr fun t member => ?_
  obtain ⟨fits, slices⟩ := same.slice_eq h wf (compacts.mem_registry member)
  have own : t.slice? params = some ((params.drop t.offset).take t.arity) :=
    paramSlice?_eq_some fits
  rw [own] at slices
  exact (paramSlice?_eq_some_iff.mp slices).2.symm

omit [Scalar α] in
theorem paramsLength_retarget (h : r.SameTerms r') (wf : r.WellFormed)
    (compacts : full.Compacts r terms compact)
    (compacts' : (full.transfer r').Compacts r' (terms.map r'.counterpart) compact') :
    compact'.paramsLength = compact.paramsLength := by
  rw [compacts'.compactLength, compacts.compactLength, List.map_map]
  refine congrArg List.sum (List.map_congr_left fun t member => ?_)
  exact congrArg Basis.arity (h.mem_terms wf (compacts.mem_registry member)).2

omit [Scalar α] in
/-- The compact programs differ in the terms' places in the registries alone. -/
theorem code_retarget (h : r.SameTerms r') (wf : r.WellFormed)
    (compacts : full.Compacts r terms compact)
    (compacts' : (full.transfer r').Compacts r' (terms.map r'.counterpart) compact') :
    compact'.code = compact.code.map (.retarget r') := by
  have arity : ∀ t ∈ terms, (r'.counterpart t).arity = t.arity := fun t member =>
    congrArg Basis.arity (h.mem_terms wf (compacts.mem_registry member)).2
  rw [compacts'.code_eq, compacts.code_eq, transfer, List.map_map, List.map_map]
  refine List.map_congr_left fun i _ => ?_
  cases i with
  | number | operator => rfl
  | term t offset =>
    simp only [Function.comp_apply, Instruction.transfer, Instruction.retarget,
      Instruction.renumber, offsetIn_map r'.counterpart_name arity, r'.counterpart_name]

theorem evaluate_retarget (h : r.SameTerms r') (wf : r.WellFormed)
    (compacts : full.Compacts r terms compact)
    (compacts' : (full.transfer r').Compacts r' (terms.map r'.counterpart) compact')
    (params : List α) (x : α) : compact'.evaluate params x = compact.evaluate params x := by
  have basis : ∀ t ∈ terms, (r'.counterpart t).basis = t.basis := fun t member =>
    (h.mem_terms wf (compacts.mem_registry member)).2
  have alike : ∀ i ∈ compact.code, ∀ position stack,
      (i.retarget r').run params x position stack = i.run params x position stack := by
    intro i member position stack
    cases i with
    | number | operator => rfl
    | term t offset =>
      obtain ⟨before, after, rfl, -⟩ := compacts.mem_code_iff.mp member
      have own := basis t (by simp)
      simp only [Instruction.retarget, Instruction.run, Term.arity, own]
  rw [Program.evaluate, Program.evaluate, paramsLength_retarget h wf compacts compacts',
    code_retarget h wf compacts compacts', runCode_map alike]

end Program.Compacts

/-- What a program is where the same terms are registered in another order: the same text, the same
checks and the same values. -/
structure Program.Rearranged (r r' : Registry α) (p p' : Program α) : Prop where
  formula : p'.formula = p.formula
  layout : p'.layout = p.layout
  terms : p'.terms = p.terms
  postfixText : p'.postfixText = p.postfixText
  depth : p'.depth = p.depth
  paramsLength : p'.paramsLength = p.paramsLength
  verify : p'.verify = p.verify
  full : p.layout = .full → ∀ params params', r.SameSlices r' params params' →
    ∀ x, p'.evaluate params' x = p.evaluate params x
  compact : p.layout = .compact → ∀ params x, p'.evaluate params x = p.evaluate params x
  bind : ∀ params params', r.SameSlices r' params params' →
    ∃ bound bound', p.bind params = .ok bound ∧ p'.bind params' = .ok bound' ∧
      (p.layout = .compact → bound' = bound) ∧ ∀ x, p'.evaluate bound' x = p.evaluate bound x

theorem rearranged_of_full (h : r.SameTerms r') (reach : r.Reachable) (reach' : r'.Reachable)
    (length : r'.paramsLength = r.paramsLength) (hc : compile formula r .full = .ok full)
    (hc' : compile formula r' .full = .ok (full.transfer r')) :
    full.Rearranged r r' (full.transfer r') := by
  obtain ⟨terms, compact, -, compacts⟩ := compacts_of_full hc
  have layout := compacts.fullLayout
  have lengths : (full.transfer r').paramsLength = full.paramsLength :=
    length.trans compacts.fullLength.symm
  have evaluate params params' (same : r.SameSlices r' params params') (x : α) :
      (full.transfer r').evaluate params' x = full.evaluate params x :=
    Program.evaluate_transfer h reach.wellFormed reach'.wellFormed compacts same x
  refine ⟨rfl, rfl, ?_, ?_, rfl, lengths, ?_, fun _ => evaluate, ?_, ?_⟩
  · exact Program.terms_eq_of_code rfl (Instruction.termName?_transfer r')
  · exact Program.postfixText_eq_of_code rfl (Instruction.text_transfer r')
  · rw [Program.verify, Program.verify, Program.transfer, countCode_transfer]
  · intro compact
    simp [layout] at compact
  · intro params params' same
    have enough : full.paramsLength ≤ params.length := by
      rw [compacts.fullLength]
      exact same.enough h reach.wellFormed
    have enough' : (full.transfer r').paramsLength ≤ params'.length :=
      same.symm.enough h.symm reach'.wellFormed
    refine ⟨_, _, Program.bind_of_full layout enough, Program.bind_of_full layout enough', ?_, ?_⟩
    · intro compact
      simp [layout] at compact
    · intro x
      rw [Program.evaluate_take (compile_contained reach hc) enough,
        Program.evaluate_take (compile_contained reach' hc') enough', evaluate params params' same]

theorem rearranged_of_compact (h : r.SameTerms r') (reach : r.Reachable) (reach' : r'.Reachable)
    (compacts : full.Compacts r terms compact)
    (compacts' : (full.transfer r').Compacts r' terms' compact')
    (formulas : compact'.formula = compact.formula) :
    compact.Rearranged r r' compact' := by
  have wf := reach.wellFormed
  obtain rfl := compacts.terms_transfer h compacts'
  have code := compacts.code_retarget h wf compacts'
  have evaluate := compacts.evaluate_retarget h wf compacts'
  refine ⟨formulas, compacts'.compactLayout.trans compacts.compactLayout.symm, ?_, ?_, ?_,
    compacts.paramsLength_retarget h wf compacts', ?_, ?_, fun _ => evaluate, ?_⟩
  · exact Program.terms_eq_of_code code (Instruction.termName?_retarget r')
  · exact Program.postfixText_eq_of_code code (Instruction.text_retarget r')
  · exact compacts'.depth.trans compacts.depth.symm
  · rw [compacts'.verify_eq, compacts.verify_eq, Program.verify, Program.verify, Program.transfer,
      countCode_transfer]
  · intro full
    simp [compacts.compactLayout] at full
  · intro params params' same
    have bound := compacts.bind_eq_ok reach (same.enough h wf)
    have bound' := compacts'.bind_eq_ok reach' (same.symm.enough h.symm reach'.wellFormed)
    rw [compacts.joinSlices_transfer h wf same] at bound'
    exact ⟨_, _, bound, bound', fun _ => rfl, evaluate _⟩

/-- In either layout a formula compiles in both registries or in neither. -/
theorem compile_rearranged (h : r.SameTerms r') (reach : r.Reachable) (reach' : r'.Reachable)
    (length : r'.paramsLength = r.paramsLength) (formula : String) (layout : Layout) :
    (∃ e e', compile formula r layout = .error e ∧ compile formula r' layout = .error e' ∧
        e'.withoutHint = e.withoutHint) ∨
      ∃ p p', compile formula r layout = .ok p ∧ compile formula r' layout = .ok p' ∧
        p.Rearranged r r' p' := by
  rcases compile_full_cases h formula with ⟨e, e', hc, hc', same⟩ | ⟨full, hc, hc'⟩
  · refine Or.inl ⟨e, e', ?_, ?_, same⟩
    · exact compile_eq_error_of_full hc layout
    · exact compile_eq_error_of_full hc' layout
  · refine Or.inr ?_
    cases layout with
    | full => exact ⟨_, _, hc, hc', rearranged_of_full h reach reach' length hc hc'⟩
    | compact =>
      obtain ⟨terms, compact, hcompact, compacts⟩ := compacts_of_full hc
      obtain ⟨terms', compact', hcompact', compacts'⟩ := compacts_of_full hc'
      have formulas : compact'.formula = compact.formula :=
        (scansTo_of_compile hcompact').2.1.trans (scansTo_of_compile hcompact).2.1.symm
      exact ⟨_, _, hcompact, hcompact',
        rearranged_of_compact h reach reach' compacts compacts' formulas⟩

end

namespace Registry

variable {α : Type} [Scalar α] {r r' : Registry α} {entries entries' : List (Entry α)}

theorem Lists.sameTerms (h : r.Lists entries) (reach : r.Reachable) (h' : r'.Lists entries')
    (reach' : r'.Reachable) (perm : entries.Perm entries') : r.SameTerms r' := by
  intro name
  by_cases known : name ∈ entries.map Entry.name
  · obtain ⟨e, member, rfl⟩ := List.mem_map.mp known
    obtain ⟨offset, found, -⟩ := h.holds reach member
    obtain ⟨offset', found', -⟩ := h'.holds reach' (perm.mem_iff.mp member)
    rw [found, found']
    rfl
  · have unknown : r.get? name = none := get?_eq_none_iff.mpr (h.names ▸ known)
    have unknown' : r'.get? name = none := by
      rw [get?_eq_none_iff, h'.names, ← (perm.map Entry.name).mem_iff]
      exact known
    rw [unknown, unknown']

theorem Lists.paramsLength_eq (h : r.Lists entries) (h' : r'.Lists entries')
    (perm : entries.Perm entries') : r'.paramsLength = r.paramsLength := by
  rw [paramsLength, paramsLength, h.params, h'.params]
  exact (perm.flatMap_right Entry.stored).length_eq.symm

theorem Lists.initialValues_slice (h : r.Lists entries) (reach : r.Reachable) {e : Entry α}
    (member : e ∈ entries) {t : Term α} (mt : t ∈ r.terms) (named : t.name = e.name) :
    t.slice? r.initialValues = some (e.stored.map ParamSpec.initial) := by
  obtain ⟨offset, found, own, -⟩ := h.holds reach member
  have registered := reach.wellFormed.get?_eq_some_iff.mpr ⟨mt, named⟩
  rw [registered] at found
  cases found
  obtain ⟨fits, slice⟩ := paramSlice?_eq_some_iff.mp own
  rw [Term.slice?, paramSlice?_eq_some_iff, initialValues, List.length_map, slice, List.map_take,
    List.map_drop]
  exact ⟨fits, rfl⟩

theorem Lists.sameSlices_initialValues (h : r.Lists entries) (reach : r.Reachable)
    (h' : r'.Lists entries') (reach' : r'.Reachable) (perm : entries.Perm entries') :
    r.SameSlices r' r.initialValues r'.initialValues := by
  intro t member t' member' named
  have known : t.name ∈ entries.map Entry.name := h.names ▸ List.mem_map_of_mem member
  obtain ⟨e, entry, own⟩ := List.mem_map.mp known
  exact ⟨_, h.initialValues_slice reach entry member own.symm,
    h'.initialValues_slice reach' (perm.mem_iff.mp entry) member' (named.trans own.symm)⟩

/-- The order of registration only permutes the vector of all parameters. Entries that are registered
in one order are registered in every other; each keeps its basis, its parameters as they are stored
and its warnings. A formula compiles in both registries or in neither, to programs of the same text
that have the same values wherever the terms have the same parameters. -/
theorem registerAll_perm (perm : entries.Perm entries')
    (registered : empty.registerAll entries = .ok r) :
    ∃ r', empty.registerAll entries' = .ok r' ∧
      r.terms.map Term.name = entries.map Entry.name ∧
      r'.terms.map Term.name = entries'.map Entry.name ∧
      (∀ e ∈ entries, r.Holds e ∧ r'.Holds e) ∧
      r.SameSlices r' r.initialValues r'.initialValues ∧
      ∀ formula layout,
        (∃ e e', compile formula r layout = .error e ∧ compile formula r' layout = .error e' ∧
          e'.withoutHint = e.withoutHint) ∨
        ∃ p p', compile formula r layout = .ok p ∧ compile formula r' layout = .ok p' ∧
          p.Rearranged r r' p' := by
  obtain ⟨admissible, distinct⟩ := exists_registerAll_iff.mp ⟨r, registered⟩
  obtain ⟨r', registered'⟩ : ∃ r', empty.registerAll entries' = .ok r' :=
    exists_registerAll_iff.mpr ⟨fun e member => admissible e (perm.mem_iff.mpr member),
      (perm.map Entry.name).nodup_iff.mp distinct⟩
  obtain ⟨h, reach, -⟩ := lists_of_registerAll registered
  obtain ⟨h', reach', -⟩ := lists_of_registerAll registered'
  have same := h.sameTerms reach h' reach' perm
  refine ⟨r', registered', h.names, h'.names, ?_, ?_, ?_⟩
  · intro e member
    exact ⟨h.holds reach member, h'.holds reach' (perm.mem_iff.mp member)⟩
  · exact h.sameSlices_initialValues reach h' reach' perm
  · exact compile_rearranged same reach reach' (h.paramsLength_eq h' perm)

/-- A line whose intercept starts outside its bounds, and a constant. -/
def lineEntry : Entry Float :=
  ⟨"a", .polynomial 1, [⟨"c0", 20.0, 0.0, 10.0⟩, .held "c1" 2.0]⟩

def constantEntry : Entry Float :=
  ⟨"b", .polynomial 0, [.held "c" 3.0]⟩

/-- The product has the same text and the same value at the starting values of either order. -/
theorem registerAll_perm_product :
    ∃ (r r' : Registry Float) (p p' : Program Float),
      empty.registerAll [lineEntry, constantEntry] = .ok r ∧
      empty.registerAll [constantEntry, lineEntry] = .ok r' ∧
      r.initialValues = [5.0, 2.0, 3.0] ∧ r'.initialValues = [3.0, 5.0, 2.0] ∧
      compile "a*b" r .full = .ok p ∧ compile "a*b" r' .full = .ok p' ∧
      p'.postfixText = p.postfixText ∧
      ∀ x, p'.evaluate [3.0, 5.0, 2.0] x = p.evaluate [5.0, 2.0, 3.0] x := by
  have admissible : ∀ e ∈ [lineEntry, constantEntry], e.Admissible := by
    simp only [List.forall_mem_cons]
    exact ⟨⟨by decide, rfl⟩, ⟨by decide, rfl⟩, nofun⟩
  obtain ⟨r, registered⟩ := exists_registerAll_iff.mpr ⟨admissible, by decide⟩
  obtain ⟨h, reach, -⟩ := lists_of_registerAll registered
  obtain ⟨r', registered', -, -, holds, slices, programs⟩ :=
    registerAll_perm (List.Perm.swap constantEntry lineEntry []) registered
  obtain ⟨h', -, -⟩ := lists_of_registerAll registered'
  have first : r.initialValues = [5.0, 2.0, 3.0] := by
    rw [initialValues, h.params]
    decide +kernel
  have second : r'.initialValues = [3.0, 5.0, 2.0] := by
    rw [initialValues, h'.params]
    decide +kernel
  obtain ⟨_, line, -⟩ := (holds lineEntry (by simp)).1
  obtain ⟨_, constant, -⟩ := (holds constantEntry (by simp)).1
  have kinds : (tokenize "a*b").map Token.kind =
      [.identifier "a", .operator .mul, .identifier "b"] := by
    decide +kernel
  have product : Reads r 0 [.identifier "a", .operator .mul, .identifier "b"] _ :=
    Reads.operate .mul (Nat.zero_le 2) (.identifier line) (.identifier constant)
  rw [← kinds] at product
  have compiled := compile_of_reads product
  rw [if_neg (by simp [Tree.need, stackCapacity])] at compiled
  rcases programs "a*b" .full with ⟨e, -, failed, -⟩ | ⟨p, p', hp, hp', rearranged⟩
  · cases compiled.symm.trans failed
  · refine ⟨r, r', p, p', registered, registered', first, second, hp, hp',
      rearranged.postfixText, ?_⟩
    rw [← first, ← second]
    have layout : p.layout = .full := by
      cases compiled.symm.trans hp
      rfl
    exact rearranged.full layout _ _ slices

end Registry

end FormulaFit

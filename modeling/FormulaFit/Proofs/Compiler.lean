import FormulaFit.Double
import FormulaFit.Proofs.Invariant
import FormulaFit.Proofs.Registry

namespace FormulaFit

variable {α : Type} [Scalar α] {registry : Registry α}

/-- A formula's tokens have a tree. -/
theorem IsFormula.exists_reads {kinds : List TokenKind} (h : IsFormula registry kinds) :
    ∃ tree, Reads registry 0 kinds tree := by
  obtain ⟨tokens, hk⟩ := exists_tokens kinds
  obtain ⟨last, hrun, holds, after⟩ :=
    Scan.run_of_isFormula .full h hk (s := Scan.start) rfl
  obtain ⟨ops, hops⟩ := Scan.eq_operators_of_afterOperators after
  have read := Scan.hasRead_of_run hrun
  rw [hk] at read
  obtain ⟨tree, htree, -⟩ := (read.holds holds).popAll (Scan.popAll_eq_ok_iff.mpr ⟨ops, hops, rfl⟩)
  exact ⟨tree, htree⟩

/-- A formula compiles to the code of its tree, unless the tree needs too much of the stack. -/
theorem compile_of_reads {formula : String} {tree : Tree α}
    (h : Reads registry 0 ((tokenize formula).map Token.kind) tree) :
    compile formula registry .full =
      if stackCapacity < tree.need then .error (.tooDeep tree.need)
      else .ok ⟨formula, tree.code Term.offset, .full, [], registry.paramsLength, tree.need⟩ := by
  obtain ⟨last, hrun, hcode⟩ := h.run_start rfl
  have depth := tree.greatestHeight_code Term.offset 0
  rw [Nat.zero_add] at depth
  rw [compile, compileTokens, hrun]
  simp only [Scan.finish, hcode, List.reverse_reverse, depth]

/-- A program with the code of a tree computes the tree's value. -/
theorem Program.evaluate_of_code {program : Program α} {tree : Tree α}
    (code : program.code = tree.code Term.offset) (room : tree.need ≤ stackCapacity)
    {params : List α} (enough : program.paramsLength ≤ params.length) (x : α) :
    program.evaluate params x = tree.value params x := by
  have empty : ([] : List α).length + tree.need ≤ stackCapacity := by simpa using room
  rw [evaluate, if_neg (Nat.not_lt.mpr enough), code, tree.runCode_code empty]
  cases tree.value params x <;> rfl

theorem Reads.mem_terms {level : Nat} {kinds : List TokenKind} {tree : Tree α}
    (h : Reads registry level kinds tree) {t : Term α} (ht : t ∈ tree.terms) :
    t ∈ registry.terms := by
  induction h with
  | number h => simp [Tree.terms] at ht
  | identifier h =>
    obtain rfl := List.mem_singleton.mp ht
    exact Registry.mem_of_get? h
  | group h ih => exact ih ht
  | operate op strong hl hr ihl ihr =>
    rcases List.mem_append.mp ht with ht | ht
    · exact ihl ht
    · exact ihr ht

/-- With all parameters given, a tree has a value unless a template has none. -/
theorem exists_value_iff_templates (wf : registry.WellFormed) {tree : Tree α}
    (mentioned : ∀ t ∈ tree.terms, t ∈ registry.terms) {params : List α}
    (enough : registry.paramsLength ≤ params.length) (x : α) :
    (∃ v, tree.value params x = .ok v) ↔
      ∀ t ∈ tree.terms, ∀ template, t.basis = .template template →
        (template.interpolate? x).isSome := by
  rw [tree.exists_value_iff]
  apply forall₂_congr
  intro t ht
  have bound : t.offset + t.arity ≤ params.length :=
    Nat.le_trans (wf.slice_le (mentioned t ht)) enough
  have hslice := paramSlice?_eq_some bound
  rw [Term.slice?, hslice, Option.bind_some]
  exact Basis.value?_isSome_iff (length_of_paramSlice? hslice)

/-- The compiler is correct: a formula has one tree, its program is the tree's code, and evaluation
gives the tree's value, each term on the slice after those of the terms registered before it. There
is a value unless a template has none at `x`. -/
theorem compile_computes_tree (reach : registry.Reachable) {formula : String}
    (derived : IsFormula registry ((tokenize formula).map Token.kind)) :
    ∃ tree, (∀ other, Reads registry 0 ((tokenize formula).map Token.kind) other ↔ other = tree) ∧
      (∀ t ∈ tree.terms, ∃ before after, registry.terms = before ++ t :: after ∧
        t.offset = (before.map Term.arity).sum) ∧
      ∀ program, compile formula registry .full = .ok program →
        program.code = tree.code Term.offset ∧
        ∀ params, program.paramsLength ≤ params.length → ∀ x,
          program.evaluate params x = tree.value params x ∧
          ((∃ v, program.evaluate params x = .ok v) ↔
            ∀ t ∈ tree.terms, ∀ template, t.basis = .template template →
              (template.interpolate? x).isSome) := by
  obtain ⟨tree, htree⟩ := derived.exists_reads
  refine ⟨tree, ?_, ?_, ?_⟩
  · intro other
    constructor
    · exact fun h => h.unique htree
    · rintro rfl
      exact htree
  · intro t ht
    obtain ⟨before, after, split⟩ := List.append_of_mem (htree.mem_terms ht)
    exact ⟨before, after, split, reach.wellFormed.offset_split split⟩
  · intro program compiled
    rw [compile_of_reads htree] at compiled
    split at compiled
    next => simp at compiled
    next room =>
      cases compiled
      refine ⟨rfl, ?_⟩
      intro params enough x
      have value := Program.evaluate_of_code rfl (Nat.le_of_not_lt room) enough x
      refine ⟨value, ?_⟩
      rw [value]
      exact exists_value_iff_templates reach.wellFormed (fun t => htree.mem_terms) enough x

/-- A quotient whose only term is a polynomial has a value for every vector of its parameters; at
three it is two plus three times two thirds. -/
theorem compile_computes_tree_quotient :
    ∃ (registry : Registry Float) (program : Program Float), registry.Reachable ∧
      IsFormula registry ((tokenize "2+t*(t-1)/t").map Token.kind) ∧
      compile "2+t*(t-1)/t" registry .full = .ok program ∧
      (∀ params, program.paramsLength ≤ params.length → ∀ x, ∃ v,
        program.evaluate params x = .ok v) ∧
      program.evaluate [3.0] 0.5 = .ok 4.0 := by
  obtain ⟨registry, -, reach, count, named⟩ := Registry.exists_constant_registered
  have kinds : (tokenize "2+t*(t-1)/t").map Token.kind =
      [.number "2", .operator .add, .identifier "t", .operator .mul, .openParen, .identifier "t",
        .operator .sub, .number "1", .closeParen, .operator .div, .identifier "t"] := by
    decide +kernel
  have t (level : Nat) : Reads registry level [.identifier "t"] _ := .identifier named
  have one (level : Nat) : Reads registry level [.number "1"] _ :=
    .number (n := .finite false 1 0) (by decide)
  have two (level : Nat) : Reads registry level [.number "2"] _ :=
    .number (n := .finite false 2 0) (by decide)
  have difference := Reads.operate .sub (Nat.zero_le 1) (t 1) (one 2)
  have product := Reads.operate .mul (Nat.le_refl 2) (t 2) difference.group
  have quotient := Reads.operate .div (Nat.le_refl 2) product (t 3)
  have sum := Reads.operate .add (Nat.zero_le 1) (two 1) quotient
  simp only [List.cons_append, List.nil_append] at sum
  rw [← kinds] at sum
  have derived := sum.isFormula (tokenize_plainNumbers _)
  have compiled := compile_of_reads sum
  rw [if_neg (by decide)] at compiled
  obtain ⟨tree, unique, -, correct⟩ := compile_computes_tree reach derived
  obtain rfl := (unique _).mp sum
  have values := (correct _ compiled).2
  refine ⟨registry, _, reach, derived, compiled, ?_, ?_⟩
  · intro params enough x
    refine (values params enough x).2.mpr ?_
    intro u hu template
    have : u = ⟨"t", .polynomial 0, 0⟩ := by simpa [Tree.terms] using hu
    simp [this]
  · rw [(values [3.0] (Nat.le_of_eq count) 0.5).1]
    rfl

/-- A template that passes for a histogram although its only centre is not a number. -/
def uncentred : Histogram Float :=
  ⟨[⟨Scalar.nan, 7.0, 1.0⟩], by simp⟩

theorem ofColumns_uncentred : Histogram.ofColumns [Scalar.nan] [7.0] [1.0] = .ok uncentred :=
  rfl

/-- The only centre is neither above nor below a number, and there is no second one. -/
theorem interpolate?_uncentred : uncentred.interpolate? 0.5 = none :=
  Option.isNone_iff_eq_none.mp (by decide +kernel)

/-- A term with this template, and the registry of this term alone. -/
def uncentredTerm : Term Float :=
  ⟨"t", .template uncentred, 0⟩

def uncentredRegistry : Registry Float :=
  ⟨[uncentredTerm], [.stored (.held "n" 1.0)], [], false⟩

theorem register_uncentred :
    Registry.empty.register "t" (.template uncentred) [.held "n" 1.0] = .ok uncentredRegistry :=
  Registry.register_eq_ok_iff.mpr ⟨⟨rfl, by decide, rfl, rfl⟩, rfl⟩

/-- A formula that is compiled can be without a value although all parameters are given: an accepted
histogram, as a template, need not have one. -/
theorem exists_tree_without_value :
    ∃ (template : Histogram Float) (registry : Registry Float) (program : Program Float),
      Histogram.ofColumns [Scalar.nan] [7.0] [1.0] = .ok template ∧
      Registry.empty.register "t" (.template template) [.held "n" 1.0] = .ok registry ∧
      registry.Reachable ∧ IsFormula registry ((tokenize "2*t").map Token.kind) ∧
      compile "2*t" registry .full = .ok program ∧ program.paramsLength ≤ [1.0].length ∧
      ¬∃ v, program.evaluate [1.0] 0.5 = .ok v := by
  have kinds : (tokenize "2*t").map Token.kind =
      [.number "2", .operator .mul, .identifier "t"] := by
    decide +kernel
  have two (level : Nat) : Reads uncentredRegistry level [.number "2"] _ :=
    .number (n := .finite false 2 0) (by decide)
  have t (level : Nat) : Reads uncentredRegistry level [.identifier "t"] _ :=
    .identifier (t := uncentredTerm) rfl
  have product := Reads.operate .mul (Nat.zero_le 2) (two 2) (t 3)
  simp only [List.cons_append, List.nil_append] at product
  rw [← kinds] at product
  have compiled := compile_of_reads product
  rw [if_neg (by decide)] at compiled
  have reach : uncentredRegistry.Reachable := .register .empty register_uncentred
  have enough : uncentredRegistry.paramsLength ≤ [(1.0 : Float)].length := Nat.le_refl 1
  refine ⟨uncentred, uncentredRegistry, _, ofColumns_uncentred, register_uncentred, reach,
    product.isFormula (tokenize_plainNumbers _), compiled, enough, ?_⟩
  rw [Program.evaluate_of_code rfl (by decide) enough 0.5,
    exists_value_iff_templates reach.wellFormed (fun _ => product.mem_terms) enough 0.5]
  intro defined
  have valued := defined uncentredTerm (by simp [Tree.terms]) uncentred rfl
  rw [interpolate?_uncentred] at valued
  cases valued

end FormulaFit

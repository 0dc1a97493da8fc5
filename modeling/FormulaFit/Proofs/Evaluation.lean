import FormulaFit.Proofs.Postfix

namespace FormulaFit

variable {α : Type}

theorem runCode_append [Scalar α] (params : List α) (x : α) (position : Nat) (stack : List α)
    (code rest : List (Instruction α)) :
    runCode params x position stack (code ++ rest) =
      match runCode params x position stack code with
      | .ok stack => runCode params x (position + code.length) stack rest
      | .error e => .error e := by
  induction code generalizing position stack with
  | nil => simp [runCode]
  | cons i code ih =>
    simp only [List.cons_append, runCode, List.length_cons]
    cases i.run params x position stack with
    | error e => rfl
    | ok stack =>
      have shift : position + 1 + code.length = position + (code.length + 1) := by omega
      simp only [ih, shift]

/-- Instructions that do the same one by one do the same in a row. -/
theorem runCode_map [Scalar α] {f : Instruction α → Instruction α} {params params' : List α} {x : α}
    {code : List (Instruction α)}
    (same : ∀ i ∈ code, ∀ position stack,
      (f i).run params' x position stack = i.run params x position stack)
    (position : Nat) (stack : List α) :
    runCode params' x position stack (code.map f) = runCode params x position stack code := by
  induction code generalizing position stack with
  | nil => rfl
  | cons i code ih =>
    obtain ⟨here, there⟩ := List.forall_mem_cons.mp same
    simp only [List.map_cons, runCode, here, ih there]

/-- Given as many parameters as it takes, only a template can be without a value. -/
theorem Basis.value?_isSome_iff [Scalar α] {basis : Basis α} {x : α} {parameters : List α}
    (h : parameters.length = basis.arity) :
    (basis.value? x parameters).isSome ↔
      ∀ template, basis = .template template → (template.interpolate? x).isSome := by
  cases basis with
  | polynomial degree =>
    have full : parameters.length = degree.value + 1 := h
    simp [value?, full]
  | gaussian =>
    obtain ⟨norm, mean, sigma, rfl⟩ := List.length_eq_three.mp h
    simp [value?]
  | lednicky =>
    rcases parameters with _ | ⟨a, _ | ⟨b, _ | ⟨c, _ | ⟨d, _ | ⟨e, _ | ⟨f, _ | ⟨g, _ | ⟨i, rest⟩⟩⟩⟩⟩⟩⟩⟩ <;>
      simp_all [arity, value?]
  | template histogram =>
    obtain ⟨norm, rfl⟩ := List.length_eq_one_iff.mp h
    simp [value?]
  | curve f unit =>
    obtain ⟨norm, rfl⟩ := List.length_eq_one_iff.mp h
    simp [value?]

theorem Instruction.push_of_lt (v : α) {stack : List α} (h : stack.length < stackCapacity) :
    Instruction.push v stack = .ok (v :: stack) :=
  if_pos h

namespace Tree

/-- The code of a tree computes its value on top of any stack that leaves it room. -/
theorem runCode_code [Scalar α] (tree : Tree α) {params : List α} {x : α} {position : Nat}
    {stack : List α} (room : stack.length + tree.need ≤ stackCapacity) :
    runCode params x position stack (tree.code Term.offset) =
      (tree.value params x).map (· :: stack) := by
  induction tree generalizing position stack with
  | number v =>
    have hpush := Instruction.push_of_lt v room
    simp [code, runCode, Instruction.run, hpush, value, Except.map]
  | term t =>
    simp only [code, runCode, Instruction.run, value, Term.slice?]
    cases (paramSlice? params t.offset t.arity).bind (t.basis.value? x) with
    | none => rfl
    | some v =>
      have hpush := Instruction.push_of_lt v room
      simp [hpush, Except.map]
  | node op left right ihl ihr =>
    simp only [need] at room
    rw [code, runCode_append, runCode_append, ihl (by omega)]
    simp only [value]
    cases left.value params x with
    | error e => rfl
    | ok a =>
      have roomRight : (a :: stack).length + right.need ≤ stackCapacity := by
        simp only [List.length_cons]
        omega
      simp only [Except.map, ihr roomRight]
      cases right.value params x with
      | error e => rfl
      | ok b => rfl

/-- A tree has a value exactly if each of its terms has one. -/
theorem exists_value_iff [Scalar α] (tree : Tree α) (params : List α) (x : α) :
    (∃ v, tree.value params x = .ok v) ↔
      ∀ t ∈ tree.terms, ((t.slice? params).bind (t.basis.value? x)).isSome := by
  induction tree with
  | number v => simp [value, terms]
  | term t =>
    simp only [value, terms, List.mem_singleton, forall_eq]
    cases (t.slice? params).bind (t.basis.value? x) <;> simp
  | node op left right ihl ihr =>
    simp only [terms, List.mem_append, or_imp, forall_and, ← ihl, ← ihr, value]
    cases left.value params x with
    | error e => simp [bind, Except.bind]
    | ok a =>
      cases right.value params x <;> simp [bind, Except.bind, pure, Except.pure]

/-- Builds trees from postfix instructions, the latest first. -/
def assemble : List (Instruction α) → List (Tree α) → List (Tree α)
  | [], trees => trees
  | .number v :: rest, trees => assemble rest (.number v :: trees)
  | .term t _ :: rest, trees => assemble rest (.term t :: trees)
  | .operator op :: rest, b :: a :: trees => assemble rest (.node op a b :: trees)
  | .operator _ :: rest, trees => assemble rest trees

theorem assemble_code (offset : Term α → Nat) (tree : Tree α) (rest : List (Instruction α))
    (trees : List (Tree α)) :
    assemble (tree.code offset ++ rest) trees = assemble rest (tree :: trees) := by
  induction tree generalizing rest trees with
  | number | term => rfl
  | node op left right ihl ihr =>
    rw [code, List.append_assoc, List.append_assoc, ihl, ihr]
    rfl

theorem code_injective (offset : Term α → Nat) : Function.Injective (code offset) := by
  intro a b h
  have ha := assemble_code offset a [] []
  rw [h, assemble_code] at ha
  exact (List.cons.inj ha).1.symm

end Tree

end FormulaFit

import FormulaFit.Formula.Tree
import Mathlib.Data.List.Basic

namespace FormulaFit

section

variable {α : Type}

theorem countCode_append (position size : Nat) (code rest : List (Instruction α)) :
    countCode position size (code ++ rest) =
      match countCode position size code with
      | .ok size => countCode (position + code.length) size rest
      | .error e => .error e := by
  induction code generalizing position size with
  | nil => simp [countCode]
  | cons i code ih =>
    simp only [List.cons_append, countCode, List.length_cons]
    cases i.count position size with
    | error e => rfl
    | ok size =>
      have shift : position + 1 + code.length = position + (code.length + 1) := by omega
      simp only [ih, shift]

/-- The stack height that instructions leave; operators count as if they had their operands. -/
def finalHeight (size : Nat) (code : List (Instruction α)) : Nat :=
  code.foldl (fun size i => i.height size) size

theorem finalHeight_append (size : Nat) (code rest : List (Instruction α)) :
    finalHeight size (code ++ rest) = finalHeight (finalHeight size code) rest :=
  List.foldl_append

theorem finalHeight_singleton (size : Nat) (i : Instruction α) :
    finalHeight size [i] = i.height size :=
  rfl

theorem greatestHeight_append (size : Nat) (code rest : List (Instruction α)) :
    greatestHeight size (code ++ rest) =
      max (greatestHeight size code) (greatestHeight (finalHeight size code) rest) := by
  induction code generalizing size with
  | nil => simp [greatestHeight, finalHeight]
  | cons i code ih =>
    simp only [List.cons_append, greatestHeight, ih, finalHeight, List.foldl_cons]
    omega

theorem Instruction.one_le_height (i : Instruction α) (size : Nat) : 1 ≤ i.height size := by
  cases i with
  | number | term => exact Nat.le_add_left 1 size
  | operator op =>
    simp only [Instruction.height]
    omega

theorem finalHeight_bounds (size : Nat) {code : List (Instruction α)} (h : code ≠ []) :
    1 ≤ finalHeight size code ∧ finalHeight size code ≤ greatestHeight size code := by
  induction code generalizing size with
  | nil => exact absurd rfl h
  | cons i code ih =>
    simp only [finalHeight, List.foldl_cons, greatestHeight]
    by_cases hc : code = []
    · subst code
      exact ⟨i.one_le_height size, Nat.le_max_left _ _⟩
    · obtain ⟨low, high⟩ := ih (i.height size) hc
      exact ⟨low, Nat.le_trans high (Nat.le_max_right _ _)⟩

theorem greatestHeight_operators_le {size : Nat} (h : 1 ≤ size) (ops : List Operator) :
    greatestHeight size (ops.map (Instruction.operator (α := α))) ≤ size := by
  induction ops generalizing size with
  | nil => simp [greatestHeight]
  | cons op ops ih =>
    have := @ih (max size 2 - 1) (by omega)
    simp only [List.map_cons, greatestHeight, Instruction.height]
    omega

/-- Operators at the end never need more of the stack. -/
theorem greatestHeight_append_operators {size : Nat} {code : List (Instruction α)} (h : code ≠ [])
    (ops : List Operator) :
    greatestHeight size (code ++ ops.map .operator) = greatestHeight size code := by
  obtain ⟨low, high⟩ := finalHeight_bounds size h
  have := greatestHeight_operators_le (α := α) low ops
  rw [greatestHeight_append]
  omega

theorem countCode_operators (position size : Nat) (ops : List Operator) :
    countCode position (size + ops.length + 1) (ops.map (Instruction.operator (α := α))) =
      .ok (size + 1) := by
  induction ops generalizing position with
  | nil => rfl
  | cons op ops ih =>
    have enough : ¬size + (ops.length + 1) + 1 < 2 := by omega
    simp only [List.map_cons, countCode, Instruction.count, List.length_cons, enough, if_false]
    exact ih (position + 1)

theorem size_of_countCode_operators {position size last : Nat} {ops : List Operator}
    (h : countCode position size (ops.map (Instruction.operator (α := α))) = .ok (last + 1)) :
    size = last + ops.length + 1 := by
  induction ops generalizing position size with
  | nil => simpa [countCode] using h
  | cons op ops ih =>
    simp only [List.map_cons, countCode, Instruction.count] at h
    split at h
    next rest hcount =>
      split at hcount
      next => simp at hcount
      next enough =>
        have := ih h
        have : size - 1 = rest := Except.ok.inj hcount
        simp only [List.length_cons]
        omega
    next => simp at h

/-- One operator more than the values allow is found at the last position. -/
theorem countCode_trailing {code : List (Instruction α)} {ops : List Operator}
    (whole : countCode 0 0 (code ++ ops.map .operator) = .ok 1) (op : Operator) :
    ∃ before last, code ++ (op :: ops).map .operator = before ++ [.operator last] ∧
      countCode 0 0 (before ++ [.operator last]) = .error (.stackUnderflow before.length last) := by
  obtain ⟨front, last, split⟩ := List.eq_nil_or_concat' (op :: ops) |>.resolve_left (by simp)
  have lengths : front.length = ops.length := by
    have := congrArg List.length split
    simpa using this.symm
  refine ⟨code ++ front.map .operator, last, by simp [split], ?_⟩
  have counted : countCode 0 0 (code ++ front.map .operator) = .ok 1 := by
    rw [countCode_append] at whole ⊢
    cases hc : countCode 0 0 code with
    | error e => simp [hc] at whole
    | ok size =>
      rw [hc] at whole
      have enough : size = 0 + ops.length + 1 := size_of_countCode_operators whole
      rw [enough, ← lengths]
      exact countCode_operators _ 0 front
  rw [countCode_append, counted]
  simp [countCode, Instruction.count]

end

namespace Tree

variable {α : Type}

/-- The code of a tree leaves one more value on any stack. -/
theorem countCode_code (offset : Term α → Nat) (tree : Tree α) (position size : Nat) :
    countCode position size (tree.code offset) = .ok (size + 1) := by
  induction tree generalizing position size with
  | number | term => rfl
  | node op left right ihl ihr =>
    have enough : ¬size + 1 + 1 < 2 := by omega
    simp [code, countCode_append, ihl, ihr, countCode, Instruction.count, enough]

theorem finalHeight_code (offset : Term α → Nat) (tree : Tree α) (size : Nat) :
    finalHeight size (tree.code offset) = size + 1 := by
  induction tree generalizing size with
  | number | term => rfl
  | node op left right ihl ihr =>
    rw [code, finalHeight_append, finalHeight_append, ihl, ihr, finalHeight_singleton]
    simp only [Instruction.height]
    omega

theorem one_le_need (tree : Tree α) : 1 ≤ tree.need := by
  induction tree with
  | number | term => exact Nat.le_refl 1
  | node op left right ihl ihr =>
    simp only [need]
    omega

/-- The code of a tree takes just the stack slots that the tree needs. -/
theorem greatestHeight_code (offset : Term α → Nat) (tree : Tree α) (size : Nat) :
    greatestHeight size (tree.code offset) = size + tree.need := by
  induction tree generalizing size with
  | number | term => simp [code, greatestHeight, Instruction.height, need]
  | node op left right ihl ihr =>
    have := right.one_le_need
    rw [code, greatestHeight_append, greatestHeight_append, finalHeight_append, ihl,
      finalHeight_code, ihr, finalHeight_code]
    simp only [greatestHeight, Instruction.height, need]
    omega

end Tree

end FormulaFit

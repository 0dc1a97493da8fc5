import FormulaFit.Proofs.Layouts
import Mathlib.Order.Bounds.Basic

namespace FormulaFit

variable {α : Type}

theorem Instruction.height_of_count {i : Instruction α} {position size next : Nat}
    (h : i.count position size = .ok next) : i.height size = next := by
  cases i with
  | number | term => exact Except.ok.inj h
  | operator op =>
    simp only [count] at h
    split at h
    next => cases h
    next enough =>
      have := Except.ok.inj h
      simp only [height]
      omega

/-- Where no operator lacks operands, the count and the height are the same. -/
theorem finalHeight_of_countCode {code : List (Instruction α)} {position size last : Nat}
    (h : countCode position size code = .ok last) : finalHeight size code = last := by
  induction code generalizing position size with
  | nil => exact Except.ok.inj h
  | cons i code ih =>
    rw [countCode] at h
    cases hi : i.count position size with
    | error e => simp [hi] at h
    | ok next =>
      rw [hi] at h
      rw [finalHeight, List.foldl_cons, Instruction.height_of_count hi]
      exact ih h

theorem exists_countCode_of_prefix {before code : List (Instruction α)} {position size last : Nat}
    (h : countCode position size code = .ok last) (front : before <+: code) :
    ∃ middle, countCode position size before = .ok middle := by
  obtain ⟨after, rfl⟩ := front
  rw [countCode_append] at h
  cases hb : countCode position size before with
  | error e => simp [hb] at h
  | ok middle => exact ⟨middle, rfl⟩

theorem finalHeight_le_greatestHeight {before code : List (Instruction α)}
    (front : before <+: code) : finalHeight 0 before ≤ greatestHeight 0 code := by
  obtain ⟨after, rfl⟩ := front
  rw [greatestHeight_append]
  by_cases empty : before = []
  · subst before
    exact Nat.zero_le _
  · have := (finalHeight_bounds 0 empty).2
    omega

theorem exists_prefix_of_greatestHeight (size : Nat) {code : List (Instruction α)}
    (started : code ≠ []) :
    ∃ before, before <+: code ∧ finalHeight size before = greatestHeight size code := by
  induction code generalizing size with
  | nil => exact absurd rfl started
  | cons i code ih =>
    have one : [i] <+: i :: code := ⟨code, rfl⟩
    by_cases last : code = []
    · subst code
      exact ⟨[i], one, (Nat.max_zero _).symm⟩
    · obtain ⟨before, front, height⟩ := ih (i.height size) last
      by_cases low : greatestHeight (i.height size) code ≤ i.height size
      · refine ⟨[i], one, ?_⟩
        rw [finalHeight_singleton, greatestHeight, Nat.max_eq_left low]
      · refine ⟨i :: before, List.cons_prefix_cons.mpr ⟨rfl, front⟩, ?_⟩
        rw [greatestHeight, Nat.max_eq_right (by omega), ← height]
        rfl

/-- The stack sizes that instructions lead through, up to the first operator that lacks operands. -/
def reachedSizes (code : List (Instruction α)) : Set Nat :=
  {size | ∃ before, before <+: code ∧ countCode 0 0 before = .ok size}

theorem le_greatestHeight_of_reached {code : List (Instruction α)} {size : Nat}
    (h : size ∈ reachedSizes code) : size ≤ greatestHeight 0 code := by
  obtain ⟨before, front, counted⟩ := h
  rw [← finalHeight_of_countCode counted]
  exact finalHeight_le_greatestHeight front

/-- All instructions have their operands, except for operators at the end. -/
def Orderly (code : List (Instruction α)) : Prop :=
  ∃ front ops size, code = front ++ List.map .operator ops ∧
    countCode 0 0 front = .ok size ∧ (front = [] → ops = [])

namespace Orderly

variable {code : List (Instruction α)}

theorem renumber (h : Orderly code) (offset : Term α → Nat) :
    Orderly (code.map (.renumber offset)) := by
  obtain ⟨front, ops, size, rfl, counted, started⟩ := h
  refine ⟨front.map (.renumber offset), ops, size, ?_, ?_, ?_⟩
  · rw [List.map_append, Instruction.map_renumber_operators]
  · rw [countCode_renumber, counted]
  · intro none
    exact started (List.map_eq_nil_iff.mp none)

/-- The greatest height is the greatest size that is reached. -/
theorem isGreatest (h : Orderly code) : IsGreatest (reachedSizes code) (greatestHeight 0 code) := by
  obtain ⟨front, ops, size, rfl, counted, started⟩ := h
  refine ⟨?_, fun reached => le_greatestHeight_of_reached⟩
  by_cases empty : front = []
  · rw [started empty, empty]
    exact ⟨[], List.nil_prefix, rfl⟩
  · obtain ⟨before, hbefore, height⟩ := exists_prefix_of_greatestHeight 0 empty
    obtain ⟨middle, hmiddle⟩ := exists_countCode_of_prefix counted hbefore
    rw [greatestHeight_append_operators empty, ← height, finalHeight_of_countCode hmiddle]
    exact ⟨before, hbefore.trans (List.prefix_append _ _), hmiddle⟩

/-- Whatever comes before a term has its operands. -/
theorem exists_count_of_term (h : Orderly code) {before after : List (Instruction α)} {t : Term α}
    {offset : Nat} (split : code = before ++ .term t offset :: after) :
    ∃ size, countCode 0 0 before = .ok size := by
  obtain ⟨front, ops, size, rfl, counted, -⟩ := h
  have noTerm : .term t offset ∉ List.map Instruction.operator ops := by simp
  have inFront : before ++ [.term t offset] <+: front := by
    rcases List.append_eq_append_iff.mp split with ⟨more, hbefore, hops⟩ | ⟨more, hfront, hterm⟩
    · exact absurd (by simp [hops]) noTerm
    · cases more with
      | nil =>
        rw [List.nil_append] at hterm
        exact absurd (by simp [← hterm]) noTerm
      | cons i more =>
        obtain ⟨rfl, -⟩ := List.cons.inj hterm
        exact ⟨more, by simp [hfront]⟩
  exact exists_countCode_of_prefix counted ((List.prefix_append _ _).trans inFront)

end Orderly

end FormulaFit

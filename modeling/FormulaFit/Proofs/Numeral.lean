import FormulaFit.Formula.Grammar
import Mathlib.Data.List.TakeWhile

namespace FormulaFit

theorem isNumberPart_iff {c : Char} : isNumberPart c ↔ c.isDigit ∨ c = '.' := by
  simp [isNumberPart]

theorem toLower_of_isNumberPart {c : Char} (h : isNumberPart c) : c.toLower = c := by
  unfold Char.toLower
  split
  next upper =>
    rcases isNumberPart_iff.mp h with digit | rfl
    · have hdigit : c.toNat ≤ 57 := (Char.isDigit_iff_toNat.mp digit).2
      have hupper : 65 ≤ c.toNat := upper.1
      omega
    · exact absurd upper (by decide)
  next => rfl

/-- What is left of digits and points after the leading digits starts with a point. -/
theorem dropWhile_isDigit_cases {text : List Char} (parts : ∀ c ∈ text, isNumberPart c) :
    text.dropWhile Char.isDigit = [] ∨ ∃ rest, text.dropWhile Char.isDigit = '.' :: rest := by
  cases h : text.dropWhile Char.isDigit with
  | nil => exact Or.inl rfl
  | cons c rest =>
    have member : c ∈ text.dropWhile Char.isDigit := by simp [h]
    have part := parts c ((List.dropWhile_sublist _).subset member)
    have noDigit : c.isDigit = false := by
      have := List.head_dropWhile_not (p := Char.isDigit) (l := text) (by simp [h])
      simpa [h] using this
    rcases isNumberPart_iff.mp part with digit | rfl
    · simp [digit] at noDigit
    · exact Or.inr ⟨rest, rfl⟩

theorem count_point_eq (text : List Char) :
    text.count '.' = (text.dropWhile Char.isDigit).count '.' := by
  have whole : (text.takeWhile Char.isDigit).count '.' = 0 := by
    rw [List.count_eq_zero]
    intro member
    have := List.mem_takeWhile_imp member
    simp at this
  have h := congrArg (List.count '.')
    (List.takeWhile_append_dropWhile (p := Char.isDigit) (l := text))
  rw [List.count_append, whole, Nat.zero_add] at h
  exact h.symm

theorem exists_isDigit_iff_takeWhile {text rest : List Char}
    (h : text.dropWhile Char.isDigit = rest) :
    (∃ c ∈ text, c.isDigit) ↔
      text.takeWhile Char.isDigit ≠ [] ∨ ∃ c ∈ rest, c.isDigit := by
  constructor
  · rintro ⟨c, member, digit⟩
    rw [← List.takeWhile_append_dropWhile (p := Char.isDigit) (l := text), h] at member
    rcases List.mem_append.mp member with front | back
    · exact Or.inl (List.ne_nil_of_mem front)
    · exact Or.inr ⟨c, back, digit⟩
  · rintro (front | ⟨c, back, digit⟩)
    · obtain ⟨c, member⟩ := List.exists_mem_of_ne_nil _ front
      exact ⟨c, (List.takeWhile_sublist _).subset member, List.mem_takeWhile_imp member⟩
    · exact ⟨c, (List.dropWhile_sublist Char.isDigit).subset (h ▸ back), digit⟩

theorem readExponent?_point (rest : List Char) : Numeral.readExponent? ('.' :: rest) = none := by
  simp [Numeral.readExponent?]

/-- Digits and points are read as a finite numeral exactly when there is a digit and no second
point. -/
theorem readFinite?_isSome_iff {text : List Char} (parts : ∀ c ∈ text, isNumberPart c)
    (negative : Bool) :
    (Numeral.readFinite? negative text).isSome ↔
      (∃ c ∈ text, c.isDigit) ∧ text.count '.' ≤ 1 := by
  rcases dropWhile_isDigit_cases parts with whole | ⟨fraction, pointed⟩
  · rw [count_point_eq, whole, exists_isDigit_iff_takeWhile whole]
    simp [Numeral.readFinite?, whole, Numeral.readExponent?]
  · have partsAfter : ∀ c ∈ fraction, isNumberPart c := by
      intro c member
      have : c ∈ text.dropWhile Char.isDigit := by simp [pointed, member]
      exact parts c ((List.dropWhile_sublist _).subset this)
    rw [count_point_eq, pointed, exists_isDigit_iff_takeWhile pointed, List.count_cons_self,
      count_point_eq]
    rcases dropWhile_isDigit_cases partsAfter with done | ⟨rest, second⟩
    · have digits : (∃ c ∈ '.' :: fraction, c.isDigit) ↔ fraction.takeWhile Char.isDigit ≠ [] := by
        have := exists_isDigit_iff_takeWhile done
        simpa using this
      rw [digits]
      cases hw : text.takeWhile Char.isDigit <;> cases hf : fraction.takeWhile Char.isDigit <;>
        simp [Numeral.readFinite?, pointed, done, hw, hf, Numeral.readExponent?]
    · have points : ¬(fraction.dropWhile Char.isDigit).count '.' + 1 ≤ 1 := by
        rw [second, List.count_cons_self]
        omega
      simp only [points, and_false, iff_false]
      simp [Numeral.readFinite?, pointed, second, readExponent?_point]

/-- No word is made of digits and points. -/
theorem map_toLower_ne_of_letter {text : List Char} (parts : ∀ c ∈ text, isNumberPart c)
    {word : List Char} (letter : ∃ c ∈ word, isNumberPart c = false) :
    text.map Char.toLower ≠ word := by
  intro h
  obtain ⟨c, member, noPart⟩ := letter
  rw [← h] at member
  obtain ⟨d, hd, rfl⟩ := List.mem_map.mp member
  rw [toLower_of_isNumberPart (parts d hd)] at noPart
  simp [parts d hd] at noPart

theorem takeSign_of_isNumberPart {text : List Char} (parts : ∀ c ∈ text, isNumberPart c) :
    Numeral.takeSign text = (false, text) := by
  cases text with
  | nil => rfl
  | cons c rest =>
    have part := parts c (by simp)
    unfold Numeral.takeSign
    split
    next h => cases h; exact absurd part (by decide)
    next h => cases h; exact absurd part (by decide)
    next => rfl

theorem exists_read_iff {text : List Char} (parts : ∀ c ∈ text, isNumberPart c) :
    (∃ n, Numeral.read text = .ok n) ↔ (∃ c ∈ text, c.isDigit) ∧ text.count '.' ≤ 1 := by
  rw [← readFinite?_isSome_iff parts false]
  have inf : text.map Char.toLower ≠ "inf".toList :=
    map_toLower_ne_of_letter parts ⟨'i', by decide, by decide⟩
  have infinity : text.map Char.toLower ≠ "infinity".toList :=
    map_toLower_ne_of_letter parts ⟨'i', by decide, by decide⟩
  have nan : text.map Char.toLower ≠ "nan".toList :=
    map_toLower_ne_of_letter parts ⟨'n', by decide, by decide⟩
  cases text with
  | nil => simp [Numeral.read, Numeral.readFinite?]
  | cons c rest =>
    simp only [Numeral.read, takeSign_of_isNumberPart parts, inf, infinity, nan]
    cases Numeral.readFinite? false (c :: rest) <;> simp

/-- The number texts are the runs of digits and points that can be read. -/
theorem isNumberText_iff {text : String} :
    IsNumberText text ↔
      (∀ c ∈ text.toList, isNumberPart c) ∧ ∃ n, Numeral.read text.toList = .ok n := by
  constructor
  · rintro ⟨parts, readable⟩
    exact ⟨parts, (exists_read_iff parts).mpr readable⟩
  · rintro ⟨parts, readable⟩
    exact ⟨parts, (exists_read_iff parts).mp readable⟩

end FormulaFit

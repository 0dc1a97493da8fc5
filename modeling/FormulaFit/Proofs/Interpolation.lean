import FormulaFit.Proofs.Centres
import FormulaFit.Proofs.Safety

namespace FormulaFit

section

variable {β : Type} {p : β → Bool} {xs : List β} {i : Nat} {x : β}

theorem of_lt_length_takeWhile (here : xs[i]? = some x) (early : i < (xs.takeWhile p).length) :
    p x := by
  induction xs generalizing i with
  | nil => cases here
  | cons y xs ih =>
    rw [List.takeWhile_cons] at early
    split at early
    next holds =>
      cases i with
      | zero =>
        cases here
        exact holds
      | succ i => exact ih here (Nat.lt_of_succ_lt_succ early)
    next => cases early

theorem not_of_length_takeWhile (here : xs[(xs.takeWhile p).length]? = some x) : ¬p x := by
  induction xs with
  | nil => cases here
  | cons y xs ih =>
    rw [List.takeWhile_cons] at here
    split at here
    next => exact ih here
    next fails =>
      cases here
      exact fails

end

namespace Histogram

section

variable {α : Type} [Scalar α] {h : Histogram α} {x : α} {i : Nat} {bin : Point α}

theorem le_of_lt_upperIndex (here : h.bins[i]? = some bin) (early : i < h.upperIndex x) :
    bin.x ≤ x :=
  of_decide_eq_true (of_lt_length_takeWhile (p := fun b : Point α => decide (b.x ≤ x)) here early)

theorem not_le_of_upperIndex (here : h.bins[h.upperIndex x]? = some bin) : ¬bin.x ≤ x :=
  fun le => not_of_length_takeWhile here (decide_eq_true le)

theorem upperIndex_pos (low : h.first.x ≤ x) : 0 < h.upperIndex x := by
  have head : h.bins[0]? = some h.first := by
    rw [← List.head?_eq_getElem?, List.head?_eq_some_head h.nonempty, first]
  by_contra none
  rw [← Nat.eq_zero_of_not_pos none] at head
  exact not_le_of_upperIndex head low

theorem upperIndex_lt (high : ¬h.last.x ≤ x) : h.upperIndex x < h.bins.length := by
  have few : h.upperIndex x ≤ h.bins.length := (List.takeWhile_sublist _).length_le
  have tail : h.bins[h.bins.length - 1]? = some h.last := by
    rw [← List.getLast?_eq_getElem?, List.getLast?_eq_some_getLast h.nonempty, last]
  have some := List.length_pos_of_ne_nil h.nonempty
  by_contra all
  exact high (le_of_lt_upperIndex tail (by omega))

theorem interpolate?_eq_none_iff : h.interpolate? x = none ↔
    ¬Scalar.isNaN x ∧ ¬x ≤ h.first.x ∧ ¬h.last.x ≤ x ∧ h.bracket? x = none := by
  rw [interpolate?]
  split_ifs <;> simp [*]

end

variable {h : Histogram Float} {x : Float}

/-- What interpolation finds for a number that is neither before the first centre nor behind the last
one: the bins before `x` are told apart from the others by their centres alone, there are some of
either kind, and the value lies on the line through the last and the first of them. -/
structure Brackets (h : Histogram Float) (x : Float) : Prop where
  lower : 1 ≤ h.upperIndex x
  upper : h.upperIndex x < h.bins.length
  divides : ∀ (i : Nat) bin, h.bins[i]? = some bin → (bin.x ≤ x ↔ i < h.upperIndex x)
  unique : ∀ n ≤ h.bins.length,
    (∀ (i : Nat) bin, h.bins[i]? = some bin → (bin.x ≤ x ↔ i < n)) → n = h.upperIndex x
  between : ∀ a b, h.bins[h.upperIndex x - 1]? = some a → h.bins[h.upperIndex x]? = some b →
    a.x ≤ x ∧ x < b.x ∧ h.interpolate? x = some (line a b x)

/-- A single centre has no neighbour that shows it to be a number. -/
theorem not_isNaN_of_isChain {xs : List Float} (ordered : xs.IsChain (· < ·)) :
    (∀ c ∈ xs, ¬c.isNaN) ∨ ∃ c, xs = [c] ∧ c.isNaN := by
  match xs with
  | [] => exact Or.inl (List.forall_mem_nil _)
  | [c] =>
    by_cases nan : c.isNaN
    · exact Or.inr ⟨c, rfl, nan⟩
    · exact Or.inl (List.forall_mem_singleton.mpr nan)
  | c :: d :: rest =>
    have above {e : Float} (member : e ∈ d :: rest) : c < e :=
      List.rel_of_pairwise_cons (List.isChain_iff_pairwise.mp ordered) member
    refine Or.inl (List.forall_mem_cons.mpr ⟨?_, fun e member => ?_⟩)
    · exact (not_isNaN_of_le (le_of_lt (above List.mem_cons_self))).1
    · exact (not_isNaN_of_le (le_of_lt (above member))).2

/-- In increasing centres the upper index tells all the bins before `x` from the others. -/
theorem le_iff_lt_upperIndex (ordered : h.centres.IsChain (· < ·))
    (upper : h.upperIndex x < h.bins.length) (beyond : x < h.bins[h.upperIndex x].x) {i : Nat}
    {bin : Point Float} (here : h.bins[i]? = some bin) : bin.x ≤ x ↔ i < h.upperIndex x := by
  refine ⟨fun le => ?_, le_of_lt_upperIndex here⟩
  by_contra late
  rcases Nat.lt_or_eq_of_le (Nat.le_of_not_lt late) with behind | rfl
  · obtain ⟨inside, rfl⟩ := List.getElem?_eq_some_iff.mp here
    have pairs := List.pairwise_iff_getElem.mp (List.isChain_iff_pairwise.mp ordered)
      (h.upperIndex x) i (by rwa [centres, List.length_map]) (by rwa [centres, List.length_map])
      behind
    simp only [centres, List.getElem_map] at pairs
    exact not_le_of_lt (Trans.trans beyond pairs) le
  · exact not_le_of_upperIndex here le

theorem brackets_of_isChain (ordered : h.centres.IsChain (· < ·))
    (numbers : ∀ c ∈ h.centres, ¬c.isNaN) (number : ¬x.isNaN) (low : ¬x ≤ h.first.x)
    (high : ¬h.last.x ≤ x) : h.Brackets x := by
  have centred {i : Nat} {bin : Point Float} (here : h.bins[i]? = some bin) : ¬bin.x.isNaN :=
    numbers bin.x (List.mem_map_of_mem (List.mem_of_getElem? here))
  have first_number : ¬h.first.x.isNaN :=
    numbers h.first.x (List.mem_map_of_mem (List.head_mem h.nonempty))
  have lower : 1 ≤ h.upperIndex x :=
    upperIndex_pos (le_of_lt (lt_of_not_le number first_number low))
  have upper : h.upperIndex x < h.bins.length := upperIndex_lt high
  have next := List.getElem?_eq_getElem upper
  have beyond : x < h.bins[h.upperIndex x].x :=
    lt_of_not_le (centred next) number (not_le_of_upperIndex next)
  have divides (i : Nat) (bin : Point Float) (here : h.bins[i]? = some bin) :
      bin.x ≤ x ↔ i < h.upperIndex x :=
    le_iff_lt_upperIndex ordered upper beyond here
  refine ⟨lower, upper, divides, ?_, ?_⟩
  · intro n few divides'
    rcases Nat.lt_trichotomy n (h.upperIndex x) with before | same | behind
    · have here := List.getElem?_eq_getElem (Nat.lt_trans before upper)
      have own := (divides' n _ here).mp ((divides n _ here).mpr before)
      omega
    · exact same
    · have own := (divides _ _ next).mp ((divides' _ _ next).mpr behind)
      omega
  · intro a b before after
    cases next.symm.trans after
    refine ⟨(divides _ _ before).mpr (by omega), beyond, ?_⟩
    obtain ⟨i, index⟩ : ∃ i, h.upperIndex x = i + 1 := ⟨h.upperIndex x - 1, by omega⟩
    rw [interpolate?, if_neg (c := Scalar.isNaN x) number, if_neg low, if_neg high, bracket?]
    simp only [index, Nat.add_sub_cancel] at before after ⊢
    simp [before, after]

/-- A single centre that is not a number is on no side of a number. -/
theorem interpolate?_of_isNaN {c : Float} (single : h.centres = [c]) (nan : c.isNaN)
    (number : ¬x.isNaN) : h.interpolate? x = none := by
  obtain ⟨bin, bins, rfl⟩ := List.map_eq_singleton_iff.mp single
  have first : h.first = bin := by simp [Histogram.first, bins]
  have last : h.last = bin := by simp [Histogram.last, bins]
  have below : ¬x ≤ bin.x := fun le => (not_isNaN_of_le le).2 nan
  have above : ¬bin.x ≤ x := fun le => (not_isNaN_of_le le).1 nan
  rw [interpolate?_eq_none_iff, first, last]
  refine ⟨number, below, above, ?_⟩
  rw [bracket?, upperIndex, bins, List.takeWhile_cons_of_neg (by simpa using above)]
  rfl

/-- Interpolation in a histogram that was taken has a value everywhere, and between the ends it finds
two neighbours around `x`. The one exception is a single centre that is not a number: there only such
an `x` has a value. -/
theorem ofColumns_interpolates {xs ys errors : List Float} (made : ofColumns xs ys errors = .ok h)
    (x : Float) :
    (h.interpolate? x = none ↔ ¬x.isNaN ∧ ∃ c, xs = [c] ∧ c.isNaN) ∧
      (¬x.isNaN → ¬x ≤ h.first.x → ¬h.last.x ≤ x → (¬∃ c, xs = [c] ∧ c.isNaN) → h.Brackets x) := by
  obtain ⟨-, ordered, rfl, -⟩ := ofColumns_eq_ok_iff.mp made
  have brackets (number : ¬x.isNaN) (low : ¬x ≤ h.first.x) (high : ¬h.last.x ≤ x)
      (regular : ¬∃ c, h.centres = [c] ∧ c.isNaN) : h.Brackets x :=
    brackets_of_isChain ordered ((not_isNaN_of_isChain ordered).resolve_right regular) number low
      high
  refine ⟨⟨fun none => ?_, fun ⟨number, c, single, nan⟩ => ?_⟩, brackets⟩
  · obtain ⟨number, low, high, -⟩ := interpolate?_eq_none_iff.mp none
    refine ⟨number, ?_⟩
    by_contra regular
    have found := brackets number low high regular
    have before := List.getElem?_eq_getElem (l := h.bins) (i := h.upperIndex x - 1)
      (Nat.lt_of_le_of_lt (Nat.sub_le _ _) found.upper)
    have value := (found.between _ _ before (List.getElem?_eq_getElem found.upper)).2.2
    rw [none] at value
    cases value
  · exact interpolate?_of_isNaN single nan number

/-- Between the second and the third of three centres. -/
theorem ofColumns_interpolates_two :
    ∃ h : Histogram Float,
      ofColumns [0.0, 1.0, 3.0] [2.0, 4.0, 0.0] [1.0, 1.0, 1.0] = .ok h ∧
      h.interpolate? 2.0 ≠ none ∧ h.Brackets 2.0 := by
  have ordered : (0.0 : Float) < 1.0 ∧ (1.0 : Float) < 3.0 := by decide +kernel
  let h : Histogram Float :=
    ⟨[⟨0.0, 2.0, 1.0⟩, ⟨1.0, 4.0, 1.0⟩, ⟨3.0, 0.0, 1.0⟩], by simp⟩
  have made : ofColumns [0.0, 1.0, 3.0] [2.0, 4.0, 0.0] [1.0, 1.0, 1.0] = .ok h :=
    ofColumns_eq_ok_iff.mpr ⟨by simp, by simp [ordered], rfl, rfl, rfl⟩
  obtain ⟨none, brackets⟩ := ofColumns_interpolates made 2.0
  refine ⟨h, made, ?_, brackets ?_ ?_ ?_ (by simp)⟩
  · rw [Ne, none]
    simp
  · decide +kernel
  · decide +kernel
  · decide +kernel

/-- A histogram that was taken can have no value at a number between its ends: its only centre is
not one. -/
theorem exists_not_interpolated :
    ∃ (c x : Float) (h : Histogram Float), ofColumns [c] [7.0] [1.0] = .ok h ∧ ¬x.isNaN ∧
      ¬x ≤ h.first.x ∧ ¬h.last.x ≤ x ∧ h.upperIndex x = 0 ∧ h.interpolate? x = none := by
  refine ⟨Scalar.nan, 0.5, uncentred, ofColumns_uncentred, ?_, ?_, ?_, ?_, interpolate?_uncentred⟩
  · decide +kernel
  · decide +kernel
  · decide +kernel
  · decide +kernel

end Histogram

end FormulaFit

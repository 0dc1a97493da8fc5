import FormulaFit.Proofs.Exact
import FormulaFit.Proofs.Interpolation

namespace FormulaFit

namespace Histogram

section

variable {K : Type} [ExactScalar K] {h : Histogram K} {x y : K} {i j : ℕ} {a b c d : Point K}

/-- A point on the straight line through two others. -/
def OnLine (a b : Point K) (x y : K) : Prop :=
  (y - a.y) * (b.x - a.x) = (b.y - a.y) * (x - a.x)

/-- The bins `i` and `i + 1` are `a` and `b`, and `x` lies between their centres, but not on the
second of them. -/
structure Encloses (h : Histogram K) (x : K) (i : ℕ) (a b : Point K) : Prop where
  here : h.bins[i]? = some a
  next : h.bins[i + 1]? = some b
  low : a.x ≤ x
  high : x < b.x

/-- Between two bounds that both ends keep, so does the line. -/
theorem line_mem {lower upper : K} (low : a.x ≤ x) (high : x < b.x)
    (first : lower ≤ a.y ∧ a.y ≤ upper) (second : lower ≤ b.y ∧ b.y ≤ upper) :
    lower ≤ line a b x ∧ line a b x ≤ upper := by
  have width : 0 < b.x - a.x := sub_pos.mpr (low.trans_lt high)
  -- The share of the way from the first centre to the second.
  obtain ⟨t, share⟩ : ∃ t, t = (x - a.x) / (b.x - a.x) := ⟨_, rfl⟩
  have start : 0 ≤ t := share ▸ div_nonneg (sub_nonneg.mpr low) width.le
  have finish : t ≤ 1 := by
    rw [share, div_le_one width]
    exact sub_le_sub_right high.le a.x
  have mixed : line a b x = (1 - t) * a.y + t * b.y := by
    rw [line, share]
    ring
  rw [mixed]
  constructor
  · calc lower = (1 - t) * lower + t * lower := by ring
      _ ≤ (1 - t) * a.y + t * b.y :=
        add_le_add (mul_le_mul_of_nonneg_left first.1 (sub_nonneg.mpr finish))
          (mul_le_mul_of_nonneg_left second.1 start)
  · calc (1 - t) * a.y + t * b.y ≤ (1 - t) * upper + t * upper :=
        add_le_add (mul_le_mul_of_nonneg_left first.2 (sub_nonneg.mpr finish))
          (mul_le_mul_of_nonneg_left second.2 start)
      _ = upper := by ring

theorem line_mono (increasing : a.x < b.x) (contents : a.y ≤ b.y) (le : x ≤ y) :
    line a b x ≤ line a b y := by
  have width : 0 < b.x - a.x := sub_pos.mpr increasing
  rw [line, line]
  gcongr

theorem onLine_line (apart : b.x - a.x ≠ 0) : OnLine a b x (line a b x) := by
  rw [OnLine, line, add_sub_cancel_left, div_mul_cancel₀ _ apart]

theorem line_left : line a b a.x = a.y := by
  rw [line, sub_self, mul_zero, zero_div, add_zero]

omit [ExactScalar K] in
theorem getElem?_first (h : Histogram K) : h.bins[0]? = some h.first := by
  rw [← List.head?_eq_getElem?, List.head?_eq_some_head h.nonempty, first]

omit [ExactScalar K] in
theorem getElem?_last (h : Histogram K) : h.bins[h.bins.length - 1]? = some h.last := by
  rw [← List.getLast?_eq_getElem?, List.getLast?_eq_some_getLast h.nonempty, last]

/-- Between the ends, a value lies between two neighbours. -/
theorem exists_encloses (low : h.first.x ≤ x) (high : x < h.last.x) :
    ∃ i a b, h.Encloses x i a b := by
  have lower := upperIndex_pos low
  have upper := upperIndex_lt (not_le.mpr high)
  obtain ⟨i, index⟩ : ∃ i, h.upperIndex x = i + 1 := ⟨h.upperIndex x - 1, by omega⟩
  obtain ⟨a, here⟩ : ∃ a, h.bins[i]? = some a := ⟨_, List.getElem?_eq_getElem (by omega)⟩
  obtain ⟨b, next⟩ : ∃ b, h.bins[h.upperIndex x]? = some b := ⟨_, List.getElem?_eq_getElem upper⟩
  have beyond := not_le.mp (not_le_of_upperIndex next)
  rw [index] at next
  exact ⟨i, a, b, here, next, le_of_lt_upperIndex here (by omega), beyond⟩

theorem interpolate?_before (low : x ≤ h.first.x) : h.interpolate? x = some h.first.y := by
  rw [interpolate?, if_neg (not_isNaN x), if_pos low]

variable (ordered : h.centres.IsChain (· < ·))

include ordered

theorem centre_lt (first : h.bins[i]? = some a) (second : h.bins[j]? = some b) (before : i < j) :
    a.x < b.x := by
  obtain ⟨hi, rfl⟩ := List.getElem?_eq_some_iff.mp first
  obtain ⟨hj, rfl⟩ := List.getElem?_eq_some_iff.mp second
  have pairs := List.pairwise_iff_getElem.mp (List.isChain_iff_pairwise.mp ordered) i j
    (by rwa [centres, List.length_map]) (by rwa [centres, List.length_map]) before
  simpa only [centres, List.getElem_map] using pairs

theorem centre_le (first : h.bins[i]? = some a) (second : h.bins[j]? = some b) (le : i ≤ j) :
    a.x ≤ b.x := by
  rcases Nat.lt_or_eq_of_le le with before | rfl
  · exact (centre_lt ordered first second before).le
  · rw [Option.some.inj (first.symm.trans second)]

/-- The centres up to `x` are those before the upper index. -/
theorem centre_le_iff (here : h.bins[i]? = some a) : a.x ≤ x ↔ i < h.upperIndex x := by
  refine ⟨fun low => ?_, le_of_lt_upperIndex here⟩
  by_contra late
  have inside : h.upperIndex x < h.bins.length := by
    have := (List.getElem?_eq_some_iff.mp here).1
    omega
  have next := List.getElem?_eq_getElem inside
  have least := centre_le ordered next here (Nat.le_of_not_lt late)
  exact not_le_of_upperIndex next (least.trans low)

theorem Encloses.upperIndex (found : h.Encloses x i a b) : h.upperIndex x = i + 1 := by
  have low := (centre_le_iff ordered found.here).mp found.low
  have high := mt (centre_le_iff ordered found.next).mpr (not_le.mpr found.high)
  omega

theorem Encloses.bracket?_eq (found : h.Encloses x i a b) : h.bracket? x = some (a, b) := by
  have index := found.upperIndex ordered
  simp only [bracket?, index, found.here, found.next]
  rfl

/-- The first centre is the only one that is met from the left. -/
theorem Encloses.eq_first (found : h.Encloses x i a b) (low : x ≤ h.first.x) :
    a = h.first ∧ x = a.x := by
  have first_le := centre_le ordered h.getElem?_first found.here (Nat.zero_le i)
  have same : x = a.x := le_antisymm (low.trans first_le) found.low
  rcases Nat.eq_zero_or_pos i with rfl | behind
  · exact ⟨Option.some.inj (found.here.symm.trans h.getElem?_first), same⟩
  · have above := centre_lt ordered h.getElem?_first found.here behind
    exact absurd (same ▸ low) (not_le.mpr above)

theorem Encloses.lt_last (found : h.Encloses x i a b) : x < h.last.x := by
  have inside := (List.getElem?_eq_some_iff.mp found.next).1
  exact found.high.trans_le (centre_le ordered found.next h.getElem?_last (by omega))

theorem Encloses.interpolate?_eq (found : h.Encloses x i a b) :
    h.interpolate? x = some (line a b x) := by
  rw [interpolate?, if_neg (not_isNaN x)]
  split
  next low =>
    obtain ⟨rfl, rfl⟩ := found.eq_first ordered low
    rw [line_left]
  next =>
    rw [if_neg (not_le.mpr (found.lt_last ordered)), found.bracket?_eq ordered]
    rfl

theorem interpolate?_behind (high : h.last.x ≤ x) : h.interpolate? x = some h.last.y := by
  rw [interpolate?, if_neg (not_isNaN x)]
  split
  next low =>
    -- Both ends are met at once only if there is a single bin.
    have single : h.bins.length - 1 = 0 := by
      by_contra more
      have apart := centre_lt ordered h.getElem?_first h.getElem?_last (Nat.pos_of_ne_zero more)
      exact absurd (high.trans low) (not_le.mpr apart)
    have tail := h.getElem?_last
    rw [single] at tail
    rw [Option.some.inj (h.getElem?_first.symm.trans tail)]
  next => rfl

theorem interpolate?_cases (x : K) :
    x ≤ h.first.x ∧ h.interpolate? x = some h.first.y ∨
      (∃ i a b, h.Encloses x i a b ∧ h.interpolate? x = some (line a b x)) ∨
      h.last.x ≤ x ∧ h.interpolate? x = some h.last.y := by
  rcases le_total x h.first.x with low | above
  · exact Or.inl ⟨low, interpolate?_before low⟩
  · rcases lt_or_ge x h.last.x with below | high
    · obtain ⟨i, a, b, found⟩ := exists_encloses above below
      exact Or.inr (Or.inl ⟨i, a, b, found, found.interpolate?_eq ordered⟩)
    · exact Or.inr (Or.inr ⟨high, interpolate?_behind ordered high⟩)

theorem exists_interpolate? (x : K) : ∃ v, h.interpolate? x = some v := by
  rcases interpolate?_cases ordered x with ⟨-, here⟩ | ⟨_, _, _, -, here⟩ | ⟨-, here⟩ <;>
    exact ⟨_, here⟩

theorem interpolate?_centre {bin : Point K} (member : bin ∈ h.bins) :
    h.interpolate? bin.x = some bin.y := by
  obtain ⟨i, here⟩ := List.getElem?_of_mem member
  cases next : h.bins[i + 1]? with
  | some b =>
    have found : h.Encloses bin.x i bin b :=
      ⟨here, next, le_rfl, centre_lt ordered here next (Nat.lt_succ_self i)⟩
    rw [found.interpolate?_eq ordered, line_left]
  | none =>
    have inside := (List.getElem?_eq_some_iff.mp here).1
    have beyond := List.getElem?_eq_none_iff.mp next
    have index : i = h.bins.length - 1 := by omega
    obtain rfl : bin = h.last := Option.some.inj (here.symm.trans (index ▸ h.getElem?_last))
    exact interpolate?_behind ordered le_rfl

theorem interpolate?_mem {lower upper v : K}
    (bounds : ∀ bin ∈ h.bins, lower ≤ bin.y ∧ bin.y ≤ upper) (value : h.interpolate? x = some v) :
    lower ≤ v ∧ v ≤ upper := by
  rcases interpolate?_cases ordered x with ⟨-, here⟩ | ⟨i, a, b, found, here⟩ | ⟨-, here⟩
  · obtain rfl := Option.some.inj (value.symm.trans here)
    exact bounds _ (List.head_mem h.nonempty)
  · obtain rfl := Option.some.inj (value.symm.trans here)
    exact line_mem found.low found.high (bounds a (List.mem_of_getElem? found.here))
      (bounds b (List.mem_of_getElem? found.next))
  · obtain rfl := Option.some.inj (value.symm.trans here)
    exact bounds _ (List.getLast_mem h.nonempty)

omit ordered in
theorem content_le (sorted : (h.bins.map Point.y).IsChain (· ≤ ·)) (first : h.bins[i]? = some a)
    (second : h.bins[j]? = some b) (le : i ≤ j) : a.y ≤ b.y := by
  rcases Nat.lt_or_eq_of_le le with before | rfl
  · obtain ⟨hi, rfl⟩ := List.getElem?_eq_some_iff.mp first
    obtain ⟨hj, rfl⟩ := List.getElem?_eq_some_iff.mp second
    have pairs := List.pairwise_iff_getElem.mp (List.isChain_iff_pairwise.mp sorted) i j
      (by rwa [List.length_map]) (by rwa [List.length_map]) before
    simpa only [List.getElem_map] using pairs
  · rw [Option.some.inj (first.symm.trans second)]

/-- Where the contents never fall, neither does the curve: within one piece because the piece does
not, and from one piece to a later one because there is a content between them. -/
theorem interpolate?_mono (sorted : (h.bins.map Point.y).IsChain (· ≤ ·)) (le : x ≤ y) {v w : K}
    (first : h.interpolate? x = some v) (second : h.interpolate? y = some w) : v ≤ w := by
  have least : ∀ bin ∈ h.bins, h.first.y ≤ bin.y ∧ bin.y ≤ h.last.y := by
    intro bin member
    obtain ⟨k, here⟩ := List.getElem?_of_mem member
    have inside := (List.getElem?_eq_some_iff.mp here).1
    exact ⟨content_le sorted h.getElem?_first here (Nat.zero_le k),
      content_le sorted here h.getElem?_last (by omega)⟩
  rcases interpolate?_cases ordered x with ⟨-, here⟩ | ⟨i, a, b, found, here⟩ | ⟨high, -⟩
  · obtain rfl := Option.some.inj (first.symm.trans here)
    exact (interpolate?_mem ordered least second).1
  · obtain rfl := Option.some.inj (first.symm.trans here)
    rcases interpolate?_cases ordered y with ⟨low, -⟩ | ⟨j, c, d, found', here'⟩ | ⟨-, here'⟩
    · have same : y = x := by
        obtain ⟨rfl, -⟩ := found.eq_first ordered (le.trans low)
        exact le_antisymm (low.trans found.low) le
      rw [same] at second
      exact (Option.some.inj (first.symm.trans second)).le
    · obtain rfl := Option.some.inj (second.symm.trans here')
      have order : i < j + 1 := by
        rw [← found'.upperIndex ordered, ← centre_le_iff ordered found.here]
        exact found.low.trans le
      rcases Nat.lt_or_eq_of_le (Nat.le_of_lt_succ order) with before | rfl
      · have rising := content_le sorted found.here found.next (Nat.le_succ i)
        have rising' := content_le sorted found'.here found'.next (Nat.le_succ j)
        calc line a b x ≤ b.y := (line_mem found.low found.high ⟨le_rfl, rising⟩ ⟨rising, le_rfl⟩).2
          _ ≤ c.y := content_le sorted found.next found'.here before
          _ ≤ line c d y :=
            (line_mem found'.low found'.high ⟨le_rfl, rising'⟩ ⟨rising', le_rfl⟩).1
      · obtain rfl := Option.some.inj (found.here.symm.trans found'.here)
        obtain rfl := Option.some.inj (found.next.symm.trans found'.next)
        exact line_mono (found.low.trans_lt found.high)
          (content_le sorted found.here found.next (Nat.le_succ i)) le
    · obtain rfl := Option.some.inj (second.symm.trans here')
      exact (interpolate?_mem ordered least first).2
  · have same := interpolate?_behind ordered high
    rw [Option.some.inj (first.symm.trans same),
      Option.some.inj (second.symm.trans (interpolate?_behind ordered (high.trans le)))]

end

/-- The curve of a histogram: constant before the first centre and behind the last one, and between
them straight from one bin to the next. -/
structure Traces {K : Type} [ExactScalar K] (h : Histogram K) (f : K → K) : Prop where
  before : ∀ x, x ≤ h.first.x → f x = h.first.y
  behind : ∀ x, h.last.x ≤ x → f x = h.last.y
  between : ∀ x, h.first.x < x → x < h.last.x → ∃ i a b, h.Encloses x i a b ∧
    (∀ j c d, h.Encloses x j c d → j = i) ∧ h.bracket? x = some (a, b)
  straight : ∀ x i a b, h.Encloses x i a b → b.x - a.x ≠ 0 ∧ OnLine a b x (f x) ∧
    min a.y b.y ≤ f x ∧ f x ≤ max a.y b.y
  centre : ∀ bin ∈ h.bins, f bin.x = bin.y
  bounded : ∀ lower upper, (∀ bin ∈ h.bins, lower ≤ bin.y ∧ bin.y ≤ upper) →
    ∀ x, lower ≤ f x ∧ f x ≤ upper
  monotone : (h.bins.map Point.y).IsChain (· ≤ ·) → Monotone f

/-- With exact arithmetic, interpolation between increasing centres is defined everywhere, and draws
the broken line through the bins. -/
theorem interpolate_traces {K : Type} [ExactScalar K] {h : Histogram K}
    (ordered : h.centres.IsChain (· < ·)) :
    ∃ f : K → K, (∀ x, h.interpolate? x = some (f x)) ∧ h.Traces f := by
  choose f value using exists_interpolate? ordered
  have eq {x v : K} (here : h.interpolate? x = some v) : f x = v :=
    Option.some.inj ((value x).symm.trans here)
  refine ⟨f, value, ?_, ?_, ?_, ?_, ?_, ?_, ?_⟩
  · exact fun x low => eq (interpolate?_before low)
  · exact fun x high => eq (interpolate?_behind ordered high)
  · intro x low high
    obtain ⟨i, a, b, found⟩ := exists_encloses low.le high
    refine ⟨i, a, b, found, fun j c d other => ?_, found.bracket?_eq ordered⟩
    exact Nat.succ.inj ((other.upperIndex ordered).symm.trans (found.upperIndex ordered))
  · intro x i a b found
    have apart : b.x - a.x ≠ 0 := (sub_pos.mpr (found.low.trans_lt found.high)).ne'
    rw [eq (found.interpolate?_eq ordered)]
    exact ⟨apart, onLine_line apart, line_mem found.low found.high
      ⟨min_le_left _ _, le_max_left _ _⟩ ⟨min_le_right _ _, le_max_right _ _⟩⟩
  · exact fun bin member => eq (interpolate?_centre ordered member)
  · exact fun lower upper bounds x => interpolate?_mem ordered bounds (value x)
  · exact fun sorted x y le => interpolate?_mono ordered sorted le (value x) (value y)

/-- Three unequally spaced bins of rising content. -/
def rising : Histogram ℚ :=
  ⟨[⟨0, 2, 1⟩, ⟨1, 4, 1⟩, ⟨3, 9, 1⟩], by simp⟩

/-- In the middle between the second and the third of three bins. -/
theorem interpolate_traces_rising :
    letI := ExactScalar.rational id id 3
    rising.centres.IsChain (· < ·) ∧ ∃ f : ℚ → ℚ, (∀ x, rising.interpolate? x = some (f x)) ∧
      rising.Traces f ∧ Monotone f ∧ f 2 = 13 / 2 := by
  let _ := ExactScalar.rational id id 3
  have ordered : rising.centres.IsChain (· < ·) := by simp [rising, centres]
  have sorted : (rising.bins.map Point.y).IsChain (· ≤ ·) := by
    simp only [rising, List.map_cons, List.map_nil, List.isChain_cons_cons]
    norm_num
  obtain ⟨f, value, traces⟩ := interpolate_traces ordered
  have middle : rising.interpolate? 2 = some (13 / 2) := by decide +kernel
  exact ⟨ordered, f, value, traces, traces.monotone sorted,
    Option.some.inj ((value 2).symm.trans middle)⟩

end Histogram

end FormulaFit

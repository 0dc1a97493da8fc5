import FormulaFit.Csv.Histogram
import FormulaFit.Proofs.Doubles
import FormulaFit.Proofs.Fitting

namespace FormulaFit

variable {α : Type} [Scalar α]

theorem firstUnordered?_eq_none_iff {xs : List α} :
    firstUnordered? xs = none ↔ xs.IsChain (· < ·) := by
  induction xs with
  | nil => simp [firstUnordered?]
  | cons x xs ih =>
    cases xs with
    | nil => simp [firstUnordered?]
    | cons y rest =>
      rw [firstUnordered?, List.isChain_cons_cons]
      split
      next ordered => simp [ordered, ih]
      next unordered => simp [unordered]

/-- The first value that is not above the one before it decides. -/
theorem firstUnordered?_eq_some_iff {xs : List α} {i : Nat} :
    firstUnordered? xs = some i ↔ ∃ before x y after, xs = before ++ x :: y :: after ∧
      (before ++ [x]).IsChain (· < ·) ∧ ¬x < y ∧ i = before.length + 1 := by
  constructor
  · intro found
    induction xs generalizing i with
    | nil => cases found
    | cons x xs ih =>
      cases xs with
      | nil => cases found
      | cons y rest =>
        rw [firstUnordered?] at found
        split at found
        next ordered =>
          obtain ⟨j, later, rfl⟩ := Option.map_eq_some_iff.mp found
          obtain ⟨before, z, w, after, equal, chain, turn, rfl⟩ := ih later
          refine ⟨x :: before, z, w, after, by rw [equal, List.cons_append], ?_, turn, rfl⟩
          have head : (before ++ [z]).head? = some y := by
            have first := congrArg List.head? equal
            cases before <;> simpa using first.symm
          rw [List.cons_append, List.isChain_cons, head]
          exact ⟨fun next this => Option.some.inj this ▸ ordered, chain⟩
        next turn =>
          cases found
          exact ⟨[], x, y, rest, rfl, List.isChain_singleton x, turn, rfl⟩
  · rintro ⟨before, x, y, after, rfl, chain, turn, rfl⟩
    induction before with
    | nil => exact if_neg turn
    | cons z before ih =>
      obtain ⟨first, chain⟩ := List.isChain_cons.mp chain
      have later := ih chain
      cases before with
      | nil =>
        have ordered : z < x := first x rfl
        rw [List.cons_append, List.nil_append, firstUnordered?, if_pos ordered]
        exact congrArg (Option.map (· + 1)) later
      | cons w before =>
        have ordered : z < w := first w rfl
        rw [List.cons_append, List.cons_append, firstUnordered?, if_pos ordered]
        exact congrArg (Option.map (· + 1)) later

namespace Histogram

/-- The bin centres. -/
def centres (h : Histogram α) : List α :=
  h.bins.map Point.x

theorem ofBins_eq_ok_iff {bins : List (Point α)} {h : Histogram α} :
    ofBins bins = .ok h ↔
      bins ≠ [] ∧ (bins.map Point.x).IsChain (· < ·) ∧ h.bins = bins := by
  rw [ofBins]
  by_cases none : bins = []
  · simp [none]
  · rw [dif_neg none, ← firstUnordered?_eq_none_iff]
    cases firstUnordered? (bins.map Point.x) with
    | some row => simp
    | none =>
      obtain ⟨own, inhabited⟩ := h
      simp [none, eq_comm]

theorem ofBins_eq_error_iff {bins : List (Point α)} {e : HistogramError α} :
    ofBins bins = .error e ↔ bins = [] ∧ e = .empty ∨
      ∃ i, firstUnordered? (bins.map Point.x) = some i ∧ e = .unordered i := by
  rw [ofBins]
  by_cases none : bins = []
  · subst none
    simp [firstUnordered?, eq_comm]
  · rw [dif_neg none]
    cases firstUnordered? (bins.map Point.x) with
    | some i => simp [none, eq_comm]
    | none => simp [none]

/-- The bins that columns of equal lengths are put together to. -/
def binsOfColumns (xs ys errors : List α) : List (Point α) :=
  List.zipWith (fun x p => ⟨x, p.1, p.2⟩) xs (ys.zip errors)

omit [Scalar α] in
theorem columns_binsOfColumns {xs ys errors : List α} (contents : xs.length = ys.length)
    (weights : xs.length = errors.length) :
    (binsOfColumns xs ys errors).map Point.x = xs ∧ (binsOfColumns xs ys errors).map Point.y = ys ∧
      (binsOfColumns xs ys errors).map Point.error = errors := by
  induction xs generalizing ys errors with
  | nil =>
    obtain rfl := List.length_eq_zero_iff.mp contents.symm
    obtain rfl := List.length_eq_zero_iff.mp weights.symm
    exact ⟨rfl, rfl, rfl⟩
  | cons x xs ih =>
    obtain ⟨y, ys, rfl⟩ := List.exists_cons_of_length_eq_add_one contents.symm
    obtain ⟨e, errors, rfl⟩ := List.exists_cons_of_length_eq_add_one weights.symm
    obtain ⟨hx, hy, he⟩ := ih (Nat.succ.inj contents) (Nat.succ.inj weights)
    rw [binsOfColumns] at hx hy he
    simp [binsOfColumns, hx, hy, he]

omit [Scalar α] in
theorem binsOfColumns_columns (bins : List (Point α)) :
    binsOfColumns (bins.map Point.x) (bins.map Point.y) (bins.map Point.error) = bins := by
  induction bins with
  | nil => rfl
  | cons bin bins ih =>
    rw [binsOfColumns] at ih
    simp [binsOfColumns, ih]

theorem ofColumns_eq_ok_iff {xs ys errors : List α} {h : Histogram α} :
    ofColumns xs ys errors = .ok h ↔
      xs ≠ [] ∧ xs.IsChain (· < ·) ∧ h.centres = xs ∧ h.bins.map Point.y = ys ∧
        h.bins.map Point.error = errors := by
  rw [ofColumns]
  constructor
  · intro made
    split at made
    next => cases made
    next some =>
      split at made
      next lengths =>
        simp only [Bool.and_eq_true, decide_eq_true_eq] at lengths
        obtain ⟨hx, hy, he⟩ := columns_binsOfColumns lengths.1 lengths.2
        obtain ⟨-, ordered, bins⟩ := ofBins_eq_ok_iff.mp made
        rw [← binsOfColumns] at ordered bins
        rw [hx] at ordered
        refine ⟨by simpa using some, ordered, ?_, ?_, ?_⟩
        · rw [centres, bins, hx]
        · rw [bins, hy]
        · rw [bins, he]
      next => cases made
  · rintro ⟨some, ordered, hx, rfl, rfl⟩
    have columns := binsOfColumns_columns h.bins
    rw [centres] at hx
    rw [hx] at columns
    have contents : xs.length = (h.bins.map Point.y).length := by simp [← hx]
    have weights : xs.length = (h.bins.map Point.error).length := by simp [← hx]
    rw [if_neg (by simpa using some), if_pos (by simp only [← contents, ← weights]; simp),
      ofBins_eq_ok_iff, ← binsOfColumns, columns, hx]
    exact ⟨h.nonempty, ordered, rfl⟩

theorem changeUnits_eq_ok_iff {h next : Histogram α} {m : α} :
    h.changeUnits m = .ok next ↔
      IsFactor m ∧ next.bins = h.bins.map fun bin => { bin with x := bin.x * m } := by
  obtain ⟨bins, inhabited⟩ := next
  rw [changeUnits, IsFactor]
  split
  next accepted =>
    simp only [Bool.and_eq_true, decide_eq_true_eq] at accepted
    simp [accepted, eq_comm]
  next refused =>
    simp only [Bool.and_eq_true, decide_eq_true_eq] at refused
    simp [refused]

theorem changeUnits_of_not_isFactor {h : Histogram α} {m : α} (refused : ¬IsFactor m) :
    h.changeUnits m = .error (.multiplier m) := by
  rw [changeUnits, if_neg]
  simpa [IsFactor] using refused

theorem isChain_of_ofColumns {xs ys errors : List α} {h : Histogram α}
    (made : ofColumns xs ys errors = .ok h) : h.centres.IsChain (· < ·) := by
  obtain ⟨-, ordered, centres, -⟩ := ofColumns_eq_ok_iff.mp made
  rwa [centres]

theorem isChain_of_ofTable {t : Csv.Table} {h : Histogram α} (made : ofTable t = .ok h) :
    h.centres.IsChain (· < ·) := by
  unfold ofTable at made
  split at made
  next => cases made
  next => cases made
  next =>
    obtain ⟨columns, -, made⟩ := exists_of_bind_eq_ok made
    obtain ⟨bins, -, made⟩ := exists_of_bind_eq_ok made
    obtain ⟨-, ordered, equal⟩ := ofBins_eq_ok_iff.mp (eq_ok_of_mapError_eq_ok made)
    rw [centres, equal]
    exact ordered

/-- A histogram that is made from columns or from a table, and what it is in other units. -/
inductive Obtainable : Histogram α → List α → Histogram α → Prop
  | ofColumns {xs ys errors : List α} {h : Histogram α}
    (made : Histogram.ofColumns xs ys errors = .ok h) : Obtainable h [] h
  | ofTable {t : Csv.Table} {h : Histogram α} (made : Histogram.ofTable t = .ok h) :
    Obtainable h [] h
  | changeUnits {start h next : Histogram α} {multipliers : List α} {m : α}
    (earlier : Obtainable start multipliers h) (made : h.changeUnits m = .ok next) :
    Obtainable start (multipliers ++ [m]) next

/-- The value after one change of units after the other. -/
def inUnits (multipliers : List α) (x : α) : α :=
  multipliers.foldl (· * ·) x

theorem inUnits_concat (multipliers : List α) (m x : α) :
    inUnits (multipliers ++ [m]) x = inUnits multipliers x * m := by
  simp only [inUnits, List.foldl_append, List.foldl_cons, List.foldl_nil]

namespace Obtainable

variable {start h : Histogram α} {multipliers : List α}

theorem isChain_start (made : Obtainable start multipliers h) :
    start.centres.IsChain (· < ·) := by
  induction made with
  | ofColumns made => exact isChain_of_ofColumns made
  | ofTable made => exact isChain_of_ofTable made
  | changeUnits earlier made ih => exact ih

theorem isFactor (made : Obtainable start multipliers h) : ∀ m ∈ multipliers, IsFactor m := by
  induction made with
  | ofColumns made => exact List.forall_mem_nil _
  | ofTable made => exact List.forall_mem_nil _
  | @changeUnits _ h next multipliers m earlier made ih =>
    have factor : IsFactor m := (changeUnits_eq_ok_iff.mp made).1
    rw [List.forall_mem_append]
    exact ⟨ih, List.forall_mem_singleton.mpr factor⟩

theorem bins_eq (made : Obtainable start multipliers h) :
    h.bins = start.bins.map fun bin => { bin with x := inUnits multipliers bin.x } := by
  induction made with
  | ofColumns made => exact (List.map_id _).symm
  | ofTable made => exact (List.map_id _).symm
  | @changeUnits start h next multipliers m earlier made ih =>
    have scaled := (changeUnits_eq_ok_iff.mp made).2
    rw [scaled, ih, List.map_map]
    simp only [Function.comp_def, inUnits_concat]

theorem centres_eq (made : Obtainable start multipliers h) :
    h.centres = start.centres.map (inUnits multipliers) := by
  rw [centres, centres, made.bins_eq, List.map_map, List.map_map]
  rfl

end Obtainable

theorem inUnits_le {multipliers : List Float} (factors : ∀ m ∈ multipliers, IsFactor m)
    {x y : Float} (h : x ≤ y) : inUnits multipliers x ≤ inUnits multipliers y := by
  induction multipliers generalizing x y with
  | nil => exact h
  | cons m multipliers ih =>
    obtain ⟨factor, factors⟩ := List.forall_mem_cons.mp factors
    exact ih factors (mul_le_mul_of_factor h factor)

/-- Where the order cannot turn round, it is strict just where no two neighbours become equal. -/
theorem isChain_lt_map_iff {f : Float → Float} {xs : List Float}
    (ordered : (xs.map f).IsChain (· ≤ ·)) :
    (xs.map f).IsChain (· < ·) ↔ xs.IsChain fun x y => ¬f x == f y := by
  rw [List.isChain_map, List.isChain_iff_getElem] at ordered
  rw [List.isChain_map, List.isChain_iff_getElem, List.isChain_iff_getElem]
  exact forall₂_congr fun i inside => lt_iff_of_le (ordered i inside)

/-- What holds of a histogram after changes of units. It has the bins of the one that was made first,
with centres that never turn round. The constructor would take it just where no two neighbours have
become equal. -/
structure Ordered (start : Histogram Float) (multipliers : List Float) (h : Histogram Float) :
    Prop where
  nonempty : h.bins ≠ []
  first : start.centres.IsChain (· < ·)
  factors : ∀ m ∈ multipliers, IsFactor m
  bins : h.bins = start.bins.map fun bin => { bin with x := inUnits multipliers bin.x }
  centres : h.centres.IsChain (· ≤ ·)
  strict : h.centres.IsChain (· < ·) ↔
    start.centres.IsChain fun x y => ¬inUnits multipliers x == inUnits multipliers y
  taken : ofBins h.bins = .ok h ↔ h.centres.IsChain (· < ·)
  accepted : ∀ m, (∃ next, h.changeUnits m = .ok next) ↔ IsFactor m
  refused : ∀ m, ¬IsFactor m → h.changeUnits m = .error (.multiplier m)

/-- Columns and tables are taken only if their centres are strictly increasing. A change of units
keeps their order, but it makes no check of its own: where two neighbours are rounded to the same
value, the order is strict no longer. -/
theorem obtainable_ordered {start h : Histogram Float} {multipliers : List Float}
    (made : Obtainable start multipliers h) : Ordered start multipliers h := by
  have scaled := made.centres_eq
  have ordered : (start.centres.map (inUnits multipliers)).IsChain (· ≤ ·) := by
    rw [List.isChain_map]
    exact made.isChain_start.imp fun _ _ below => inUnits_le made.isFactor (le_of_lt below)
  refine ⟨h.nonempty, made.isChain_start, made.isFactor, made.bins_eq, ?_, ?_, ?_, ?_, ?_⟩
  · rwa [scaled]
  · rw [scaled]
    exact isChain_lt_map_iff ordered
  · rw [ofBins_eq_ok_iff]
    exact ⟨fun taken => taken.2.1, fun strict => ⟨h.nonempty, strict, rfl⟩⟩
  · intro m
    constructor
    · rintro ⟨next, changed⟩
      exact (changeUnits_eq_ok_iff.mp changed).1
    · intro factor
      exact ⟨⟨_, by simpa using h.nonempty⟩, changeUnits_eq_ok_iff.mpr ⟨factor, rfl⟩⟩
  · exact fun m => changeUnits_of_not_isFactor

/-- Three centres keep their strict order in thousandths of the unit. -/
theorem obtainable_ordered_thousandths :
    ∃ start h : Histogram Float,
      ofColumns [0.0, 1.0, 3.0] [2.0, 4.0, 0.0] [1.0, 1.0, 1.0] = .ok start ∧
      Obtainable start [1000.0] h ∧ h.centres.IsChain (· < ·) := by
  have first : (0.0 : Float) < 1.0 := by decide +kernel
  have second : (1.0 : Float) < 3.0 := by decide +kernel
  have apart : ¬(0.0 : Float) * 1000.0 == 1.0 * 1000.0 := by decide +kernel
  have apart' : ¬(1.0 : Float) * 1000.0 == 3.0 * 1000.0 := by decide +kernel
  have factor : IsFactor (1000.0 : Float) := ⟨by decide +kernel, by decide +kernel⟩
  obtain ⟨start, columns⟩ : ∃ start : Histogram Float,
      ofColumns [0.0, 1.0, 3.0] [2.0, 4.0, 0.0] [1.0, 1.0, 1.0] = .ok start :=
    ⟨⟨[⟨0.0, 2.0, 1.0⟩, ⟨1.0, 4.0, 1.0⟩, ⟨3.0, 0.0, 1.0⟩], by simp⟩,
      ofColumns_eq_ok_iff.mpr ⟨by simp, by simp [first, second], rfl, rfl, rfl⟩⟩
  obtain ⟨h, changed⟩ := ((obtainable_ordered (.ofColumns columns)).accepted 1000.0).mpr factor
  have made : Obtainable start [1000.0] h := (Obtainable.ofColumns columns).changeUnits changed
  refine ⟨start, h, columns, made, (obtainable_ordered made).strict.mpr ?_⟩
  rw [(ofColumns_eq_ok_iff.mp columns).2.2.1]
  simp [inUnits, apart, apart']

/-- Two centres next to each other, as near as doubles can be. -/
def nearCentres : Histogram Float :=
  ⟨[⟨1.5000000000000047, 1.0, 1.0⟩, ⟨1.5000000000000049, 2.0, 1.0⟩], by simp⟩

/-- In thousandths of the unit both centres are the same, although the columns were accepted. -/
theorem exists_unordered_changeUnits :
    ∃ h next : Histogram Float,
      ofColumns [1.5000000000000047, 1.5000000000000049] [1.0, 2.0] [1.0, 1.0] = .ok h ∧
      h.changeUnits 1000.0 = .ok next ∧ next.centres = [1500.0000000000048, 1500.0000000000048] ∧
      ¬next.centres.IsChain (· < ·) := by
  have ordered : (1.5000000000000047 : Float) < 1.5000000000000049 := by decide +kernel
  have factor : IsFactor (1000.0 : Float) := ⟨by decide +kernel, by decide +kernel⟩
  have first : (1.5000000000000047 : Float) * 1000.0 = 1500.0000000000048 := by decide +kernel
  have second : (1.5000000000000049 : Float) * 1000.0 = 1500.0000000000048 := by decide +kernel
  have equal : ¬(1500.0000000000048 : Float) < 1500.0000000000048 := by decide +kernel
  refine ⟨nearCentres, ⟨_, by simp⟩,
    ofColumns_eq_ok_iff.mpr ⟨by simp, by simpa using ordered, rfl, rfl, rfl⟩,
    changeUnits_eq_ok_iff.mpr ⟨factor, rfl⟩, ?_, ?_⟩
  · simp [centres, first, second]
  · simp [centres, first, second, equal]

end Histogram

end FormulaFit

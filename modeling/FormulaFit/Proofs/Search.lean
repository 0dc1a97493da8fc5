import FormulaFit.LeastSquares.LevenbergMarquardt
import FormulaFit.Proofs.Fitting

namespace FormulaFit

/-- Every parameter has limits, and every point a residual. -/
structure Problem.WellPosed {α : Type} (problem : Problem α) : Prop where
  limits : problem.limits.length = problem.start.length
  residuals : ∀ trial residuals, problem.residuals trial = .ok residuals →
    residuals.length = problem.count

/-- A minimum of a problem: a value and an error for every parameter. -/
structure Minimum.For {α : Type} (found : Minimum α) (problem : Problem α) : Prop where
  values : found.values.length = problem.start.length
  errors : found.errors.length = problem.start.length

/-- A minimizer that leaves a value and an error for every parameter, and refuses to fit more
parameters than there are points. -/
structure Minimizer.Complete {α : Type} (minimize : Minimizer α) : Prop where
  found : ∀ problem found, problem.WellPosed → minimize problem = .ok found → found.For problem
  enough : ∀ problem found, problem.WellPosed → minimize problem = .ok found →
    problem.start.length ≤ problem.count

namespace LeastSquares

theorem length_place (order : List Nat) (v : List Float) : (place order v).length = v.length := by
  rw [place, length_foldl_set, List.length_map]

theorem length_subScaled (u : List Float) (c : Float) (v : List Float) :
    (subScaled u c v).length = min u.length v.length :=
  List.length_zipWith

theorem length_pivot (columns : List Column) : (pivot columns).length = columns.length := by
  unfold pivot
  split
  next => simp
  next => rfl

theorem mem_of_mem_pivot {columns : List Column} {c : Column} (h : c ∈ pivot columns) :
    c ∈ columns := by
  unfold pivot at h
  split at h
  next first rest i _ =>
    rcases List.mem_cons.mp h with rfl | h
    · cases found : rest[i]? with
      | none => exact List.mem_cons_self
      | some c => exact List.mem_cons_of_mem _ (List.mem_of_getElem? found)
    · rcases List.mem_or_eq_of_mem_set h with old | rfl
      · exact List.mem_cons_of_mem _ old
      · exact List.mem_cons_self
  next => exact h

/-- A column of which `k` entries are above the current row and `r` are not. -/
structure Column.Split (k r : Nat) (c : Column) : Prop where
  upper : c.upper.length = k
  rest : c.rest.length = r

section

variable {k r : Nat} {c : Column}

theorem Column.Split.descend (h : c.Split k (r + 1)) : c.descend.Split (k + 1) r := by
  refine ⟨?_, ?_⟩
  · rw [Column.descend, List.length_append, h.upper, List.length_take, h.rest]
    omega
  · rw [Column.descend, List.length_drop, h.rest]
    omega

theorem Column.Split.reflect {v : List Float} (count : v.length = r + 1) (v0 : Float)
    (h : c.Split k (r + 1)) : (c.reflect v v0).Split (k + 1) r := by
  have moved : ({ c with rest := LeastSquares.reflect v v0 c.rest } : Column).Split k (r + 1) := by
    refine ⟨h.upper, ?_⟩
    rw [LeastSquares.reflect, length_subScaled, count, h.rest, Nat.min_self]
  -- Only the lengths that are carried along depend on the branch.
  unfold Column.reflect
  dsimp only
  split_ifs
  · exact moved.descend
  · exact ⟨moved.descend.upper, moved.descend.rest⟩
  · exact ⟨moved.descend.upper, moved.descend.rest⟩

end

/-- A step finishes one column, and brings the others one row down. -/
theorem reduce_succ {columns others : List Column} {c : Column} {k r : Nat}
    (pivoted : pivot columns = c :: others) (split : ∀ c' ∈ c :: others, c'.Split k (r + 1))
    (n : Nat) (b : List Float) :
    ∃ lower b' diagonal value, lower.length = others.length ∧ (∀ c' ∈ lower, c'.Split (k + 1) r) ∧
      reduce (n + 1) columns b = ((c.index, c.upper ++ [diagonal]) :: (reduce n lower b').1,
        value :: (reduce n lower b').2) := by
  obtain ⟨own, rest⟩ := List.forall_mem_cons.mp split
  rw [reduce, pivoted]
  dsimp only
  generalize (if c.rest.headD 0.0 < 0.0 then -norm c.rest else norm c.rest) = size
  by_cases zero : (size == 0.0) = true
  · simp only [if_pos zero]
    refine ⟨_, _, _, _, List.length_map Column.descend, ?_, rfl⟩
    intro c' member
    obtain ⟨old, there, rfl⟩ := List.mem_map.mp member
    exact (rest old there).descend
  · simp only [if_neg zero]
    refine ⟨_, _, _, _, List.length_map (Column.reflect _ _), ?_, rfl⟩
    intro c' member
    obtain ⟨old, there, rfl⟩ := List.mem_map.mp member
    refine (rest old there).reflect ?_ _
    obtain ⟨first, below, entries⟩ := List.exists_cons_of_length_eq_add_one own.rest
    simpa [entries] using own.rest

theorem reduce_shape {n k r : Nat} {columns : List Column} (width : columns.length = n)
    (split : ∀ c ∈ columns, c.Split k r) (tall : n ≤ r) (b : List Float) :
    (reduce n columns b).1.map (fun c => c.2.length) = List.range' (k + 1) n ∧
      (reduce n columns b).2.length = n := by
  induction n generalizing k r columns b with
  | zero => exact ⟨rfl, rfl⟩
  | succ n ih =>
    obtain ⟨r, rfl⟩ : ∃ r', r = r' + 1 := ⟨r - 1, by omega⟩
    cases pivoted : pivot columns with
    | nil =>
      have none := (length_pivot columns).trans width
      simp [pivoted] at none
    | cons c others =>
      have count := (length_pivot columns).trans width
      rw [pivoted, List.length_cons] at count
      have kept : ∀ c' ∈ c :: others, c'.Split k (r + 1) := fun c' member =>
        split c' (mem_of_mem_pivot (pivoted ▸ member))
      obtain ⟨lower, b', diagonal, value, same, down, step⟩ := reduce_succ pivoted kept n b
      obtain ⟨finished, rhs⟩ := ih (by omega) down (by omega) b'
      rw [step]
      refine ⟨?_, congrArg (· + 1) rhs⟩
      rw [List.map_cons, finished, List.length_append, (kept c List.mem_cons_self).upper,
        List.range'_succ]
      rfl

/-- A triangular factor with `n` columns. -/
structure Factorization.Triangular (f : Factorization) (n : Nat) : Prop where
  columns : f.columns.map List.length = List.range' 1 n
  order : f.order.length = n
  rhs : f.rhs.length = n

/-- The reduction starts from the whole columns of the matrix. -/
theorem exists_columns_of_factor {matrix : List (List Float)} {height : Nat}
    (high : ∀ column ∈ matrix, column.length = height) (b : List Float) :
    ∃ columns : List Column, columns.length = matrix.length ∧ (∀ c ∈ columns, c.Split 0 height) ∧
      factor matrix b = ⟨(reduce columns.length columns b).1.map Prod.snd,
        (reduce columns.length columns b).1.map Prod.fst, (reduce columns.length columns b).2,
        matrix.map norm⟩ := by
  refine ⟨(matrix.zip (matrix.map norm)).zipIdx.map fun e =>
    { index := e.2, upper := [], rest := e.1.1, length := e.1.2, fresh := e.1.2 }, ?_, ?_, rfl⟩
  · simp
  · intro c member
    obtain ⟨⟨⟨entries, length⟩, index⟩, there, rfl⟩ := List.mem_map.mp member
    have own : (entries, length) ∈ matrix.zip (matrix.map norm) := by
      rw [(List.mem_zipIdx' there).2]
      exact List.getElem_mem _
    exact ⟨rfl, high entries (List.of_mem_zip own).1⟩

/-- A matrix that is at least as high as it is wide has a triangular factor of its width. -/
theorem factor_triangular {matrix : List (List Float)} {height : Nat}
    (high : ∀ column ∈ matrix, column.length = height) (tall : matrix.length ≤ height)
    (b : List Float) : (factor matrix b).Triangular matrix.length := by
  obtain ⟨columns, width, split, opened⟩ := exists_columns_of_factor high b
  obtain ⟨finished, rhs⟩ := reduce_shape width split tall b
  have order := congrArg List.length finished
  rw [List.length_map, List.length_range'] at order
  rw [opened, width]
  refine ⟨?_, ?_, rhs⟩
  · rw [List.map_map]
    exact finished
  · exact (List.length_map _).trans order

namespace Factorization

theorem length_solveUp {n : Nat} {columns : List (List Float)}
    (shape : columns.map List.length = (List.range' 1 n).reverse) {b : List Float}
    (count : b.length = n) : (solveUp columns b).length = n := by
  induction n generalizing columns b with
  | zero =>
    obtain rfl : columns = [] := List.map_eq_nil_iff.mp shape
    rfl
  | succ n ih =>
    rw [List.range'_1_concat, List.reverse_append] at shape
    obtain ⟨c, columns, rfl, first, shorter⟩ := List.map_eq_cons_iff.mp shape
    obtain ⟨y, b, rfl⟩ := List.exists_cons_of_length_eq_add_one count
    obtain ⟨d, column, rfl⟩ := List.exists_cons_of_length_pos (l := c) (by omega)
    rw [List.length_cons] at first count
    rw [solveUp, List.length_cons, ih shorter]
    rw [length_subScaled]
    omega

theorem rank_le (f : Factorization) : f.rank ≤ f.columns.length := by
  have short := (List.takeWhile_sublist (· != 0.0) (l := f.diagonal)).length_le
  rwa [diagonal, List.length_map] at short

variable {f : Factorization} {n : Nat}

theorem Triangular.width (h : f.Triangular n) : f.columns.length = n := by
  have counted := congrArg List.length h.columns
  rwa [List.length_map, List.length_range'] at counted

theorem Triangular.length_solution (h : f.Triangular n) : f.solution.length = n := by
  have low := f.rank_le
  rw [h.width] at low
  have shape : ((f.columns.take f.rank).reverse.map List.reverse).map List.length =
      (List.range' 1 f.rank).reverse := by
    have lengths : (List.length ∘ List.reverse : List Float → Nat) = List.length :=
      funext fun _ => List.length_reverse
    rw [List.map_map, lengths, List.map_reverse, List.map_take, h.columns,
      List.take_range'_of_length_ge low]
  have count : (f.rhs.take f.rank).reverse.length = f.rank := by
    rw [List.length_reverse, List.length_take, h.rhs, Nat.min_eq_left low]
  rw [solution, length_place, List.length_append, List.length_reverse, length_solveUp shape count,
    List.length_map, List.length_drop, h.rhs]
  omega

end Factorization

theorem length_rotateRow (d : List Float) (q : Float) (columns : List DampedColumn) :
    (rotateRow d q columns).length = columns.length := by
  induction columns generalizing d q with
  | nil => rfl
  | cons c columns ih =>
    rw [rotateRow]
    split_ifs
    · exact congrArg (· + 1) (ih _ _)
    · exact congrArg (· + 1) (ih _ _)

theorem length_dampColumns (ds : List Float) (columns : List DampedColumn) :
    (dampColumns ds columns).length = min ds.length columns.length := by
  induction ds generalizing columns with
  | nil => simp [dampColumns]
  | cons d ds ih =>
    have same : (if d == 0.0 then columns
        else rotateRow (d :: ds.map fun _ => 0.0) 0.0 columns).length = columns.length := by
      split_ifs
      · rfl
      · exact length_rotateRow _ _ _
    rw [dampColumns]
    split
    next none =>
      rw [none] at same
      simp [← same]
    next c rest rotated =>
      rw [rotated] at same
      rw [List.length_cons, ih, ← same, List.length_cons, List.length_cons, Nat.succ_min_succ]

theorem length_solveDamped (columns : List DampedColumn) :
    (solveDamped columns).length = columns.length := by
  induction columns with
  | nil => rfl
  | cons c columns ih => exact congrArg (· + 1) ih

theorem Factorization.length_dampedSolution (f : Factorization) (columns : List DampedColumn) :
    (f.dampedSolution columns).length = columns.length := by
  have short := (List.takeWhile_sublist (·.diagonal != 0.0) (l := columns)).length_le
  rw [dampedSolution, length_place, List.length_append, length_solveDamped, List.length_map,
    List.length_drop]
  omega

section

variable {f : Factorization} {n : Nat}

theorem Factorization.Triangular.length_damp (h : f.Triangular n) (scale : List Float) :
    (f.damp scale).length = n := by
  rw [Factorization.damp, length_dampColumns, pick, rows]
  simp [h.order, h.rhs, h.width]

theorem length_searchDamping (h : f.Triangular n) (scale : List Float) (radius : Float)
    (tries : Nat) (s : DampingSearch) :
    (searchDamping f scale radius tries s).step.length = n := by
  have each (scale : List Float) : (f.dampedSolution (f.damp scale)).length = n :=
    (f.length_dampedSolution _).trans (h.length_damp scale)
  induction tries generalizing s with
  | zero => exact each _
  | succ tries ih =>
    rw [searchDamping]
    dsimp only
    generalize (if s.damping == 0.0 then greater smallest (0.001 * s.high) else s.damping) = damping
    split
    · exact each _
    · exact ih _

theorem length_dampedStep (h : f.Triangular n) (scale : List Float) (radius damping : Float) :
    (dampedStep f scale radius damping).step.length = n := by
  rw [dampedStep]
  dsimp only
  split_ifs
  · exact h.length_solution
  all_goals exact length_searchDamping h _ _ _ _

end

theorem length_invertColumns (tolerance : Float) (inverse columns : List (List Float)) :
    (invertColumns tolerance inverse columns).length ≤ inverse.length + columns.length := by
  induction columns generalizing inverse with
  | nil => exact Nat.le_refl _
  | cons column columns ih =>
    rw [invertColumns, List.length_cons]
    split
    · omega
    · refine Nat.le_trans (ih _) (Nat.le_of_eq ?_)
      rw [extendInverse, List.length_append, List.length_singleton, Nat.add_right_comm,
        Nat.add_assoc]

theorem Factorization.Triangular.length_standardErrors {f : Factorization} {n : Nat}
    (h : f.Triangular n) : f.standardErrors.length = n := by
  have few := length_invertColumns (1e-14 * (f.diagonal.headD 0.0).abs) [] f.columns
  rw [List.length_nil, h.width] at few
  simp only [standardErrors, length_place, List.length_append, List.length_map, List.length_drop,
    h.order, rowSquares, List.length_range]
  omega

/-- A state of the search for a problem: a value for every parameter, and a residual for every
point. -/
structure SearchState.For (s : SearchState) (problem : Problem Float) : Prop where
  x : s.x.length = problem.start.length
  residuals : s.residuals.length = problem.count

section

variable {problem : Problem Float} {s : SearchState} {l : Linearization} {a : Attempt}

theorem length_differenceColumn (posed : problem.WellPosed) (place : s.For problem) {j : Nat}
    {x : Float} {limits : Interval Float} {column : List Float}
    (h : differenceColumn problem s j x limits = .ok column) : column.length = problem.count := by
  obtain ⟨moved, evaluated, h⟩ := exists_of_bind_eq_ok h
  cases h
  rw [List.length_zipWith, posed.residuals _ _ evaluated, place.residuals, Nat.min_self]

theorem length_clearPegged (s : SearchState) (x : Float) (limits : Interval Float)
    (column : List Float) : (clearPegged s x limits column).length = column.length := by
  rw [clearPegged]
  split
  · exact List.length_map _
  · rfl

theorem length_derivatives (posed : problem.WellPosed) (place : s.For problem)
    {columns : List (List Float)} (h : derivatives problem s = .ok columns) :
    columns.length = problem.start.length ∧ ∀ c ∈ columns, c.length = problem.count := by
  refine ⟨?_, forall_of_mapM_eq_ok h ?_⟩
  · rw [← (mapM_eq_ok_iff.mp h).length_eq, List.length_zipIdx, List.length_zip, place.x,
      posed.limits, Nat.min_self]
  · rintro ⟨⟨x, limits⟩, j⟩ c h
    obtain ⟨column, differenced, h⟩ := exists_of_bind_eq_ok h
    cases h
    exact (length_clearPegged _ _ _ _).trans (length_differenceColumn posed place differenced)

theorem linearize_triangular (posed : problem.WellPosed) (place : s.For problem)
    (enough : problem.start.length ≤ problem.count) (h : linearize problem s = .ok l) :
    l.factor.Triangular problem.start.length := by
  obtain ⟨columns, derived, h⟩ := exists_of_bind_eq_ok h
  obtain ⟨width, height⟩ := length_derivatives posed place (eq_ok_of_mapError_eq_ok derived)
  rw [← width]
  dsimp only at h
  split at h
  · cases h
    exact factor_triangular height (width ▸ enough) _
  · cases h

theorem attempt_eq_ok (posed : problem.WellPosed) (place : s.For problem) {f : Factorization}
    {d : DampedStep} (step : d.step.length = problem.start.length)
    (h : attempt problem s f d = .ok a) :
    a.x.length = problem.start.length ∧ a.residuals.length = problem.count := by
  obtain ⟨residuals, evaluated, h⟩ := exists_of_bind_eq_ok h
  cases h
  refine ⟨?_, posed.residuals _ _ evaluated⟩
  simp [place.x, posed.limits, step]

theorem adjustRadius_for (place : s.For problem) (a : Attempt) :
    (adjustRadius s a).For problem := by
  rw [adjustRadius]
  split_ifs <;> exact ⟨place.x, place.residuals⟩

theorem accept_for (place : s.For problem) (x : a.x.length = problem.start.length)
    (residuals : a.residuals.length = problem.count) : (accept s a).For problem := by
  rw [accept]
  split_ifs
  · exact ⟨x, residuals⟩
  · exact place

theorem rescale_for (place : s.For problem) (f : Factorization) : (rescale s f).For problem := by
  rw [rescale]
  split_ifs <;> exact ⟨place.x, place.residuals⟩

theorem search_for (posed : problem.WellPosed) (enough : problem.start.length ≤ problem.count)
    {tries : Nat} (place : s.For problem) (triangular : l.factor.Triangular problem.start.length)
    {found : Minimum Float} (h : search problem l s tries = .ok found) : found.For problem := by
  have stop {s : SearchState} (l : Linearization) (place : s.For problem)
      (triangular : l.factor.Triangular problem.start.length) : (l.minimum s).For problem :=
    ⟨place.x, triangular.length_standardErrors⟩
  induction tries generalizing s l with
  | zero =>
    cases h
    exact stop l place triangular
  | succ tries ih =>
    rw [search] at h
    obtain ⟨a, attempted, h⟩ := exists_of_bind_eq_ok h
    obtain ⟨x, residuals⟩ := attempt_eq_ok posed place (length_dampedStep triangular _ _ _)
      (eq_ok_of_mapError_eq_ok attempted)
    dsimp only at h
    generalize (if s.accepted = 1 then lesser s.radius a.length else s.radius) = radius at h
    generalize hnext : accept (adjustRadius _ a) a = next at h
    have moved : next.For problem := by
      rw [← hnext]
      exact accept_for (adjustRadius_for (s := { s with radius, damping := _ })
        ⟨place.x, place.residuals⟩ a) x residuals
    split at h
    · cases h
      exact stop l moved triangular
    split at h
    · exact ih moved triangular h
    obtain ⟨l', linearized, h⟩ := exists_of_bind_eq_ok h
    have triangular' := linearize_triangular posed moved enough linearized
    split at h
    · cases h
      exact stop l' moved triangular'
    · exact ih (rescale_for moved l'.factor) triangular' h

theorem enough_of_checkProblem (h : checkProblem problem = .ok ()) :
    problem.start.length ≤ problem.count := by
  rw [checkProblem] at h
  split at h
  · cases h
  · obtain ⟨-, -, h⟩ := exists_of_bind_eq_ok h
    by_contra few
    rw [if_pos (Nat.lt_of_not_le few)] at h
    cases h

/-- The method leaves a value and an error for every parameter of a problem with enough points,
wherever it stops. -/
theorem levenbergMarquardt_complete : Minimizer.Complete levenbergMarquardt := by
  have complete (problem : Problem Float) (found : Minimum Float) (posed : problem.WellPosed)
      (h : levenbergMarquardt problem = .ok found) :
      found.For problem ∧ problem.start.length ≤ problem.count := by
    obtain ⟨⟨⟩, checked, h⟩ := exists_of_bind_eq_ok h
    have enough := enough_of_checkProblem checked
    refine ⟨?_, enough⟩
    obtain ⟨residuals, evaluated, h⟩ := exists_of_bind_eq_ok h
    have counted := posed.residuals _ _ (eq_ok_of_mapError_eq_ok evaluated)
    obtain ⟨l, linearized, h⟩ := exists_of_bind_eq_ok h
    have triangular := linearize_triangular posed ⟨rfl, counted⟩ enough linearized
    split at h
    · cases h
      exact ⟨rfl, triangular.length_standardErrors⟩
    · exact search_for posed enough (rescale_for ⟨rfl, counted⟩ l.factor) triangular h
  exact ⟨fun problem found posed h => (complete problem found posed h).1,
    fun problem found posed h => (complete problem found posed h).2⟩

end

end LeastSquares

end FormulaFit

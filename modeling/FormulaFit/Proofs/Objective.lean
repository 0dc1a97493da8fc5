import FormulaFit.Proofs.Checking

namespace FormulaFit

section

variable {β : Type} {xs ys : List β} {entries : List (Nat × β)}

theorem getElem?_foldl_set_of_not_mem {i : Nat} (other : i ∉ entries.map Prod.fst) :
    (entries.foldl (fun xs (i, v) => xs.set i v) xs)[i]? = xs[i]? := by
  induction entries generalizing xs with
  | nil => rfl
  | cons entry entries ih =>
    rw [List.map_cons, List.mem_cons, not_or] at other
    rw [List.foldl_cons, ih other.2, List.getElem?_set_ne (Ne.symm other.1)]

theorem getElem?_foldl_set_of_mem {i : Nat} {v : β} (distinct : (entries.map Prod.fst).Nodup)
    (member : (i, v) ∈ entries) (inside : i < xs.length) :
    (entries.foldl (fun xs (i, v) => xs.set i v) xs)[i]? = some v := by
  induction entries generalizing xs with
  | nil => cases member
  | cons entry entries ih =>
    rw [List.map_cons, List.nodup_cons] at distinct
    rw [List.foldl_cons]
    rcases List.mem_cons.mp member with rfl | member
    · rw [getElem?_foldl_set_of_not_mem distinct.1, List.getElem?_set_self inside]
    · exact ih distinct.2 member (by rwa [List.length_set])

/-- What stood in the entries before they are overwritten does not matter. -/
theorem foldl_set_congr (lengths : xs.length = ys.length)
    (same : ∀ i, i ∉ entries.map Prod.fst → xs[i]? = ys[i]?) :
    entries.foldl (fun xs (i, v) => xs.set i v) xs =
      entries.foldl (fun xs (i, v) => xs.set i v) ys := by
  induction entries generalizing xs ys with
  | nil => exact List.ext_getElem? fun i => same i (by simp)
  | cons entry entries ih =>
    obtain ⟨i, v⟩ := entry
    refine ih (by rw [List.length_set, List.length_set, lengths]) ?_
    intro j other
    by_cases here : i = j
    · subst here
      rw [List.getElem?_set_self', List.getElem?_set_self']
      by_cases inside : i < xs.length
      · have inside' : i < ys.length := lengths ▸ inside
        simp [inside, inside']
      · have outside : ¬i < ys.length := lengths ▸ inside
        simp [Nat.le_of_not_lt inside, Nat.le_of_not_lt outside]
    · have untouched : j ∉ ((i, v) :: entries).map Prod.fst := by
        rw [List.map_cons, List.mem_cons, not_or]
        exact ⟨Ne.symm here, other⟩
      rw [List.getElem?_set_ne here, List.getElem?_set_ne here, same j untouched]

theorem foldl_set_eq_self (present : ∀ entry ∈ entries, xs[entry.1]? = some entry.2) :
    entries.foldl (fun xs (i, v) => xs.set i v) xs = xs := by
  induction entries with
  | nil => rfl
  | cons entry entries ih =>
    obtain ⟨i, v⟩ := entry
    obtain ⟨here, there⟩ := List.forall_mem_cons.mp present
    dsimp only at here
    have unchanged : xs.set i v = xs := by
      obtain ⟨inside, value⟩ := List.getElem?_eq_some_iff.mp here
      subst v
      exact List.set_getElem_self inside
    simp only [List.foldl_cons, unchanged, ih there]

end

/-- How far a point is from a value, in units of its error; the distance is large if the value is
not finite. -/
def Point.residual {α : Type} [Scalar α] (p : Point α) (v : α) : α :=
  if Scalar.isFinite v then (p.y - v) / p.error else 1e13

namespace Objective

variable {α : Type} {o : Objective α} {params trial : List α}

theorem map_fst_zip_free (count : trial.length = o.free.length) :
    (o.free.zip trial).map Prod.fst = o.free :=
  List.map_fst_zip (Nat.le_of_eq count.symm)

/-- Only free entries are overwritten. -/
theorem getElem?_write_of_not_mem {i : Nat} (held : i ∉ o.free) (params trial : List α) :
    (o.write params trial)[i]? = params[i]? := by
  refine getElem?_foldl_set_of_not_mem fun written => held ?_
  obtain ⟨⟨j, v⟩, member, rfl⟩ := List.mem_map.mp written
  exact (List.of_mem_zip member).1

theorem getElem?_write_of_free (distinct : o.free.Nodup) (count : trial.length = o.free.length)
    {k i : Nat} (free : o.free[k]? = some i) (inside : i < params.length) :
    (o.write params trial)[i]? = trial[k]? := by
  obtain ⟨early, place⟩ := List.getElem?_eq_some_iff.mp free
  have there : k < trial.length := count ▸ early
  have member : (i, trial[k]) ∈ o.free.zip trial := by
    refine List.mem_iff_getElem?.mpr ⟨k, ?_⟩
    rw [List.getElem?_zip_eq_some]
    exact ⟨free, List.getElem?_eq_getElem there⟩
  rw [← map_fst_zip_free count] at distinct
  rw [write, getElem?_foldl_set_of_mem distinct member inside, List.getElem?_eq_getElem there]

theorem write_congr {params' : List α} (count : trial.length = o.free.length)
    (lengths : params.length = params'.length)
    (same : ∀ i, i ∉ o.free → params[i]? = params'[i]?) :
    o.write params trial = o.write params' trial :=
  foldl_set_congr lengths (by rwa [map_fst_zip_free count])

variable [Scalar α]

theorem scratch_concat (o : Objective α) (trials : List (List α)) (trial : List α) :
    o.scratch (trials ++ [trial]) = o.write (o.scratch trials) trial := by
  simp only [scratch, List.foldl_append, List.foldl_cons, List.foldl_nil, call]

/-- Calls leave the entries of fixed parameters alone. -/
theorem getElem?_scratch_of_not_mem {i : Nat} (held : i ∉ o.free) (trials : List (List α)) :
    (o.scratch trials)[i]? = o.base[i]? := by
  induction trials using List.reverseRecOn with
  | nil => rfl
  | append_singleton trials trial ih =>
    rw [scratch_concat, getElem?_write_of_not_mem held, ih]

/-- A call overwrites all that earlier calls have changed. -/
theorem write_scratch (trials : List (List α)) (count : trial.length = o.free.length) :
    o.write (o.scratch trials) trial = o.expand trial :=
  write_congr count (o.length_scratch trials) fun _ held => getElem?_scratch_of_not_mem held trials

theorem call_scratch (trials : List (List α)) (count : trial.length = o.free.length) :
    o.call (o.scratch trials) trial = (o.deviations (o.expand trial), o.expand trial) := by
  rw [call, write_scratch trials count]

theorem deviations_eq_ok_iff {residuals : List α} :
    o.deviations params = .ok residuals ↔ List.Forall₂ (fun p r =>
      ∃ v, o.program.evaluate params p.x = .ok v ∧ r = p.residual v) o.points residuals := by
  rw [deviations, mapM_eq_ok_iff]
  have each p r : o.deviation params p = .ok r ↔
      ∃ v, o.program.evaluate params p.x = .ok v ∧ r = p.residual v := by
    rw [deviation]
    cases o.program.evaluate params p.x with
    | error e => simp
    | ok v => simp [Point.residual, @eq_comm _ r]
  simp only [each]

theorem deviations_eq_error_iff {e : EvalError} :
    o.deviations params = .error e ↔ ∃ before p after, o.points = before ++ p :: after ∧
      (∀ q ∈ before, ∃ v, o.program.evaluate params q.x = .ok v) ∧
      o.program.evaluate params p.x = .error e := by
  rw [deviations_eq]
  have failed : ((o.values params).map (List.zipWith (fun p v =>
      if Scalar.isFinite v then (p.y - v) / p.error else 1e13) o.points) = .error e) ↔
        o.values params = .error e := by
    cases o.values params <;> simp [Except.map]
  rw [failed, values, mapM_eq_error_iff]

/-- The sum of squares that is reported is the one that the deviations have, in the same order. -/
theorem chi2_of_deviations {residuals : List α} (h : o.deviations params = .ok residuals)
    (finite : ∀ p ∈ o.points, ∀ v, o.program.evaluate params p.x = .ok v → Scalar.isFinite v) :
    o.chi2 params = .ok (residuals.foldl (fun sum r => sum + r * r) 0) := by
  rw [chi2]
  rw [deviations_eq_ok_iff] at h
  generalize (0 : α) = sum
  generalize o.points = points at h finite
  induction h generalizing sum with
  | nil => rfl
  | @cons p r points residuals here rest ih =>
    obtain ⟨v, valued, rfl⟩ := here
    obtain ⟨first, later⟩ := List.forall_mem_cons.mp finite
    have weighted : p.residual v = (p.y - v) / p.error := if_pos (first v valued)
    rw [List.foldlM_cons, valued, List.foldl_cons, weighted]
    exact ih _ later

/-- Every call is as good as the first one. It gives the deviations at the given trial alone, and
leaves behind the vector of that trial, where fixed parameters have not moved. -/
structure Memoryless (o : Objective α) : Prop where
  call : ∀ trials trial, trial.length = o.free.length →
    o.call (o.scratch trials) trial = (o.deviations (o.expand trial), o.expand trial)
  scratch : ∀ trials trial, trial.length = o.free.length →
    o.scratch (trials ++ [trial]) = o.expand trial
  held : ∀ trials i, i ∉ o.free → (o.scratch trials)[i]? = o.base[i]?
  moved : ∀ trial : List α, trial.length = o.free.length → o.free.Nodup →
    ∀ (k i : Nat), o.free[k]? = some i → (o.expand trial)[i]? = trial[k]?
  residuals : ∀ trials trial residuals, trial.length = o.free.length →
    ((o.call (o.scratch trials) trial).1 = .ok residuals ↔ List.Forall₂ (fun p r =>
      ∃ v, o.program.evaluate (o.expand trial) p.x = .ok v ∧
        r = p.residual v) o.points residuals)
  error : ∀ trials trial e, trial.length = o.free.length →
    ((o.call (o.scratch trials) trial).1 = .error e ↔
      ∃ before p after, o.points = before ++ p :: after ∧
        (∀ q ∈ before, ∃ v, o.program.evaluate (o.expand trial) q.x = .ok v) ∧
        o.program.evaluate (o.expand trial) p.x = .error e)
  chi2 : ∀ trials trial residuals, trial.length = o.free.length →
    (o.call (o.scratch trials) trial).1 = .ok residuals →
    (∀ p ∈ o.points, ∀ v, o.program.evaluate (o.expand trial) p.x = .ok v → Scalar.isFinite v) →
    o.chi2 (o.expand trial) = .ok (residuals.foldl (fun sum r => sum + r * r) 0)

theorem memoryless (o : Objective α) : o.Memoryless where
  call trials _ := call_scratch trials
  scratch trials trial count := by rw [scratch_concat, write_scratch trials count]
  held trials _ held := getElem?_scratch_of_not_mem held trials
  moved _ count distinct _ i free :=
    getElem?_write_of_free distinct count free (o.inside i (List.mem_of_getElem? free))
  residuals trials trial residuals count := by
    rw [call_scratch trials count]
    exact deviations_eq_ok_iff
  error trials trial e count := by
    rw [call_scratch trials count]
    exact deviations_eq_error_iff
  chi2 trials trial residuals count h finite := by
    rw [call_scratch trials count] at h
    exact chi2_of_deviations h finite

/-- The free entries of a vector. -/
def read (o : Objective α) (params : List α) : List α :=
  o.free.map fun i => params.getD i 0

theorem length_read (o : Objective α) (params : List α) :
    (o.read params).length = o.free.length :=
  List.length_map _

/-- A vector is made of its free entries. -/
theorem expand_read (lengths : params.length = o.base.length)
    (held : ∀ i, i ∉ o.free → params[i]? = o.base[i]?) : o.expand (o.read params) = params := by
  have rewritten : o.write params (o.read params) = params := by
    refine foldl_set_eq_self ?_
    rintro ⟨i, v⟩ member
    have pairs : o.free.zip (o.read params) = o.free.map fun i => (i, params.getD i 0) := by
      have both := List.zip_map' (f := id) (g := fun i => params.getD i 0) (l := o.free)
      rwa [List.map_id] at both
    rw [pairs] at member
    obtain ⟨j, free, equal⟩ := List.mem_map.mp member
    obtain ⟨rfl, rfl⟩ := Prod.mk.inj equal
    have there : j < params.length := lengths ▸ o.inside j free
    simp [there]
  rw [expand, ← write_congr (o.length_read params) lengths held, rewritten]

end Objective

section

variable {α : Type} [Scalar α] {params : List (ParamSpec α)}

theorem mem_freeIndices_iff {i : Nat} :
    i ∈ freeIndices params ↔ ∃ p, params[i]? = some p ∧ p.isFree := by
  simp [freeIndices, List.mem_zipIdx_iff_getElem?]

theorem nodup_freeIndices (params : List (ParamSpec α)) : (freeIndices params).Nodup := by
  have places : (params.zipIdx.map Prod.snd).Nodup := by
    rw [List.zipIdx_map_snd]
    exact List.nodup_range'
  exact places.sublist (List.filter_sublist.map Prod.snd)

/-- A fit reports the values that it moved the free parameters to, and the objective at these
values. -/
structure Fit.Reports (params : List (ParamSpec α)) (o : Objective α) (fit : Fit α) : Prop where
  free : ∀ i, i ∈ o.free ↔ ∃ p, params[i]? = some p ∧ p.isFree
  distinct : o.free.Nodup
  inside : ∀ i ∈ o.free, i < o.base.length
  held : ∀ (i : Nat) p, params[i]? = some p → ¬p.isFree → fit.values[i]? = some p.initial
  values : fit.values = o.expand (o.read fit.values)
  chi2 : o.chi2 fit.values = .ok fit.chi2
  seen : ∀ trials, ∃ residuals,
    (o.call (o.scratch trials) (o.read fit.values)).1 = .ok residuals ∧
      ((∀ p ∈ o.points, ∀ v, o.program.evaluate fit.values p.x = .ok v → Scalar.isFinite v) →
        fit.chi2 = residuals.foldl (fun sum r => sum + r * r) 0)

theorem fitPoints_reports {minimize : Minimizer α} {program : Program α} {points : List (Point α)}
    {options : FitOptions α} {fit : Fit α}
    (h : fitPoints minimize program params points options = .ok fit) :
    fit.Reports params (fitObjective program params points options) := by
  obtain ⟨-, -, -, o, found, chi2, ho, summed, rfl⟩ := fitPoints_eq_ok h
  obtain rfl : o = fitObjective program params points options := ho
  generalize hvalues : (fitObjective program params points options).expand found.values = values
    at summed
  set o := fitObjective program params points options with ho
  have lengths : values.length = o.base.length := by rw [← hvalues, o.length_expand]
  have held i (fixed : i ∉ o.free) : values[i]? = o.base[i]? := by
    rw [← hvalues, Objective.expand, Objective.getElem?_write_of_not_mem fixed]
  have returned : o.expand (o.read values) = values := Objective.expand_read lengths held
  refine ⟨fun i => mem_freeIndices_iff, nodup_freeIndices params, o.inside, ?_, returned.symm,
    summed, ?_⟩
  · intro i p hp fixed
    have stays : i ∉ o.free := by
      intro free
      obtain ⟨q, hq, moves⟩ := mem_freeIndices_iff.mp free
      cases hp.symm.trans hq
      exact fixed moves
    rw [held i stays]
    exact getElem?_fitObjective_base program points options hp
  · intro trials
    rw [Objective.call_scratch trials (o.length_read values), returned]
    obtain ⟨residuals, deviated⟩ : ∃ residuals, o.deviations values = .ok residuals := by
      rw [o.deviations_eq]
      rw [o.chi2_eq] at summed
      cases hvs : o.values values with
      | error e => simp [hvs, Except.map] at summed
      | ok vs => exact ⟨_, rfl⟩
    refine ⟨residuals, deviated, fun finite => ?_⟩
    rw [Objective.chi2_of_deviations deviated finite] at summed
    exact (Except.ok.inj summed).symm

/-- The objective has no memory and never moves a fixed parameter, whatever was tried before. So a
fit reports the sum of squares that the objective had at the values that it returns. -/
theorem objective_memoryless :
    (∀ o : Objective α, o.Memoryless) ∧
      ∀ minimize program (params : List (ParamSpec α)) points options fit,
        fitPoints minimize program params points options = .ok fit →
          fit.Reports params (fitObjective program params points options) :=
  ⟨Objective.memoryless, fun _ _ _ _ _ _ => fitPoints_reports⟩

end

/-- A line with a fixed intercept, a point that it is fitted to, and a minimizer that guesses the
slope. -/
def lineProgram : Program Float :=
  ⟨"t", [.term ⟨"t", .polynomial 1, 0⟩ 0], .full, [], 2, 1⟩

def lineParams : List (ParamSpec Float) :=
  [.held "c0" 1.0, ⟨"c1", 2.0, 0.0, 9.0⟩]

def lineObjective : Objective Float :=
  fitObjective lineProgram lineParams [⟨2.0, 7.0, 1.0⟩] ⟨none, false, false, false⟩

def guessSlope : Minimizer Float :=
  fun _ => .ok ⟨[3.0], [0.5]⟩

/-- After two other trials the slope is the third one's and the intercept where it was, and a fit
that guesses the slope keeps the intercept too. -/
theorem objective_memoryless_line :
    lineObjective.free = [1] ∧
      lineObjective.call (lineObjective.scratch [[5.0], [6.0]]) [3.0] =
        (lineObjective.deviations [1.0, 3.0], [1.0, 3.0]) ∧
      ∃ fit, fitPoints guessSlope lineProgram lineParams [⟨2.0, 7.0, 1.0⟩]
          ⟨none, false, false, false⟩ = .ok fit ∧
        fit.values[0]? = some 1.0 ∧ lineObjective.chi2 fit.values = .ok fit.chi2 := by
  obtain ⟨memory, reports⟩ := objective_memoryless (α := Float)
  have free : lineObjective.free = [1] := by decide +kernel
  have count : [(3.0 : Float)].length = lineObjective.free.length := by rw [free]; rfl
  have expanded : lineObjective.expand [3.0] = [1.0, 3.0] := by
    rw [Objective.expand, Objective.write, free]
    rfl
  refine ⟨free, ?_, ?_⟩
  · rw [(memory lineObjective).call _ _ count, expanded]
  · have succeeds : (fitPoints guessSlope lineProgram lineParams [⟨2.0, 7.0, 1.0⟩]
        ⟨none, false, false, false⟩).toOption.isSome := by
      decide +kernel
    cases fitted : fitPoints guessSlope lineProgram lineParams [⟨2.0, 7.0, 1.0⟩]
        ⟨none, false, false, false⟩ with
    | error e =>
      rw [fitted] at succeeds
      cases succeeds
    | ok fit =>
      have reported := reports _ _ _ _ _ _ fitted
      exact ⟨fit, rfl, reported.held 0 _ rfl (by decide +kernel), reported.chi2⟩

end FormulaFit

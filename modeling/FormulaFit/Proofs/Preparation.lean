import FormulaFit.Proofs.Bookkeeping
import FormulaFit.Proofs.Doubles

namespace FormulaFit

section

variable {β γ : Type} {R : β → β → Prop} {xs ys : List β} {q : β → Bool} {f : β → γ}

theorem map_filter_congr (h : List.Forall₂ R xs ys) (kept : ∀ x y, R x y → q x = q y)
    (same : ∀ x y, R x y → q x → f x = f y) : (xs.filter q).map f = (ys.filter q).map f := by
  induction h with
  | nil => rfl
  | @cons x y xs ys here _ ih =>
    have alike := kept x y here
    cases hx : q x with
    | true =>
      rw [List.filter_cons_of_pos hx, List.filter_cons_of_pos (alike ▸ hx), List.map_cons,
        List.map_cons, same x y here hx, ih]
    | false =>
      have hy : q y = false := alike ▸ hx
      rw [List.filter_cons_of_neg (Bool.eq_false_iff.mp hx),
        List.filter_cons_of_neg (Bool.eq_false_iff.mp hy), ih]

theorem map_congr_forall₂ (h : List.Forall₂ R xs ys) (same : ∀ x y, R x y → f x = f y) :
    xs.map f = ys.map f := by
  rw [← List.forall₂_eq_eq_eq, List.forall₂_map_left_iff, List.forall₂_map_right_iff]
  exact h.imp same

theorem forall₂_zipIdx (h : List.Forall₂ R xs ys) (n : Nat) :
    List.Forall₂ (fun x y => R x.1 y.1 ∧ x.2 = y.2) (xs.zipIdx n) (ys.zipIdx n) := by
  induction h generalizing n with
  | nil => exact .nil
  | cons here _ ih => exact .cons ⟨here, rfl⟩ (ih (n + 1))

end

variable {α : Type} [Scalar α]

/-- The points between the ends of a range, or all of them if there is none. -/
def pointsWithin (range : Option (Interval α)) (points : List (Point α)) : List (Point α) :=
  match range with
  | none => points
  | some r => points.filter fun p => r.lower ≤ p.x ∧ p.x ≤ r.upper

/-- The points with the error one in place of those that cannot weight them, or of all errors. -/
def reweight (unit : Bool) (points : List (Point α)) : List (Point α) :=
  points.map fun p => if unit ∨ ¬0 < p.error then { p with error := 1.0 } else p

/-- Two parameters that a fit cannot tell apart: bounds matter only where there is room between
them. -/
structure ParamSpec.Alike (p q : ParamSpec α) : Prop where
  name : p.name = q.name
  initial : p.initial = q.initial
  room : p.lower < p.upper ↔ q.lower < q.upper
  bounds : p.lower < p.upper → p.lower = q.lower ∧ p.upper = q.upper

section

variable {params others : List (ParamSpec α)} {p q : ParamSpec α}

theorem ParamSpec.Alike.refl (p : ParamSpec α) : p.Alike p :=
  ⟨rfl, rfl, Iff.rfl, fun _ => ⟨rfl, rfl⟩⟩

theorem ParamSpec.Alike.isFree (h : p.Alike q) : p.isFree = q.isFree := by
  rw [Bool.eq_iff_iff, isFree_iff, isFree_iff]
  exact h.room

theorem freeIndices_congr (h : List.Forall₂ ParamSpec.Alike params others) :
    freeIndices params = freeIndices others :=
  map_filter_congr (forall₂_zipIdx h 0) (fun _ _ here => here.1.isFree) fun _ _ here _ => here.2

/-- A fit depends on the bounds of its parameters only where it uses them. -/
theorem fitPoints_congr (h : List.Forall₂ ParamSpec.Alike params others) (minimize : Minimizer α)
    (program : Program α) (points : List (Point α)) (options : FitOptions α) :
    fitPoints minimize program params points options =
      fitPoints minimize program others points options := by
  have initials := map_congr_forall₂ h fun _ _ here => here.initial
  have names := map_congr_forall₂ h fun _ _ here => here.name
  have fixed : (params.map fun p => !p.isFree) = others.map fun p => !p.isFree :=
    map_congr_forall₂ h fun _ _ here => congrArg (!·) here.isFree
  have objectives : fitObjective program params points options =
      fitObjective program others points options := by
    simp only [fitObjective, initials, freeIndices_congr h]
  have zeros : (params.map fun _ => (0 : α)) = others.map fun _ => 0 :=
    map_congr_forall₂ h fun _ _ _ => rfl
  have starts : (params.filter ParamSpec.isFree).map ParamSpec.initial =
      (others.filter ParamSpec.isFree).map ParamSpec.initial :=
    map_filter_congr h (fun _ _ here => here.isFree) fun _ _ here _ => here.initial
  have limits : ((params.filter ParamSpec.isFree).map fun p => (⟨p.lower, p.upper⟩ : Interval α)) =
      (others.filter ParamSpec.isFree).map fun p => ⟨p.lower, p.upper⟩ := by
    refine map_filter_congr h (fun _ _ here => here.isFree) fun _ _ here free => ?_
    obtain ⟨lower, upper⟩ := here.bounds (isFree_iff.mp free)
    rw [lower, upper]
  unfold fitPoints
  simp only [h.length_eq, objectives, names, fixed, zeros, starts, limits]

end

section

variable (points : List (Point α)) (options : FitOptions α)

theorem preparePoints_eq :
    preparePoints options points =
      reweight options.unitWeights (pointsWithin options.range points) := by
  have used : (points.filter fun p => options.uses p.x) = pointsWithin options.range points := by
    cases range : options.range with
    | none => simp [pointsWithin, FitOptions.uses, range]
    | some r =>
      simp [pointsWithin, FitOptions.uses, range, Interval.contains, Scalar.within]
  rw [preparePoints, used, reweight]
  simp

/-- An error of one is left alone, whether or not it can weight a point. -/
theorem reweight_reweight (unit : Bool) (points : List (Point α)) :
    reweight false (reweight unit points) = reweight unit points := by
  rw [reweight, reweight, List.map_map]
  refine List.map_congr_left fun p _ => ?_
  by_cases replaced : unit = true ∨ ¬0 < p.error
  · rw [Function.comp_apply, if_pos replaced]
    exact ite_self _
  · obtain ⟨-, positive⟩ := not_or.mp replaced
    rw [Function.comp_apply, if_neg replaced, if_neg]
    simpa using not_not.mp positive

/-- The points that a fit uses can be prepared beforehand. -/
theorem fitPoints_prepared (minimize : Minimizer α) (program : Program α)
    (params : List (ParamSpec α)) :
    fitPoints minimize program params points options =
      fitPoints minimize program params
        (reweight options.unitWeights (pointsWithin options.range points))
        { options with range := none, unitWeights := false } := by
  have same : preparePoints { options with range := none, unitWeights := false }
        (reweight options.unitWeights (pointsWithin options.range points)) =
      preparePoints options points := by
    rw [preparePoints_eq, preparePoints_eq]
    exact reweight_reweight _ _
  unfold fitPoints fitObjective
  simp only [same]

end

/-- Bounds with no room between them: equal or exchanged, or one of them is not a number. -/
def NoRoom (lower upper : Float) : Prop :=
  lower == upper ∨ upper < lower ∨ lower.isNaN ∨ upper.isNaN

theorem noRoom_iff {lower upper : Float} : NoRoom lower upper ↔ ¬lower < upper := by
  constructor
  · rintro (equal | exchanged | nan | nan) room
    · exact (lt_iff_of_le (le_of_lt room)).mp room equal
    · exact not_le_of_lt exchanged (le_of_lt room)
    · exact (not_isNaN_of_le (le_of_lt room)).1 nan
    · exact (not_isNaN_of_le (le_of_lt room)).2 nan
  · intro none
    by_cases left : lower.isNaN
    · exact Or.inr (Or.inr (Or.inl left))
    by_cases right : upper.isNaN
    · exact Or.inr (Or.inr (Or.inr right))
    by_cases below : lower ≤ upper
    · refine Or.inl ?_
      simpa [lt_iff_of_le below] using none
    · exact Or.inr (Or.inl (lt_of_not_le left right below))

theorem ParamSpec.alike_of_noRoom {p : ParamSpec Float} (h : NoRoom p.lower p.upper)
    {lower upper : Float} (none : NoRoom lower upper) : p.Alike { p with lower, upper } := by
  have held := noRoom_iff.mp h
  exact ⟨rfl, rfl, iff_of_false held (noRoom_iff.mp none), fun room => absurd room held⟩

/-- The range and the unit weights of a fit say no more than the points could. Of the bounds of a
parameter only those with room between them matter: one that is held, pinned or without numbers for
bounds is the same to a fit. -/
theorem fitPoints_invariant (minimize : Minimizer Float) (program : Program Float)
    (params : List (ParamSpec Float)) (points : List (Point Float)) (options : FitOptions Float) :
    fitPoints minimize program params points options =
      fitPoints minimize program params
        (reweight options.unitWeights (pointsWithin options.range points))
        { options with range := none, unitWeights := false } ∧
    (∀ others, List.Forall₂ ParamSpec.Alike params others →
      fitPoints minimize program params points options =
        fitPoints minimize program others points options) ∧
    ∀ before p after, params = before ++ p :: after → NoRoom p.lower p.upper →
      ∀ lower upper, NoRoom lower upper →
        fitPoints minimize program params points options =
          fitPoints minimize program (before ++ { p with lower, upper } :: after) points
            options := by
  refine ⟨fitPoints_prepared points options minimize program params,
    fun others alike => fitPoints_congr alike minimize program points options, ?_⟩
  rintro before p after rfl held lower upper none
  refine fitPoints_congr (List.rel_append ?_ (.cons (ParamSpec.alike_of_noRoom held none) ?_))
    minimize program points options
  · exact List.forall₂_same.mpr fun p _ => .refl p
  · exact List.forall₂_same.mpr fun p _ => .refl p

/-- A line through points of which two are in range and one has no error, its intercept held: the
intercept may as well be pinned by equal bounds, or have a bound that is not a number. -/
theorem fitPoints_invariant_intercept :
    fitPoints LeastSquares.levenbergMarquardt lineProgram
        [.held "c0" 1.0, ⟨"c1", 3.0, 0.0, 9.0⟩]
        [⟨2.0, 7.0, 1.0⟩, ⟨1.0, 4.0, 0.0⟩, ⟨9.0, 4.0, 0.0⟩] ⟨some ⟨0.0, 3.0⟩, false, false, true⟩ =
      fitPoints LeastSquares.levenbergMarquardt lineProgram
        [.held "c0" 1.0, ⟨"c1", 3.0, 0.0, 9.0⟩]
        [⟨2.0, 7.0, 1.0⟩, ⟨1.0, 4.0, 1.0⟩] ⟨none, false, false, true⟩ ∧
    fitPoints LeastSquares.levenbergMarquardt lineProgram
        [.held "c0" 1.0, ⟨"c1", 3.0, 0.0, 9.0⟩]
        [⟨2.0, 7.0, 1.0⟩, ⟨1.0, 4.0, 1.0⟩] ⟨none, false, false, true⟩ =
      fitPoints LeastSquares.levenbergMarquardt lineProgram
        [⟨"c0", 1.0, 2.0, 2.0⟩, ⟨"c1", 3.0, 0.0, 9.0⟩]
        [⟨2.0, 7.0, 1.0⟩, ⟨1.0, 4.0, 1.0⟩] ⟨none, false, false, true⟩ ∧
    fitPoints LeastSquares.levenbergMarquardt lineProgram
        [.held "c0" 1.0, ⟨"c1", 3.0, 0.0, 9.0⟩]
        [⟨2.0, 7.0, 1.0⟩, ⟨1.0, 4.0, 1.0⟩] ⟨none, false, false, true⟩ =
      fitPoints LeastSquares.levenbergMarquardt lineProgram
        [⟨"c0", 1.0, Scalar.nan, 2.0⟩, ⟨"c1", 3.0, 0.0, 9.0⟩]
        [⟨2.0, 7.0, 1.0⟩, ⟨1.0, 4.0, 1.0⟩] ⟨none, false, false, true⟩ := by
  refine ⟨?_, ?_, ?_⟩
  · refine (fitPoints_invariant _ _ _ _ _).1.trans ?_
    rfl
  · exact (fitPoints_invariant _ _ _ _ _).2.2 [] _ _ rfl (Or.inr (Or.inl (by decide +kernel)))
      2.0 2.0 (Or.inl (by decide +kernel))
  · exact (fitPoints_invariant _ _ _ _ _).2.2 [] _ _ rfl (Or.inr (Or.inl (by decide +kernel)))
      Scalar.nan 2.0 (Or.inr (Or.inr (Or.inl (by decide +kernel))))

end FormulaFit

import FormulaFit.Proofs.Registrations
import FormulaFit.Proofs.StartingValues

namespace FormulaFit

/-- A parameter as it is supplied, with the name of its term. -/
structure Supplied (α : Type) where
  term : String
  param : ParamSpec α

section

variable {α : Type} [Scalar α]

/-- The starting value is neither exempt, since the bounds exclude each other, nor between the
bounds. -/
def ParamSpec.IsReplaced (q : ParamSpec α) : Prop :=
  ¬q.upper < q.lower ∧ ¬q.StartsInside

instance (q : ParamSpec α) : Decidable q.IsReplaced :=
  inferInstanceAs (Decidable (¬_ ∧ ¬(_ ∧ _)))

theorem ParamSpec.isOutside_iff_isReplaced {q : ParamSpec α} : q.isOutside ↔ q.IsReplaced := by
  rw [isOutside, IsReplaced, ← within_iff, isFixed]
  simp

theorem ParamSpec.stored_eq (q : ParamSpec α) :
    q.stored = if q.IsReplaced then { q with initial := q.midpoint } else q := by
  simp only [stored, isOutside_iff_isReplaced]

theorem ParamSpec.warning?_eq (q : ParamSpec α) (term : String) :
    q.warning? term = if q.IsReplaced then
      some ⟨term, q.name, q.initial, q.lower, q.upper, q.midpoint⟩ else none := by
  simp only [warning?, isOutside_iff_isReplaced]

/-- What is stored of a parameter that is supplied: all of it, but for a starting value that is
replaced by the middle of the bounds. -/
structure Supplied.Becomes (s : Supplied α) (p : ParamSpec α) : Prop where
  name : p.name = s.param.name
  lower : p.lower = s.param.lower
  upper : p.upper = s.param.upper
  kept : ¬s.param.IsReplaced → p.initial = s.param.initial
  replaced : s.param.IsReplaced → p.initial = 0.5 * (s.param.lower + s.param.upper)
  fixed : s.param.upper < s.param.lower → p = s.param

theorem Supplied.becomes_stored (s : Supplied α) : s.Becomes s.param.stored := by
  obtain ⟨name, lower, upper⟩ := s.param.stored_bounds
  refine ⟨name, lower, upper, fun kept => ?_, fun replaced => ?_, fun fixed => ?_⟩
  · rw [ParamSpec.stored_eq, if_neg kept]
  · rw [ParamSpec.stored_eq, if_pos replaced]
    rfl
  · rw [ParamSpec.stored_eq, if_neg fun replaced => replaced.1 fixed]

/-- The warning about a parameter that is supplied as `s` and stored as `p`, if there is one. -/
def Supplied.warningAbout? (s : Supplied α) (p : ParamSpec α) : Option (RangeWarning α) :=
  if s.param.IsReplaced then
    some ⟨s.term, s.param.name, s.param.initial, s.param.lower, s.param.upper, p.initial⟩
  else none

theorem Supplied.warningAbout?_stored (s : Supplied α) :
    s.warningAbout? s.param.stored = s.param.warning? s.term := by
  rw [warningAbout?, ParamSpec.warning?_eq, ParamSpec.stored_eq]
  by_cases replaced : s.param.IsReplaced
  · simp only [if_pos replaced]
  · simp only [if_neg replaced]

def Entry.supplied (e : Entry α) : List (Supplied α) :=
  e.params.map (⟨e.name, ·⟩)

namespace Registry

/-- The registrations among the calls that succeed, in their order. -/
def accepted (r : Registry α) : List (Call α) → List (Entry α)
  | [] => []
  | .register name basis params :: calls =>
    match r.register name basis params with
    | .ok next => ⟨name, basis, params⟩ :: next.accepted calls
    | .error _ => r.accepted calls
  | .freeze :: calls => r.freeze.accepted calls

theorem run_cons (r : Registry α) (call : Call α) (calls : List (Call α)) :
    r.run (call :: calls) = (r.after call).run calls :=
  rfl

theorem run_concat (r : Registry α) (calls : List (Call α)) (call : Call α) :
    r.run (calls ++ [call]) = (r.run calls).after call :=
  List.foldl_append

theorem accepted_append (r : Registry α) (calls more : List (Call α)) :
    r.accepted (calls ++ more) = r.accepted calls ++ (r.run calls).accepted more := by
  induction calls generalizing r with
  | nil => rfl
  | cons call calls ih =>
    cases call with
    | freeze => exact ih r.freeze
    | register name basis params =>
      rw [run_cons, List.cons_append, accepted, accepted]
      cases outcome : r.register name basis params with
      | ok next =>
        rw [after_of_ok outcome]
        exact congrArg _ (ih next)
      | error e =>
        rw [after_of_error outcome]
        exact ih r

variable {r : Registry α} {entries : List (Entry α)}

/-- A run adds what the accepted registrations supply, in their order. -/
theorem Lists.run (h : r.Lists entries) (calls : List (Call α)) :
    (r.run calls).Lists (entries ++ r.accepted calls) := by
  induction calls generalizing r entries with
  | nil => rwa [accepted, List.append_nil]
  | cons call calls ih =>
    cases call with
    | freeze =>
      have frozen : r.freeze.Lists entries := ⟨h.terms, h.params, h.warnings, h.admissible⟩
      exact ih frozen
    | register name basis params =>
      rw [run_cons, accepted]
      cases outcome : r.register name basis params with
      | ok next =>
        have added := ih (h.register (e := ⟨name, basis, params⟩) outcome)
        rw [after_of_ok outcome]
        rwa [List.append_assoc] at added
      | error e =>
        rw [after_of_error outcome]
        exact ih h

/-- The parameters and the warnings of a registry tell what was supplied. -/
structure Accounts (r : Registry α) (supplied : List (Supplied α)) : Prop where
  params : List.Forall₂ Supplied.Becomes supplied r.params
  warnings : r.warnings =
    (supplied.zip r.params).filterMap fun pair => pair.1.warningAbout? pair.2

theorem Lists.accounts (h : r.Lists entries) : r.Accounts (entries.flatMap Entry.supplied) := by
  have params : r.params = (entries.flatMap Entry.supplied).map fun s => s.param.stored := by
    rw [h.params, List.map_flatMap]
    refine List.flatMap_congr fun e _ => ?_
    rw [Entry.supplied, List.map_map]
    rfl
  refine ⟨?_, ?_⟩
  · rw [params, List.forall₂_map_right_iff]
    exact List.forall₂_same.mpr fun s _ => s.becomes_stored
  · have about : (entries.flatMap Entry.supplied).filterMap (fun s => s.param.warning? s.term) =
        r.warnings := by
      rw [h.warnings, List.filterMap_flatMap]
      refine List.flatMap_congr fun e _ => ?_
      rw [Entry.supplied, List.filterMap_map]
      rfl
    rw [params, ← about, ← List.map_prod_left_eq_zip, List.filterMap_map]
    exact List.filterMap_congr fun s _ => s.warningAbout?_stored.symm

end Registry

end

/-- A bound or a starting value that is not a number counts as outside, unless the other bounds
exclude each other. -/
theorem ParamSpec.isReplaced_of_isNaN {q : ParamSpec Float}
    (h : q.lower.isNaN ∨ q.upper.isNaN ∨ (q.initial.isNaN ∧ ¬q.upper < q.lower)) :
    q.IsReplaced := by
  have bounds (crossed : q.upper < q.lower) : ¬q.upper.isNaN ∧ ¬q.lower.isNaN :=
    not_isNaN_of_le (le_of_lt crossed)
  have start (inside : q.StartsInside) : ¬q.lower.isNaN ∧ ¬q.initial.isNaN ∧ ¬q.upper.isNaN := by
    obtain ⟨lower, initial⟩ := not_isNaN_of_le inside.1
    exact ⟨lower, initial, (not_isNaN_of_le inside.2).2⟩
  rcases h with lower | upper | ⟨initial, ordered⟩
  · exact ⟨fun crossed => (bounds crossed).2 lower, fun inside => (start inside).1 lower⟩
  · exact ⟨fun crossed => (bounds crossed).1 upper, fun inside => (start inside).2.2 upper⟩
  · exact ⟨ordered, fun inside => (start inside).2.1 initial⟩

namespace Registry

/-- The parameters of a registry are those that the accepted registrations supplied, and its warnings
are about just the parameters whose starting value was replaced, one each and in the same order. What
is refused leaves no trace. -/
theorem run_accounts (calls : List (Call Float)) :
    (empty.run calls).Accounts ((empty.accepted calls).flatMap Entry.supplied) ∧
      (∀ name basis params,
        (∀ next, (empty.run calls).register name basis params = .ok next →
          empty.accepted (calls ++ [Call.register name basis params]) =
            empty.accepted calls ++ [⟨name, basis, params⟩]) ∧
        ∀ e, (empty.run calls).register name basis params = .error e →
          empty.accepted (calls ++ [Call.register name basis params]) = empty.accepted calls ∧
            empty.run (calls ++ [Call.register name basis params]) = empty.run calls) ∧
      empty.accepted (calls ++ [Call.freeze]) = empty.accepted calls ∧
      ∀ q : ParamSpec Float,
        q.lower.isNaN ∨ q.upper.isNaN ∨ (q.initial.isNaN ∧ ¬q.upper < q.lower) →
          q.IsReplaced := by
  refine ⟨(Lists.empty.run calls).accounts, fun name basis params => ⟨?_, ?_⟩, ?_,
    fun q => ParamSpec.isReplaced_of_isNaN⟩
  · intro next registered
    rw [accepted_append, accepted, registered]
    rfl
  · intro e refused
    rw [accepted_append, accepted, refused]
    refine ⟨List.append_nil _, ?_⟩
    rw [run_concat, after_of_error refused]
  · rw [accepted_append]
    exact List.append_nil _

/-- A constant that is supplied out of its bounds, and a call that is refused for its name. -/
def constantCalls : List (Call Float) :=
  [.register "c" (.polynomial 0) [constantSpec], .register "c" .gaussian []]

/-- The constant is supplied as twenty and stored as five, with a warning that says so; the refused
call leaves no trace. -/
theorem run_accounts_constant :
    empty.accepted constantCalls = [⟨"c", .polynomial 0, [constantSpec]⟩] ∧
      ∃ p, (empty.run constantCalls).params = [p] ∧ p.initial = 5.0 ∧
        (empty.run constantCalls).warnings = [⟨"c", "c", 20.0, 0.0, 10.0, 5.0⟩] := by
  obtain ⟨⟨params, warnings⟩, -⟩ := run_accounts constantCalls
  have accepted : empty.accepted constantCalls = [⟨"c", .polynomial 0, [constantSpec]⟩] := rfl
  have replaced : constantSpec.IsReplaced := by decide +kernel
  refine ⟨accepted, ?_⟩
  rw [accepted] at params warnings
  obtain ⟨p, rest, becomes, none, stored⟩ := List.forall₂_cons_left_iff.mp params
  obtain rfl := List.forall₂_nil_left_iff.mp none
  have middle : p.initial = 5.0 := (becomes.replaced replaced).trans (by decide +kernel)
  have about : (⟨"c", constantSpec⟩ : Supplied Float).warningAbout? p =
      some ⟨"c", "c", 20.0, 0.0, 10.0, 5.0⟩ := by
    rw [Supplied.warningAbout?, if_pos replaced, middle]
    rfl
  refine ⟨p, stored, middle, ?_⟩
  rw [warnings, stored]
  simp [Entry.supplied, about]

end Registry

end FormulaFit

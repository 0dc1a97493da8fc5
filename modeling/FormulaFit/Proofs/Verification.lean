import FormulaFit.Proofs.Evaluation
import FormulaFit.Proofs.Registry

namespace FormulaFit

variable {α : Type}

/-- The instructions keep to the value stack and to parameter vectors of the given length. -/
structure Contained (length position size : Nat) (code : List (Instruction α)) : Prop where
  stack : ∀ before next, before <+: code → countCode position size before = .ok next →
    next ≤ stackCapacity
  slices : ∀ t offset, .term t offset ∈ code → offset + t.arity ≤ length

namespace Contained

variable {length position size : Nat} {i : Instruction α} {code : List (Instruction α)}

theorem first (h : Contained length position size (i :: code)) {next : Nat}
    (counted : i.count position size = .ok next) : next ≤ stackCapacity := by
  refine h.stack [i] next ⟨code, rfl⟩ ?_
  rw [countCode, counted]
  rfl

theorem tail (h : Contained length position size (i :: code)) {next : Nat}
    (counted : i.count position size = .ok next) : Contained length (position + 1) next code := by
  refine ⟨?_, fun t offset member => h.slices t offset (List.mem_cons_of_mem i member)⟩
  intro before last front hlast
  refine h.stack (i :: before) last (List.cons_prefix_cons.mpr ⟨rfl, front⟩) ?_
  rw [countCode, counted]
  exact hlast

theorem of_prefix {before : List (Instruction α)} (h : Contained length position size code)
    (front : before <+: code) : Contained length position size before :=
  ⟨fun first next hfirst => h.stack first next (hfirst.trans front),
    fun t offset member => h.slices t offset (front.subset member)⟩

end Contained

/-- The program keeps to the value stack and to parameter vectors of its length. -/
def Program.Contained (p : Program α) : Prop :=
  FormulaFit.Contained p.paramsLength 0 0 p.code

theorem eq_stackUnderflow_of_countCode {code : List (Instruction α)} {position size : Nat}
    {e : EvalError} (h : countCode position size code = .error e) :
    ∃ place op, e = .stackUnderflow place op := by
  induction code generalizing position size with
  | nil => cases h
  | cons i code ih =>
    rw [countCode] at h
    cases counted : i.count position size with
    | ok next =>
      rw [counted] at h
      exact ih h
    | error e' =>
      rw [counted] at h
      cases h
      cases i with
      | number | term => cases counted
      | operator op =>
        simp only [Instruction.count] at counted
        split at counted
        next => exact ⟨position, op, (Except.error.inj counted).symm⟩
        next => cases counted

/-- Verification reports nothing but the shape of the program. -/
theorem Program.verify_eq_error {p : Program α} {e : EvalError} (h : p.verify = .error e) :
    (∃ remaining, e = .malformedProgram remaining) ∨ ∃ place op, e = .stackUnderflow place op := by
  unfold Program.verify at h
  split at h
  next => cases h
  next remaining _ _ => exact Or.inl ⟨remaining, (Except.error.inj h).symm⟩
  next e' failed =>
    cases h
    exact Or.inr (eq_stackUnderflow_of_countCode failed)

variable [Scalar α]

/-- A term has a value at `x`, unless its template has none. -/
def Term.DefinedAt (t : Term α) (x : α) : Prop :=
  ∀ template, t.basis = .template template → (template.interpolate? x).isSome

/-- Every term that the instructions come to has a value at `x`. -/
def DefinedFrom (x : α) (position size : Nat) (code : List (Instruction α)) : Prop :=
  ∀ before t offset after last, code = before ++ .term t offset :: after →
    countCode position size before = .ok last → t.DefinedAt x

theorem definedFrom_cons_iff {x : α} {position size : Nat} {i : Instruction α}
    {code : List (Instruction α)} :
    DefinedFrom x position size (i :: code) ↔
      (∀ t offset, i = .term t offset → t.DefinedAt x) ∧
        ∀ next, i.count position size = .ok next → DefinedFrom x (position + 1) next code := by
  constructor
  · intro h
    refine ⟨?_, ?_⟩
    · rintro t offset rfl
      exact h [] t offset code size rfl rfl
    · intro next counted before t offset after last split hlast
      refine h (i :: before) t offset after last (by rw [split, List.cons_append]) ?_
      rw [countCode, counted]
      exact hlast
  · rintro ⟨here, later⟩ before t offset after last split hlast
    cases before with
    | nil => exact here t offset (List.cons.inj split).1
    | cons j before =>
      obtain ⟨rfl, rest⟩ := List.cons.inj split
      rw [countCode] at hlast
      cases counted : i.count position size with
      | error e => simp [counted] at hlast
      | ok next =>
        rw [counted] at hlast
        exact later next counted before t offset after last rest hlast

theorem DefinedFrom.of_prefix {x : α} {position size : Nat} {before code : List (Instruction α)}
    (h : DefinedFrom x position size code) (front : before <+: code) :
    DefinedFrom x position size before := by
  obtain ⟨more, rfl⟩ := front
  intro first t offset after last split
  exact h first t offset (after ++ more) last (by simp [split])

namespace Instruction

variable {params : List α} {x : α} {position : Nat} {stack : List α}

/-- One instruction changes the stack as its count says. -/
theorem map_length_run {i : Instruction α}
    (room : ∀ next, i.count position stack.length = .ok next → next ≤ stackCapacity)
    (inside : ∀ t offset, i = .term t offset → offset + t.arity ≤ params.length)
    (defined : ∀ t offset, i = .term t offset → t.DefinedAt x) :
    (i.run params x position stack).map List.length = i.count position stack.length := by
  cases i with
  | number v =>
    have hpush := push_of_lt v (room _ rfl)
    simp [run, hpush, Except.map, count]
  | term t offset =>
    have hslice := paramSlice?_eq_some (inside t offset rfl)
    have valued :=
      (Basis.value?_isSome_iff (length_of_paramSlice? hslice)).mpr (defined t offset rfl)
    obtain ⟨v, hv⟩ := Option.isSome_iff_exists.mp valued
    have hpush := push_of_lt v (room _ rfl)
    simp [run, hslice, hv, hpush, Except.map, count]
  | operator op =>
    rcases stack with _ | ⟨b, _ | ⟨a, rest⟩⟩
    · rfl
    · rfl
    · simp [run, Except.map, count]

theorem run_of_not_definedAt {t : Term α} (undefined : ¬t.DefinedAt x) (offset : Nat) :
    (term t offset).run params x position stack = .error .outOfBounds := by
  have none : (paramSlice? params offset t.arity).bind (t.basis.value? x) = none := by
    cases hslice : paramSlice? params offset t.arity with
    | none => rfl
    | some slice =>
      have valueless := mt (Basis.value?_isSome_iff (length_of_paramSlice? hslice)).mp undefined
      simpa using valueless
  simp only [run, none]

end Instruction

section

variable {length : Nat} {params : List α} {x : α} {position : Nat} {stack : List α}
  {code : List (Instruction α)}

/-- A run changes the stack as the count says, and fails where the count fails. -/
theorem map_length_runCode (inside : Contained length position stack.length code)
    (enough : length ≤ params.length) (defined : DefinedFrom x position stack.length code) :
    (runCode params x position stack code).map List.length =
      countCode position stack.length code := by
  induction code generalizing position stack with
  | nil => rfl
  | cons i code ih =>
    obtain ⟨here, later⟩ := definedFrom_cons_iff.mp defined
    have slice : ∀ t offset, i = .term t offset → offset + t.arity ≤ params.length := by
      rintro t offset rfl
      exact Nat.le_trans (inside.slices t offset (by simp)) enough
    have step := i.map_length_run (fun next => inside.first) slice here
    rw [runCode, countCode, ← step]
    cases hrun : i.run params x position stack with
    | error e => rfl
    | ok next =>
      have counted : i.count position stack.length = .ok next.length := by
        rw [← step, hrun]
        rfl
      exact ih (inside.tail counted) (later _ counted)

/-- A run that comes to a template without a value goes no further. -/
theorem runCode_of_not_definedFrom (inside : Contained length position stack.length code)
    (enough : length ≤ params.length) (undefined : ¬DefinedFrom x position stack.length code) :
    runCode params x position stack code = .error .outOfBounds := by
  induction code generalizing position stack with
  | nil => exact absurd (fun before t offset after last split => by simp at split) undefined
  | cons i code ih =>
    by_cases here : ∀ t offset, i = .term t offset → t.DefinedAt x
    · have slice : ∀ t offset, i = .term t offset → offset + t.arity ≤ params.length := by
        rintro t offset rfl
        exact Nat.le_trans (inside.slices t offset (by simp)) enough
      have step := i.map_length_run (fun next => inside.first) slice here
      -- What is undefined lies further on, where the rest of the run comes to it.
      have later : ∃ next, i.count position stack.length = .ok next ∧
          ¬DefinedFrom x (position + 1) next code := by
        by_contra all
        push Not at all
        exact undefined (definedFrom_cons_iff.mpr ⟨here, all⟩)
      obtain ⟨size, counted, hsize⟩ := later
      rw [counted] at step
      cases hrun : i.run params x position stack with
      | error e => simp [hrun, Except.map] at step
      | ok next =>
        have same : next.length = size := by simpa [hrun, Except.map] using step
        subst same
        rw [runCode, hrun]
        exact ih (inside.tail counted) hsize
    · push Not at here
      obtain ⟨t, offset, rfl, valueless⟩ := here
      rw [runCode, Instruction.run_of_not_definedAt valueless offset]

end

namespace Program

variable {p : Program α} {params : List α} {x : α}

/-- Every term that the program comes to has a value at `x`. -/
def DefinedAt (p : Program α) (x : α) : Prop :=
  DefinedFrom x 0 0 p.code

theorem evaluate_of_short (short : params.length < p.paramsLength) :
    p.evaluate params x = .error (.missingParameters p.paramsLength params.length) :=
  if_pos short

omit [Scalar α] in
theorem bind_of_full (full : p.layout = .full) (enough : p.paramsLength ≤ params.length) :
    p.bind params = .ok (params.take p.paramsLength) := by
  rw [bind, full]
  exact if_neg (Nat.not_lt.mpr enough)

/-- Parameters behind the program's own length do not count. -/
theorem evaluate_take (inside : p.Contained) (enough : p.paramsLength ≤ params.length) (x : α) :
    p.evaluate (params.take p.paramsLength) x = p.evaluate params x := by
  have cut : (params.take p.paramsLength).length = p.paramsLength := by
    rw [List.length_take, Nat.min_eq_left enough]
  have same : runCode (params.take p.paramsLength) x 0 [] (p.code.map id) =
      runCode params x 0 [] p.code := by
    refine runCode_map ?_ 0 []
    intro i member position stack
    cases i with
    | number v => rfl
    | operator op => rfl
    | term t offset =>
      have slice := paramSlice?_take (inside.slices t offset member) enough
      simp only [id, Instruction.run, slice]
  rw [List.map_id] at same
  rw [evaluate, evaluate, cut, if_neg (Nat.lt_irrefl _), if_neg (Nat.not_lt.mpr enough), same]

/-- Verification gives what evaluation gives, apart from the value. -/
theorem verify_eq_map_evaluate (inside : p.Contained) (enough : p.paramsLength ≤ params.length)
    (defined : p.DefinedAt x) : p.verify = (p.evaluate params x).map fun _ => () := by
  have sizes : (runCode params x 0 [] p.code).map List.length = countCode 0 0 p.code :=
    map_length_runCode inside enough defined
  rw [verify, evaluate, if_neg (Nat.not_lt.mpr enough), ← sizes]
  cases runCode params x 0 [] p.code with
  | error e => rfl
  | ok stack => rcases stack with _ | ⟨v, _ | ⟨w, rest⟩⟩ <;> rfl

theorem evaluate_of_not_definedAt (inside : p.Contained)
    (enough : p.paramsLength ≤ params.length) (undefined : ¬p.DefinedAt x) :
    p.evaluate params x = .error .outOfBounds := by
  have stopped : runCode params x 0 [] p.code = .error .outOfBounds :=
    runCode_of_not_definedFrom inside enough undefined
  rw [evaluate, if_neg (Nat.not_lt.mpr enough), stopped]

theorem verify_eq_error_of_evaluate (inside : p.Contained) (enough : p.paramsLength ≤ params.length)
    (defined : p.DefinedAt x) {e : EvalError} (failed : p.evaluate params x = .error e) :
    p.verify = .error e := by
  rw [verify_eq_map_evaluate inside enough defined, failed]
  rfl

theorem evaluate_eq_outOfBounds_iff (inside : p.Contained)
    (enough : p.paramsLength ≤ params.length) :
    p.evaluate params x = .error .outOfBounds ↔ ¬p.DefinedAt x := by
  constructor
  · intro stopped defined
    have refused := verify_eq_error_of_evaluate inside enough defined stopped
    simpa using verify_eq_error refused
  · exact evaluate_of_not_definedAt inside enough

/-- A verified program has a value wherever its terms have one. -/
theorem exists_evaluate_iff (inside : p.Contained) (enough : p.paramsLength ≤ params.length)
    (verified : p.verify = .ok ()) :
    (∃ v, p.evaluate params x = .ok v) ↔ p.DefinedAt x := by
  constructor
  · rintro ⟨v, valued⟩
    by_contra undefined
    rw [evaluate_of_not_definedAt inside enough undefined] at valued
    cases valued
  · intro defined
    cases valued : p.evaluate params x with
    | ok v => exact ⟨v, rfl⟩
    | error e =>
      rw [verify_eq_error_of_evaluate inside enough defined valued] at verified
      cases verified

theorem eq_outOfBounds_of_evaluate (inside : p.Contained) (enough : p.paramsLength ≤ params.length)
    (verified : p.verify = .ok ()) {e : EvalError} (failed : p.evaluate params x = .error e) :
    e = .outOfBounds := by
  by_cases defined : p.DefinedAt x
  · rw [verify_eq_error_of_evaluate inside enough defined failed] at verified
    cases verified
  · rw [evaluate_of_not_definedAt inside enough defined] at failed
    exact (Except.error.inj failed).symm

end Program

end FormulaFit

import FormulaFit.Proofs.Registry

namespace FormulaFit.Registry

/-- A call that may change a registry, with its arguments. -/
inductive Call (α : Type)
  | register (name : String) (basis : Basis α) (params : List (ParamSpec α))
  | freeze

variable {α : Type} {r : Registry α}

/-- The slices cover the vector of all parameters, and nothing else. -/
theorem WellFormed.lt_paramsLength_iff (h : r.WellFormed) {i : Nat} :
    i < r.paramsLength ↔ ∃ t ∈ r.terms, t.offset ≤ i ∧ i < t.offset + t.arity := by
  constructor
  · intro inside
    rw [paramsLength, h.length_eq] at inside
    obtain ⟨before, t, after, split, low, high⟩ := exists_slice_of_lt inside
    refine ⟨t, by simp [split], ?_⟩
    rw [h.offset_split split]
    exact ⟨low, high⟩
  · rintro ⟨t, member, -, high⟩
    exact Nat.lt_of_lt_of_le high (h.slice_le member)

theorem WellFormed.get?_eq_some_iff (h : r.WellFormed) {name : String} {t : Term α} :
    r.get? name = some t ↔ t ∈ r.terms ∧ t.name = name := by
  constructor
  · exact fun found => ⟨mem_of_get? found, name_of_get? found⟩
  · rintro ⟨member, rfl⟩
    cases found : r.get? t.name with
    | none => exact absurd (List.mem_map_of_mem member) (get?_eq_none_iff.mp found)
    | some u =>
      have same := List.inj_on_of_nodup_map h.distinct (mem_of_get? found) member
        (name_of_get? found)
      rw [same]

variable [Scalar α]

/-- The registry after a call, whether or not the call succeeds. -/
def after (r : Registry α) : Call α → Registry α
  | .register name basis params => (r.tryRegister name basis params).2
  | .freeze => r.freeze

/-- The registry after calls one after another. -/
def run (r : Registry α) (calls : List (Call α)) : Registry α :=
  calls.foldl after r

theorem after_of_ok {next : Registry α} {name : String} {basis : Basis α}
    {params : List (ParamSpec α)} (h : r.register name basis params = .ok next) :
    r.after (.register name basis params) = next := by
  rw [after, tryRegister_of_ok h]

theorem after_of_error {name : String} {basis : Basis α} {params : List (ParamSpec α)}
    {e : RegistrationError} (h : r.register name basis params = .error e) :
    r.after (.register name basis params) = r := by
  rw [after, tryRegister_of_error h]

theorem after_cases (r : Registry α) (call : Call α) :
    r.after call = r ∨ (call = .freeze ∧ r.after call = r.freeze) ∨
      ∃ name basis params, call = .register name basis params ∧
        r.register name basis params = .ok (r.after call) := by
  cases call with
  | freeze => exact Or.inr (Or.inl ⟨rfl, rfl⟩)
  | register name basis params =>
    cases hr : r.register name basis params with
    | error e => exact Or.inl (after_of_error hr)
    | ok next =>
      refine Or.inr (Or.inr ⟨name, basis, params, rfl, ?_⟩)
      rw [after_of_ok hr]
      exact hr

theorem Reachable.after (h : r.Reachable) (call : Call α) : (r.after call).Reachable := by
  rcases r.after_cases call with same | ⟨-, frozen⟩ | ⟨name, basis, params, -, registered⟩
  · rw [same]
    exact h
  · rw [frozen]
    exact .freeze h
  · exact .register h registered

theorem Reachable.run (h : r.Reachable) (calls : List (Call α)) : (r.run calls).Reachable := by
  induction calls generalizing r with
  | nil => exact h
  | cons call calls ih => exact ih (h.after call)

theorem Reachable.isIdentifier (h : r.Reachable) : ∀ t ∈ r.terms, isIdentifier t.name := by
  induction h with
  | empty => simp [Registry.empty]
  | freeze h ih => exact ih
  | register h hr ih =>
    obtain ⟨⟨-, identifier, -⟩, rfl⟩ := register_eq_ok_iff.mp hr
    intro t member
    rcases List.mem_append.mp member with old | last
    · exact ih t old
    · obtain rfl := List.mem_singleton.mp last
      exact identifier

/-- The second registry has all that the first one has, in the same places. -/
structure Extends (r next : Registry α) : Prop where
  terms : r.terms <+: next.terms
  params : r.params <+: next.params
  warnings : r.warnings <+: next.warnings

omit [Scalar α] in
theorem Extends.refl (r : Registry α) : r.Extends r :=
  ⟨List.prefix_refl _, List.prefix_refl _, List.prefix_refl _⟩

omit [Scalar α] in
theorem Extends.trans {next last : Registry α} (h : r.Extends next) (h' : next.Extends last) :
    r.Extends last :=
  ⟨h.terms.trans h'.terms, h.params.trans h'.params, h.warnings.trans h'.warnings⟩

theorem extends_of_register {next : Registry α} {name : String} {basis : Basis α}
    {params : List (ParamSpec α)} (h : r.register name basis params = .ok next) :
    r.Extends next := by
  obtain ⟨-, rfl⟩ := register_eq_ok_iff.mp h
  exact ⟨List.prefix_append _ _, List.prefix_append _ _, List.prefix_append _ _⟩

theorem extends_after (r : Registry α) (call : Call α) : r.Extends (r.after call) := by
  rcases r.after_cases call with same | ⟨-, frozen⟩ | ⟨name, basis, params, -, registered⟩
  · rw [same]
    exact .refl r
  · rw [frozen]
    exact ⟨List.prefix_refl _, List.prefix_refl _, List.prefix_refl _⟩
  · exact extends_of_register registered

theorem extends_run (r : Registry α) (calls : List (Call α)) : r.Extends (r.run calls) := by
  induction calls generalizing r with
  | nil => exact .refl r
  | cons call calls ih => exact (r.extends_after call).trans (ih (r.after call))

end FormulaFit.Registry

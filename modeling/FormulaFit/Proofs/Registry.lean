import FormulaFit.Double
import FormulaFit.Registry
import Mathlib.Algebra.GroupWithZero.Nat
import Mathlib.Data.List.Nodup

namespace FormulaFit

section

variable {α : Type}

theorem Basis.arity_pos (basis : Basis α) : 0 < basis.arity := by
  cases basis <;> simp [Basis.arity]

theorem paramSlice?_eq_some {params : List α} {offset length : Nat}
    (h : offset + length ≤ params.length) :
    paramSlice? params offset length = some ((params.drop offset).take length) :=
  if_pos h

theorem length_of_paramSlice? {params slice : List α} {offset length : Nat}
    (h : paramSlice? params offset length = some slice) : slice.length = length := by
  unfold paramSlice? at h
  split at h
  next bound =>
    cases h
    simp only [List.length_take, List.length_drop]
    omega
  next => simp at h

theorem paramSlice?_take {params : List α} {offset length n : Nat} (inside : offset + length ≤ n)
    (enough : n ≤ params.length) :
    paramSlice? (params.take n) offset length = paramSlice? params offset length := by
  have fits : offset + length ≤ (params.take n).length := by
    rw [List.length_take]
    omega
  rw [paramSlice?_eq_some fits, paramSlice?_eq_some (Nat.le_trans inside enough), List.drop_take,
    List.take_take, Nat.min_eq_left (by omega)]

/-- The arities of the terms before the first one of the name, added up. -/
def offsetIn : List (Term α) → String → Nat
  | [], _ => 0
  | t :: rest, name => if t.name = name then 0 else t.arity + offsetIn rest name

theorem offsetIn_append_of_mem {terms : List (Term α)} {t : Term α} (h : t ∈ terms)
    (rest : List (Term α)) : offsetIn (terms ++ rest) t.name = offsetIn terms t.name := by
  induction terms with
  | nil => simp at h
  | cons u terms ih =>
    by_cases same : u.name = t.name
    · simp [offsetIn, same]
    · have inTail : t ∈ terms := by
        rcases List.mem_cons.mp h with rfl | h
        · exact absurd rfl same
        · exact h
      simp [offsetIn, same, ih inTail]

theorem offsetIn_append_of_not_mem {terms : List (Term α)} {name : String}
    (h : name ∉ terms.map Term.name) (rest : List (Term α)) :
    offsetIn (terms ++ rest) name = (terms.map Term.arity).sum + offsetIn rest name := by
  induction terms with
  | nil => simp
  | cons u terms ih =>
    simp only [List.map_cons, List.mem_cons, not_or] at h
    simp only [List.cons_append, offsetIn, Ne.symm h.1, if_false, ih h.2, List.map_cons,
      List.sum_cons, Nat.add_assoc]

/-- Terms with distinct names start where the terms before them end. -/
theorem offsetIn_split {before after : List (Term α)} {t : Term α}
    (distinct : ((before ++ t :: after).map Term.name).Nodup) :
    offsetIn (before ++ t :: after) t.name = (before.map Term.arity).sum := by
  have fresh : t.name ∉ before.map Term.name := by
    rw [List.map_append, List.map_cons] at distinct
    intro member
    exact (List.nodup_append.mp distinct).2.2 _ member _ (by simp) rfl
  rw [offsetIn_append_of_not_mem fresh]
  simp [offsetIn]

theorem offsetIn_add_arity_le {terms : List (Term α)} {t : Term α} (h : t ∈ terms)
    (distinct : (terms.map Term.name).Nodup) :
    offsetIn terms t.name + t.arity ≤ (terms.map Term.arity).sum := by
  obtain ⟨before, after, rfl⟩ := List.append_of_mem h
  rw [offsetIn_split distinct]
  simp

theorem exists_slice_of_lt {terms : List (Term α)} {i : Nat} (h : i < (terms.map Term.arity).sum) :
    ∃ before t after, terms = before ++ t :: after ∧
      (before.map Term.arity).sum ≤ i ∧ i < (before.map Term.arity).sum + t.arity := by
  induction terms generalizing i with
  | nil => simp at h
  | cons t terms ih =>
    rw [List.map_cons, List.sum_cons] at h
    by_cases inFirst : i < t.arity
    · exact ⟨[], t, terms, rfl, Nat.zero_le i, by simpa using inFirst⟩
    · obtain ⟨before, u, after, rfl, low, high⟩ := ih (i := i - t.arity) (by omega)
      refine ⟨t :: before, u, after, rfl, ?_, ?_⟩ <;> rw [List.map_cons, List.sum_cons] <;> omega

theorem slice_unique {before after before' after' : List (Term α)} {t t' : Term α} {i : Nat}
    (same : before ++ t :: after = before' ++ t' :: after')
    (low : (before.map Term.arity).sum ≤ i) (high : i < (before.map Term.arity).sum + t.arity)
    (low' : (before'.map Term.arity).sum ≤ i)
    (high' : i < (before'.map Term.arity).sum + t'.arity) : before = before' ∧ t = t' := by
  rcases List.append_eq_append_iff.mp same with ⟨more, rfl, rest⟩ | ⟨more, rfl, rest⟩
  · cases more with
    | nil => exact ⟨(List.append_nil _).symm, (List.cons.inj rest).1⟩
    | cons u more =>
      obtain ⟨rfl, -⟩ := List.cons.inj rest
      simp only [List.map_append, List.map_cons, List.sum_append, List.sum_cons] at low'
      omega
  · cases more with
    | nil => exact ⟨List.append_nil _, (List.cons.inj rest).1.symm⟩
    | cons u more =>
      obtain ⟨rfl, -⟩ := List.cons.inj rest
      simp only [List.map_append, List.map_cons, List.sum_append, List.sum_cons] at low
      omega

end

namespace Registry

variable {α : Type} {r : Registry α}

theorem name_of_get? {name : String} {t : Term α} (h : r.get? name = some t) : t.name = name := by
  simpa using List.find?_some h

theorem mem_of_get? {name : String} {t : Term α} (h : r.get? name = some t) : t ∈ r.terms :=
  List.mem_of_find?_eq_some h

theorem get?_eq_none_iff {name : String} : r.get? name = none ↔ name ∉ r.terms.map Term.name := by
  simp [get?]

/-- What holds of the terms of a registry and the parameters they share. -/
structure WellFormed (r : Registry α) : Prop where
  distinct : (r.terms.map Term.name).Nodup
  offset_eq : ∀ t ∈ r.terms, t.offset = offsetIn r.terms t.name
  length_eq : r.params.length = (r.terms.map Term.arity).sum

theorem WellFormed.empty : (Registry.empty : Registry α).WellFormed :=
  ⟨List.nodup_nil, by simp [Registry.empty], rfl⟩

theorem WellFormed.freeze (h : r.WellFormed) : r.freeze.WellFormed :=
  ⟨h.distinct, h.offset_eq, h.length_eq⟩

theorem WellFormed.offset_split (h : r.WellFormed) {before after : List (Term α)} {t : Term α}
    (split : r.terms = before ++ t :: after) : t.offset = (before.map Term.arity).sum := by
  have distinct := h.distinct
  rw [h.offset_eq t (by simp [split]), split]
  rw [split] at distinct
  exact offsetIn_split distinct

/-- Every term's parameters lie within a vector of all parameters. -/
theorem WellFormed.slice_le (h : r.WellFormed) {t : Term α} (member : t ∈ r.terms) :
    t.offset + t.arity ≤ r.paramsLength := by
  rw [h.offset_eq t member, paramsLength, h.length_eq]
  exact offsetIn_add_arity_le member h.distinct

/-- The names of a term's own parameters. -/
def termNames (r : Registry α) (t : Term α) : List String :=
  ((r.params.drop t.offset).take t.arity).map fun p => t.name ++ "." ++ p.name

theorem qualifiedNames_eq (r : Registry α) : r.qualifiedNames = r.terms.flatMap r.termNames :=
  rfl

theorem WellFormed.length_termNames (h : r.WellFormed) {terms : List (Term α)}
    (members : ∀ t ∈ terms, t ∈ r.terms) :
    (terms.flatMap r.termNames).length = (terms.map Term.arity).sum := by
  have each : ∀ t ∈ terms, (r.termNames t).length = t.arity := by
    intro t ht
    have := h.slice_le (members t ht)
    rw [paramsLength] at this
    simp only [termNames, List.length_map, List.length_take, List.length_drop]
    omega
  rw [List.length_flatMap, List.map_congr_left each]

theorem WellFormed.length_qualifiedNames (h : r.WellFormed) :
    r.qualifiedNames.length = r.paramsLength := by
  rw [qualifiedNames_eq, h.length_termNames fun _ => id]
  exact h.length_eq.symm

variable [Scalar α]

/-- A term passes all checks of a registration. -/
def Admits (r : Registry α) (name : String) (basis : Basis α) (params : List (ParamSpec α)) :
    Prop :=
  r.frozen = false ∧ isIdentifier name ∧ r.get? name = none ∧ params.length = basis.arity

/-- The registry with a term and its parameters at the end. -/
def append (r : Registry α) (name : String) (basis : Basis α) (params : List (ParamSpec α)) :
    Registry α :=
  { r with
    terms := r.terms ++ [⟨name, basis, r.params.length⟩]
    params := r.params ++ params.map ParamSpec.stored
    warnings := r.warnings ++ params.filterMap (·.warning? name) }

section

variable (r : Registry α) (name : String) (basis : Basis α) (params : List (ParamSpec α))

@[simp] theorem append_terms :
    (r.append name basis params).terms = r.terms ++ [⟨name, basis, r.params.length⟩] :=
  rfl

@[simp] theorem append_params :
    (r.append name basis params).params = r.params ++ params.map ParamSpec.stored :=
  rfl

@[simp] theorem append_frozen : (r.append name basis params).frozen = r.frozen :=
  rfl

end

theorem foldl_keep (r : Registry α) (name : String) (params : List (ParamSpec α)) :
    params.foldl (keep · name) r = { r with
      params := r.params ++ params.map ParamSpec.stored
      warnings := r.warnings ++ params.filterMap (·.warning? name) } := by
  induction params generalizing r with
  | nil => simp
  | cons p params ih =>
    rw [List.foldl_cons, ih]
    cases warned : p.warning? name <;> simp [keep, warned]

/-- A call for a term either fails and leaves the registry alone, or all its checks succeed and the
term is appended. -/
theorem tryRegister_cases (r : Registry α) (name : String) (basis : Basis α)
    (params : List (ParamSpec α)) :
    (¬r.Admits name basis params ∧ ∃ e, r.tryRegister name basis params = (.error e, r)) ∨
      r.Admits name basis params ∧
        r.tryRegister name basis params = (.ok (), r.append name basis params) := by
  unfold tryRegister
  split
  next frozen => exact Or.inl ⟨fun admits => by simp [admits.1] at frozen, _, rfl⟩
  next building =>
    split
    next invalid => exact Or.inl ⟨fun admits => by simp [admits.2.1] at invalid, _, rfl⟩
    next identifier =>
      split
      next taken => exact Or.inl ⟨fun admits => by simp [admits.2.2.1] at taken, _, rfl⟩
      next new =>
        split
        next arity => exact Or.inl ⟨fun admits => arity admits.2.2.2, _, rfl⟩
        next arity =>
          refine Or.inr ⟨⟨?_, ?_, ?_, not_not.mp arity⟩, ?_⟩
          · simpa using building
          · simpa using identifier
          · simpa using new
          · rw [foldl_keep]
            rfl

/-- Everything a successful registration does, and when it succeeds. -/
theorem register_eq_ok_iff {name : String} {basis : Basis α} {params : List (ParamSpec α)}
    {r' : Registry α} :
    r.register name basis params = .ok r' ↔
      r.Admits name basis params ∧ r' = r.append name basis params := by
  rw [register]
  rcases r.tryRegister_cases name basis params with ⟨refused, e, failed⟩ | ⟨admits, added⟩
  · rw [failed]
    constructor
    · intro h
      cases h
    · exact fun made => absurd made.1 refused
  · rw [added]
    constructor
    · exact fun h => ⟨admits, (Except.ok.inj h).symm⟩
    · rintro ⟨-, rfl⟩
      rfl

theorem tryRegister_of_ok {name : String} {basis : Basis α} {params : List (ParamSpec α)}
    {r' : Registry α} (h : r.register name basis params = .ok r') :
    r.tryRegister name basis params = (.ok (), r') := by
  rw [register] at h
  rcases r.tryRegister_cases name basis params with ⟨-, e, failed⟩ | ⟨-, added⟩
  · rw [failed] at h
    cases h
  · rw [added] at h ⊢
    cases h
    rfl

theorem tryRegister_of_error {name : String} {basis : Basis α} {params : List (ParamSpec α)}
    {e : RegistrationError} (h : r.register name basis params = .error e) :
    r.tryRegister name basis params = (.error e, r) := by
  rw [register] at h
  rcases r.tryRegister_cases name basis params with ⟨-, e', failed⟩ | ⟨-, added⟩
  · rw [failed] at h ⊢
    cases h
    rfl
  · rw [added] at h
    cases h

theorem WellFormed.register (h : r.WellFormed) {name : String} {basis : Basis α}
    {params : List (ParamSpec α)} {r' : Registry α} (hr : r.register name basis params = .ok r') :
    r'.WellFormed := by
  obtain ⟨⟨-, -, new, arity⟩, rfl⟩ := register_eq_ok_iff.mp hr
  have fresh := get?_eq_none_iff.mp new
  refine ⟨?_, ?_, ?_⟩
  · rw [append_terms, List.map_append, List.nodup_append]
    refine ⟨h.distinct, by simp, ?_⟩
    intro a ha b hb
    have : b = name := by simpa using hb
    rintro rfl
    exact fresh (this ▸ ha)
  · intro t ht
    rcases List.mem_append.mp ht with old | last
    · rw [append_terms, offsetIn_append_of_mem old]
      exact h.offset_eq t old
    · obtain rfl := List.mem_singleton.mp last
      rw [append_terms, offsetIn_append_of_not_mem fresh, h.length_eq]
      simp [offsetIn]
  · simp [h.length_eq, arity, Term.arity]

/-- The registries that registering terms and freezing lead to. -/
inductive Reachable : Registry α → Prop
  | empty : Reachable .empty
  | register {r r' : Registry α} {name : String} {basis : Basis α} {params : List (ParamSpec α)}
    (h : Reachable r) (hr : r.register name basis params = .ok r') : Reachable r'
  | freeze {r : Registry α} (h : Reachable r) : Reachable r.freeze

theorem Reachable.wellFormed (h : r.Reachable) : r.WellFormed := by
  induction h with
  | empty => exact .empty
  | register h hr ih => exact ih.register hr
  | freeze h ih => exact ih.freeze

/-- A registry of one constant term. -/
theorem exists_constant_registered : ∃ r : Registry Float,
    empty.register "t" (.polynomial 0) [.held "c" 3.0] = .ok r ∧ r.Reachable ∧
      r.paramsLength = 1 ∧ r.get? "t" = some ⟨"t", .polynomial 0, 0⟩ := by
  have registered : empty.register "t" (.polynomial 0) [.held "c" (3.0 : Float)] = .ok _ :=
    register_eq_ok_iff.mpr ⟨⟨rfl, by decide, rfl, rfl⟩, rfl⟩
  exact ⟨_, registered, .register .empty registered, rfl, rfl⟩

/-- A registry of two constant terms, the second one under a name of choice. -/
theorem exists_constants_registered (name : String) (identifier : isIdentifier name)
    (new : "a" ≠ name) : ∃ r : Registry Float, r.Reachable ∧
      r.terms = [⟨"a", .polynomial 0, 0⟩, ⟨name, .polynomial 0, 1⟩] ∧ r.paramsLength = 2 ∧
      r.get? name = some ⟨name, .polynomial 0, 1⟩ := by
  have registered : empty.register "a" (.polynomial 0) [.held "c" (1.0 : Float)] = .ok _ :=
    register_eq_ok_iff.mpr ⟨⟨rfl, by decide, rfl, rfl⟩, rfl⟩
  have unused : (empty.append "a" (.polynomial 0) [.held "c" (1.0 : Float)]).get? name = none := by
    simp [get?, empty, new]
  have registered' : (empty.append "a" (.polynomial 0) [.held "c" (1.0 : Float)]).register name
      (.polynomial 0) [.held "d" 2.0] = .ok _ :=
    register_eq_ok_iff.mpr ⟨⟨rfl, identifier, unused, rfl⟩, rfl⟩
  refine ⟨_, .register (.register .empty registered) registered', rfl, rfl, ?_⟩
  simp [get?, empty, new]

end Registry

end FormulaFit

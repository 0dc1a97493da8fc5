import FormulaFit.Proofs.Fitting
import FormulaFit.Proofs.RegistryRuns
import Mathlib.Data.List.Induction

namespace FormulaFit

/-- What a term is registered with. -/
structure Entry (α : Type) where
  name : String
  basis : Basis α
  params : List (ParamSpec α)

namespace Entry

variable {α : Type} [Scalar α]

/-- The entry can be registered where its name is free. -/
def Admissible (e : Entry α) : Prop :=
  isIdentifier e.name ∧ e.params.length = e.basis.arity

def stored (e : Entry α) : List (ParamSpec α) :=
  e.params.map ParamSpec.stored

def warnings (e : Entry α) : List (RangeWarning α) :=
  e.params.filterMap (·.warning? e.name)

theorem length_stored (e : Entry α) : e.stored.length = e.params.length :=
  List.length_map _

theorem term_of_mem_warnings {e : Entry α} {w : RangeWarning α} (h : w ∈ e.warnings) :
    w.term = e.name := by
  obtain ⟨p, -, hw⟩ := List.mem_filterMap.mp h
  unfold ParamSpec.warning? at hw
  split at hw
  next => rw [← Option.some.inj hw]
  next => cases hw

end Entry

namespace Registry

variable {α : Type} [Scalar α] {r r' : Registry α} {entries : List (Entry α)}

/-- Registers terms one after another; the first failure stops. -/
def registerAll (r : Registry α) (entries : List (Entry α)) :
    Except RegistrationError (Registry α) :=
  entries.foldlM (fun r e => r.register e.name e.basis e.params) r

/-- The registry holds the entries in their order, and nothing else. -/
structure Lists (r : Registry α) (entries : List (Entry α)) : Prop where
  terms : r.terms.map (fun t => (t.name, t.basis)) = entries.map fun e => (e.name, e.basis)
  params : r.params = entries.flatMap Entry.stored
  warnings : r.warnings = entries.flatMap Entry.warnings
  admissible : ∀ e ∈ entries, e.Admissible

theorem Lists.names (h : r.Lists entries) :
    r.terms.map Term.name = entries.map Entry.name := by
  have firsts := congrArg (List.map Prod.fst) h.terms
  simpa [Function.comp_def] using firsts

theorem Lists.empty : (Registry.empty : Registry α).Lists [] :=
  ⟨rfl, rfl, rfl, List.forall_mem_nil _⟩

theorem Lists.register (h : r.Lists entries) {e : Entry α}
    (hr : r.register e.name e.basis e.params = .ok r') : r'.Lists (entries ++ [e]) := by
  obtain ⟨⟨-, identifier, -, arity⟩, rfl⟩ := register_eq_ok_iff.mp hr
  refine ⟨?_, ?_, ?_, ?_⟩
  · rw [append_terms, List.map_append, List.map_append, h.terms]
    rfl
  · rw [List.flatMap_append, ← h.params, List.flatMap_singleton]
    rfl
  · rw [List.flatMap_append, ← h.warnings, List.flatMap_singleton]
    rfl
  · rw [List.forall_mem_append]
    exact ⟨h.admissible, List.forall_mem_singleton.mpr ⟨identifier, arity⟩⟩

theorem registerAll_concat (r : Registry α) (entries : List (Entry α)) (e : Entry α) :
    r.registerAll (entries ++ [e]) =
      r.registerAll entries >>= fun r => r.register e.name e.basis e.params := by
  rw [registerAll, List.foldlM_append]
  simp [registerAll]

theorem lists_of_registerAll (h : empty.registerAll entries = .ok r) :
    r.Lists entries ∧ r.Reachable ∧ r.frozen = false := by
  induction entries using List.reverseRecOn generalizing r with
  | nil =>
    cases h
    exact ⟨.empty, .empty, rfl⟩
  | append_singleton entries e ih =>
    rw [registerAll_concat] at h
    obtain ⟨before, registered, last⟩ := exists_of_bind_eq_ok h
    obtain ⟨listed, reach, -⟩ := ih registered
    obtain ⟨⟨building, -⟩, equal⟩ := register_eq_ok_iff.mp last
    exact ⟨listed.register last, .register reach last, by rw [equal]; exact building⟩

/-- Entries are registered just if each of them can be, and no two share a name. -/
theorem exists_registerAll_iff :
    (∃ r, empty.registerAll entries = .ok r) ↔
      (∀ e ∈ entries, e.Admissible) ∧ (entries.map Entry.name).Nodup := by
  constructor
  · rintro ⟨r, registered⟩
    obtain ⟨listed, reach, -⟩ := lists_of_registerAll registered
    exact ⟨listed.admissible, listed.names ▸ reach.wellFormed.distinct⟩
  · intro h
    induction entries using List.reverseRecOn with
    | nil => exact ⟨_, rfl⟩
    | append_singleton entries e ih =>
      obtain ⟨admissible, distinct⟩ := h
      rw [List.forall_mem_append] at admissible
      rw [List.map_append, List.nodup_append] at distinct
      obtain ⟨r, registered⟩ := ih ⟨admissible.1, distinct.1⟩
      obtain ⟨listed, -, building⟩ := lists_of_registerAll registered
      obtain ⟨identifier, arity⟩ := List.forall_mem_singleton.mp admissible.2
      have new : r.get? e.name = none := by
        rw [get?_eq_none_iff, listed.names]
        exact fun member => distinct.2.2 _ member _ (List.mem_singleton_self _) rfl
      have added := register_eq_ok_iff.mpr ⟨⟨building, identifier, new, arity⟩, rfl⟩
      exact ⟨_, by rw [registerAll_concat, registered]; exact added⟩

/-- What is registered under the entry's name is the entry's own, wherever its slice is. -/
def Holds (r : Registry α) (e : Entry α) : Prop :=
  ∃ offset, r.get? e.name = some ⟨e.name, e.basis, offset⟩ ∧
    paramSlice? r.params offset e.basis.arity = some e.stored ∧
    (r.warnings.filter fun w => w.term = e.name) = e.warnings

theorem filter_warnings_of_not_mem {name : String} (other : name ∉ entries.map Entry.name) :
    ((entries.flatMap Entry.warnings).filter fun w => w.term = name) = [] := by
  rw [List.filter_eq_nil_iff]
  intro w hw
  obtain ⟨e, member, own⟩ := List.mem_flatMap.mp hw
  rw [Entry.term_of_mem_warnings own]
  have apart : e.name ≠ name := by
    rintro rfl
    exact other (List.mem_map_of_mem member)
  simpa using apart

theorem filter_warnings_of_nodup {before after : List (Entry α)} {e : Entry α}
    (distinct : ((before ++ e :: after).map Entry.name).Nodup) :
    (((before ++ e :: after).flatMap Entry.warnings).filter fun w => w.term = e.name) =
      e.warnings := by
  rw [List.map_append, List.map_cons, List.nodup_append] at distinct
  obtain ⟨-, behind, apart⟩ := distinct
  have early : e.name ∉ before.map Entry.name := fun same =>
    apart _ same _ List.mem_cons_self rfl
  have late : e.name ∉ after.map Entry.name := (List.nodup_cons.mp behind).1
  have all : (e.warnings.filter fun w => w.term = e.name) = e.warnings := by
    rw [List.filter_eq_self]
    exact fun w own => by simpa using Entry.term_of_mem_warnings own
  rw [List.flatMap_append, List.flatMap_cons, List.filter_append, List.filter_append,
    filter_warnings_of_not_mem early, filter_warnings_of_not_mem late, all, List.nil_append,
    List.append_nil]

/-- The parameters of the entries in front fill the vector up to the slice of the next one. -/
theorem Lists.get?_eq_some {before after : List (Entry α)} {e : Entry α}
    (h : r.Lists (before ++ e :: after)) (reach : r.Reachable) :
    r.get? e.name = some ⟨e.name, e.basis, (before.flatMap Entry.stored).length⟩ := by
  have terms := h.terms
  rw [List.map_append, List.map_cons] at terms
  obtain ⟨front, rest, split, hfront, hrest⟩ := List.map_eq_append_iff.mp terms
  obtain ⟨⟨name, basis, offset⟩, back, rfl, equal, -⟩ := List.map_eq_cons_iff.mp hrest
  obtain ⟨rfl, rfl⟩ := Prod.mk.inj equal
  have arities : front.map Term.arity = before.map fun e => e.basis.arity := by
    have bases := congrArg (List.map fun p => p.2.arity) hfront
    rwa [List.map_map, List.map_map] at bases
  have sizes : before.map (fun e => e.stored.length) = before.map fun e => e.basis.arity :=
    List.map_congr_left fun e' early =>
      e'.length_stored.trans (h.admissible e' (List.mem_append_left _ early)).2
  have place : (before.flatMap Entry.stored).length = offset := by
    rw [List.length_flatMap, sizes, ← arities, ← reach.wellFormed.offset_split split]
  rw [place]
  exact reach.wellFormed.get?_eq_some_iff.mpr ⟨by simp [split], rfl⟩

theorem Lists.holds (h : r.Lists entries) (reach : r.Reachable) {e : Entry α}
    (member : e ∈ entries) : r.Holds e := by
  obtain ⟨before, after, rfl⟩ := List.append_of_mem member
  have own : e.stored.length = e.basis.arity :=
    e.length_stored.trans (h.admissible e member).2
  refine ⟨_, h.get?_eq_some reach, ?_, ?_⟩
  · rw [h.params, List.flatMap_append, List.flatMap_cons, paramSlice?_eq_some]
    · rw [← own, List.drop_left, List.take_left]
    · simp only [List.length_append, own]
      omega
  · have distinct := reach.wellFormed.distinct
    rw [h.names] at distinct
    rw [h.warnings]
    exact filter_warnings_of_nodup distinct

end Registry

end FormulaFit

import FormulaFit.Proofs.Postfix
import FormulaFit.Proofs.Registry
import FormulaFit.Proofs.Scan
import Mathlib.Data.List.Induction

namespace FormulaFit

section

variable {α : Type}

namespace Instruction

/-- The same instruction with other slices for terms. -/
def renumber (offset : Term α → Nat) : Instruction α → Instruction α
  | term t _ => term t (offset t)
  | i => i

theorem count_renumber (offset : Term α → Nat) (i : Instruction α) (position size : Nat) :
    (i.renumber offset).count position size = i.count position size := by
  cases i <;> rfl

theorem height_renumber (offset : Term α → Nat) (i : Instruction α) (size : Nat) :
    (i.renumber offset).height size = i.height size := by
  cases i <;> rfl

theorem termName?_renumber (offset : Term α → Nat) (i : Instruction α) :
    (i.renumber offset).termName? = i.termName? := by
  cases i <;> rfl

theorem map_renumber_operators (offset : Term α → Nat) (ops : List Operator) :
    (ops.map operator).map (renumber offset) = ops.map operator := by
  simp [renumber]

end Instruction

/-- Instructions that count alike one by one count alike in a row. -/
theorem countCode_map {f : Instruction α → Instruction α}
    (same : ∀ i position size, (f i).count position size = i.count position size)
    {code : List (Instruction α)} (position size : Nat) :
    countCode position size (code.map f) = countCode position size code := by
  induction code generalizing position size with
  | nil => rfl
  | cons i code ih => simp [countCode, same, ih]

theorem greatestHeight_map {f : Instruction α → Instruction α}
    (same : ∀ i size, (f i).height size = i.height size) {code : List (Instruction α)}
    (size : Nat) : greatestHeight size (code.map f) = greatestHeight size code := by
  induction code generalizing size with
  | nil => rfl
  | cons i code ih => simp [greatestHeight, same, ih]

theorem countCode_renumber (offset : Term α → Nat) (code : List (Instruction α))
    (position size : Nat) :
    countCode position size (code.map (.renumber offset)) = countCode position size code :=
  countCode_map (Instruction.count_renumber offset) position size

theorem greatestHeight_renumber (offset : Term α → Nat) (code : List (Instruction α))
    (size : Nat) :
    greatestHeight size (code.map (.renumber offset)) = greatestHeight size code :=
  greatestHeight_map (Instruction.height_renumber offset) size

/-- The names in the order of their first occurrence. -/
def firstOccurrences (names : List String) : List String :=
  names.foldl (fun found name => if found.contains name then found else found ++ [name]) []

theorem firstOccurrences_concat (names : List String) (name : String) :
    firstOccurrences (names ++ [name]) =
      if name ∈ firstOccurrences names then firstOccurrences names
      else firstOccurrences names ++ [name] := by
  simp [firstOccurrences, List.foldl_append]

theorem mem_firstOccurrences {names : List String} {name : String} :
    name ∈ firstOccurrences names ↔ name ∈ names := by
  induction names using List.reverseRecOn with
  | nil => simp [firstOccurrences]
  | append_singleton names last ih =>
    rw [firstOccurrences_concat, List.mem_append, List.mem_singleton, ← ih]
    split
    next known =>
      constructor
      · exact Or.inl
      · rintro (h | rfl)
        · exact h
        · exact known
    next new => rw [List.mem_append, List.mem_singleton]

/-- What occurs first in two lists is found in what occurs first in each. -/
theorem firstOccurrences_append (names more : List String) :
    firstOccurrences (firstOccurrences names ++ firstOccurrences more) =
      firstOccurrences (names ++ more) := by
  have right (names more : List String) :
      firstOccurrences (names ++ firstOccurrences more) = firstOccurrences (names ++ more) := by
    induction more using List.reverseRecOn with
    | nil => rfl
    | append_singleton more name ih =>
      rw [firstOccurrences_concat, ← List.append_assoc, firstOccurrences_concat]
      by_cases known : name ∈ more
      · simp [mem_firstOccurrences, known, ih]
      · simp only [mem_firstOccurrences, known, if_false, ← List.append_assoc,
          firstOccurrences_concat, ih]
  have left : firstOccurrences (firstOccurrences names ++ more) =
      firstOccurrences (names ++ more) := by
    induction more using List.reverseRecOn with
    | nil => simpa using right [] names
    | append_singleton more name ih =>
      rw [← List.append_assoc, ← List.append_assoc, firstOccurrences_concat,
        firstOccurrences_concat, ih]
  rw [right, left]

theorem Program.terms_eq (p : Program α) :
    p.terms = firstOccurrences (p.code.filterMap Instruction.termName?) :=
  rfl

/-- The second code, the latest instruction first, is the first one with every term on its slice of
a vector of the given terms alone, which are listed by first mention. -/
structure Compacted (terms : List (Term α)) (code compact : List (Instruction α)) : Prop where
  renumbered : compact = code.map (.renumber fun t => offsetIn terms t.name)
  slices : ∀ t offset, .term t offset ∈ code → t ∈ terms ∧ offset = t.offset
  order : firstOccurrences (code.reverse.filterMap Instruction.termName?) = terms.map Term.name

namespace Compacted

variable {terms : List (Term α)} {code compact : List (Instruction α)}

theorem number (h : Compacted terms code compact) (v : α) :
    Compacted terms (.number v :: code) (.number v :: compact) := by
  refine ⟨by simp [h.renumbered, Instruction.renumber], ?_, ?_⟩
  · intro t offset member
    exact h.slices t offset (by simpa using member)
  · rw [List.reverse_cons, List.filterMap_append]
    simp only [List.filterMap_cons, Instruction.termName?, List.filterMap_nil, List.append_nil,
      h.order]

theorem operators (h : Compacted terms code compact) (ops : List Operator) :
    Compacted terms (ops.map .operator ++ code) (ops.map .operator ++ compact) := by
  refine ⟨?_, ?_, ?_⟩
  · rw [List.map_append, Instruction.map_renumber_operators, h.renumbered]
  · intro t offset member
    exact h.slices t offset (by simpa using member)
  · have none : (ops.map (Instruction.operator (α := α))).reverse.filterMap
        Instruction.termName? = [] := by
      simp [List.filterMap_eq_nil_iff, Instruction.termName?]
    rw [List.reverse_append, List.filterMap_append, none, List.append_nil, h.order]

/-- A term that is mentioned again keeps its slice. -/
theorem again (h : Compacted terms code compact) {t : Term α} (member : t ∈ terms) :
    Compacted terms (.term t t.offset :: code) (.term t (offsetIn terms t.name) :: compact) := by
  refine ⟨by simp [h.renumbered, Instruction.renumber], ?_, ?_⟩
  · intro u offset hu
    rcases List.mem_cons.mp hu with same | hu
    · cases same
      exact ⟨member, rfl⟩
    · exact h.slices u offset hu
  · have known : t.name ∈ terms.map Term.name := List.mem_map_of_mem member
    rw [List.reverse_cons, List.filterMap_append]
    simp only [List.filterMap_cons, Instruction.termName?, List.filterMap_nil,
      firstOccurrences_concat, h.order, known, if_true]

/-- A term that is mentioned for the first time takes the next slice. -/
theorem first (h : Compacted terms code compact) {t : Term α}
    (new : t.name ∉ terms.map Term.name) :
    Compacted (terms ++ [t]) (.term t t.offset :: code)
      (.term t (terms.map Term.arity).sum :: compact) := by
  refine ⟨?_, ?_, ?_⟩
  · have last : offsetIn (terms ++ [t]) t.name = (terms.map Term.arity).sum := by
      rw [offsetIn_append_of_not_mem new]
      simp [offsetIn]
    rw [List.map_cons, h.renumbered]
    simp only [Instruction.renumber, last, List.cons.injEq, true_and]
    apply List.map_congr_left
    intro i hi
    cases i with
    | number v => rfl
    | operator op => rfl
    | term u offset =>
      simp only [Instruction.renumber]
      rw [offsetIn_append_of_mem (h.slices u offset hi).1]
  · intro u offset hu
    rcases List.mem_cons.mp hu with same | hu
    · cases same
      exact ⟨by simp, rfl⟩
    · obtain ⟨member, eq⟩ := h.slices u offset hu
      exact ⟨List.mem_append_left _ member, eq⟩
  · rw [List.reverse_cons, List.filterMap_append]
    simp only [List.filterMap_cons, Instruction.termName?, List.filterMap_nil,
      firstOccurrences_concat, h.order, new, if_false, List.map_append, List.map_cons, List.map_nil]

end Compacted

end

variable {α : Type} {registry : Registry α}

namespace Scan

/-- The second scan reads for the compact layout what the first one reads for the full one; the
terms are those mentioned so far. -/
structure Mirrors (registry : Registry α) (terms : List (Term α)) (full compact : Scan α) :
    Prop where
  code : Compacted terms full.code compact.code
  pending : compact.pending = full.pending
  wantsOperand : compact.wantsOperand = full.wantsOperand
  mentions : compact.mentions = terms.map fun t => ⟨t, offsetIn terms t.name⟩
  length : compact.length = (terms.map Term.arity).sum
  distinct : (terms.map Term.name).Nodup
  registered : ∀ t ∈ terms, registry.get? t.name = some t

theorem Mirrors.start (registry : Registry α) : Mirrors registry [] Scan.start Scan.start :=
  ⟨⟨rfl, by simp [Scan.start], rfl⟩, rfl, rfl, rfl, rfl, List.nodup_nil, by simp⟩

theorem Mirrors.mention {terms : List (Term α)} {full compact : Scan α}
    (h : Mirrors registry terms full compact) {name : String} {t : Term α}
    (ht : registry.get? name = some t) :
    ∃ terms, Mirrors registry terms (full.mention .full t) (compact.mention .compact t) := by
  have same := Registry.name_of_get? ht
  have found : (compact.mentions.find? fun m => m.term.name = t.name) =
      (terms.find? fun u => u.name = t.name).map fun u => ⟨u, offsetIn terms u.name⟩ := by
    rw [h.mentions, List.find?_map]
    rfl
  cases hf : terms.find? fun u => u.name = t.name with
  | some u =>
    have member := List.mem_of_find?_eq_some hf
    have names : u.name = t.name := by simpa using List.find?_some hf
    have equal : u = t := by
      have := h.registered u member
      rw [names, same, ht] at this
      exact (Option.some.inj this).symm
    subst u
    rw [hf] at found
    refine ⟨terms, ?_⟩
    simp only [Scan.mention, found, Option.map_some]
    exact ⟨h.code.again member, h.pending, rfl, h.mentions, h.length, h.distinct, h.registered⟩
  | none =>
    have new : t.name ∉ terms.map Term.name := by simpa using hf
    have first := h.code.first new
    rw [hf] at found
    refine ⟨terms ++ [t], ?_⟩
    simp only [Scan.mention, found, Option.map_none]
    refine ⟨?_, h.pending, rfl, ?_, ?_, ?_, ?_⟩
    · simpa [Scan.emit, h.length] using first
    · have old : ∀ u ∈ terms, offsetIn (terms ++ [t]) u.name = offsetIn terms u.name :=
        fun u hu => offsetIn_append_of_mem hu [t]
      have last : offsetIn (terms ++ [t]) t.name = (terms.map Term.arity).sum := by
        rw [offsetIn_append_of_not_mem new]
        simp [offsetIn]
      simp only [Scan.emit, h.mentions, h.length, List.map_append, List.map_cons, List.map_nil,
        last]
      congr 1
      exact List.map_congr_left fun u hu => by rw [old u hu]
    · simp [Scan.emit, h.length]
    · rw [List.map_append, List.nodup_append]
      refine ⟨h.distinct, by simp, ?_⟩
      intro a ha b hb
      have : b = t.name := by simpa using hb
      rintro rfl
      exact new (this ▸ ha)
    · intro u hu
      rcases List.mem_append.mp hu with hu | hu
      · exact h.registered u hu
      · rw [List.mem_singleton.mp hu, same, ht]

variable [Scalar α]

/-- Both scans take a token alike, or refuse it for the same reason. -/
theorem Mirrors.step {terms : List (Term α)} {full compact : Scan α}
    (h : Mirrors registry terms full compact) (t : Token) :
    (∃ e, full.step registry .full t = .error e ∧ compact.step registry .compact t = .error e) ∨
      ∃ terms full' compact', full.step registry .full t = .ok full' ∧
        compact.step registry .compact t = .ok compact' ∧
        Mirrors registry terms full' compact' := by
  cases hs : full.step registry .full t with
  | error e => exact Or.inl ⟨e, rfl, step_error_congr h.pending h.wantsOperand hs .compact⟩
  | ok full' =>
    refine Or.inr ?_
    cases takes_of_step hs with
    | @number text n kind wants hn =>
      refine ⟨terms, _, _, rfl, (Takes.number kind (h.wantsOperand.trans wants) hn).step, ?_⟩
      exact ⟨h.code.number n.value, h.pending, rfl, h.mentions, h.length, h.distinct, h.registered⟩
    | identifier kind wants hn =>
      obtain ⟨terms', hm⟩ := h.mention hn
      exact ⟨terms', _, _, rfl, (Takes.identifier kind (h.wantsOperand.trans wants) hn).step, hm⟩
    | openParen kind wants =>
      refine ⟨terms, _, _, rfl, (Takes.openParen kind (h.wantsOperand.trans wants)).step, ?_⟩
      exact ⟨h.code, by rw [h.pending], h.wantsOperand, h.mentions, h.length, h.distinct,
        h.registered⟩
    | @closeParen code pending kind holds hc =>
      rcases popGroup?_eq (α := α) full.pending with unopened | ⟨ops, rest, closed⟩
      · simp [unopened] at hc
      · rw [closed] at hc
        cases hc
        have hcompact := closed compact.code
        rw [← h.pending] at hcompact
        refine ⟨terms, _, _, rfl,
          (Takes.closeParen kind (h.wantsOperand.trans holds) hcompact).step, ?_⟩
        exact ⟨h.code.operators ops, rfl, h.wantsOperand, h.mentions, h.length, h.distinct,
          h.registered⟩
    | @operator op code pending kind holds hp =>
      obtain ⟨ops, rest, popped⟩ := popStronger_eq (α := α) op full.pending
      rw [popped] at hp
      cases hp
      have hcompact := popped compact.code
      rw [← h.pending] at hcompact
      refine ⟨terms, _, _, rfl,
        (Takes.operator kind (h.wantsOperand.trans holds) hcompact).step, ?_⟩
      exact ⟨h.code.operators ops, rfl, rfl, h.mentions, h.length, h.distinct, h.registered⟩

theorem Mirrors.run {terms : List (Term α)} {full compact : Scan α}
    (h : Mirrors registry terms full compact) (tokens : List Token) :
    (∃ e, full.run registry .full tokens = .error e ∧
        compact.run registry .compact tokens = .error e) ∨
      ∃ terms full' compact', full.run registry .full tokens = .ok full' ∧
        compact.run registry .compact tokens = .ok compact' ∧
        Mirrors registry terms full' compact' := by
  induction tokens generalizing terms full compact with
  | nil => exact Or.inr ⟨terms, full, compact, rfl, rfl, h⟩
  | cons t tokens ih =>
    rcases h.step t with ⟨e, hf, hc⟩ | ⟨terms', full', compact', hf, hc, h'⟩
    · exact Or.inl ⟨e, by rw [Scan.run, hf], by rw [Scan.run, hc]⟩
    · rw [run_cons_of_ok hf, run_cons_of_ok hc]
      exact ih h'

end Scan

/-- The second program computes on the parameters of the given terms alone what the first one
computes on all parameters. -/
structure Program.Compacts (registry : Registry α) (terms : List (Term α))
    (full compact : Program α) : Prop where
  fullLayout : full.layout = .full
  compactLayout : compact.layout = .compact
  fullLength : full.paramsLength = registry.paramsLength
  compactLength : compact.paramsLength = (terms.map Term.arity).sum
  bindings : compact.bindings = terms.map fun t => ⟨t.offset, t.arity⟩
  code : Compacted terms full.code.reverse compact.code.reverse
  depth : compact.depth = full.depth
  distinct : (terms.map Term.name).Nodup
  registered : ∀ t ∈ terms, registry.get? t.name = some t

theorem Program.Compacts.code_eq {terms : List (Term α)} {full compact : Program α}
    (h : full.Compacts registry terms compact) :
    compact.code = full.code.map (.renumber fun t => offsetIn terms t.name) := by
  have reversed := congrArg List.reverse h.code.renumbered
  rwa [List.reverse_reverse, ← List.map_reverse, List.reverse_reverse] at reversed

theorem Program.Compacts.verify_eq {terms : List (Term α)} {full compact : Program α}
    (h : full.Compacts registry terms compact) : compact.verify = full.verify := by
  rw [Program.verify, Program.verify, h.code_eq, countCode_renumber]

/-- Both layouts compile the same formulas and refuse the others for the same reason. -/
theorem compile_compacts [Scalar α] (registry : Registry α) (formula : String) :
    (∃ e, compile formula registry .full = .error e ∧
        compile formula registry .compact = .error e) ∨
      ∃ terms full compact, compile formula registry .full = .ok full ∧
        compile formula registry .compact = .ok compact ∧
        full.Compacts registry terms compact := by
  rcases (Scan.Mirrors.start registry).run (tokenize formula) with
    ⟨e, hf, hc⟩ | ⟨terms, full, compact, hf, hc, h⟩
  · exact Or.inl ⟨e, by rw [compile, compileTokens, hf], by rw [compile, compileTokens, hc]⟩
  · rw [compile, compile, compileTokens, compileTokens, hf, hc]
    simp only [Scan.finish, h.pending]
    rcases Scan.popAll_eq (α := α) full.pending with ⟨e, popped⟩ | ⟨ops, popped⟩
    · exact Or.inl ⟨e, by rw [popped], by rw [popped]⟩
    · have code := h.code.operators ops
      have depth : greatestHeight 0 (ops.map Instruction.operator ++ compact.code).reverse =
          greatestHeight 0 (ops.map Instruction.operator ++ full.code).reverse := by
        rw [code.renumbered, ← List.map_reverse, greatestHeight_renumber]
      simp only [popped, depth]
      split
      next => exact Or.inl ⟨_, rfl, rfl⟩
      next =>
        refine Or.inr ⟨terms, _, _, rfl, rfl, rfl, rfl, rfl, h.length, ?_, ?_, rfl, h.distinct,
          h.registered⟩
        · simp [h.mentions]
        · simpa using code

theorem compile_eq_error_of_full [Scalar α] {formula : String} {e : FormulaError}
    (h : compile formula registry .full = .error e) (layout : Layout) :
    compile formula registry layout = .error e := by
  rcases compile_compacts registry formula with ⟨e', hf, hc⟩ | ⟨terms, full, compact, hf, -⟩
  · cases h.symm.trans hf
    cases layout <;> assumption
  · cases h.symm.trans hf

theorem compacts_of_full [Scalar α] {formula : String} {full : Program α}
    (h : compile formula registry .full = .ok full) :
    ∃ terms compact, compile formula registry .compact = .ok compact ∧
      full.Compacts registry terms compact := by
  rcases compile_compacts registry formula with ⟨e, hf, -⟩ | ⟨terms, program, compact, hf, hc, both⟩
  · cases h.symm.trans hf
  · cases h.symm.trans hf
    exact ⟨terms, compact, hc, both⟩

theorem compacts_of_compact [Scalar α] {formula : String} {compact : Program α}
    (h : compile formula registry .compact = .ok compact) :
    ∃ terms full, compile formula registry .full = .ok full ∧
      full.Compacts registry terms compact := by
  rcases compile_compacts registry formula with ⟨e, -, hc⟩ | ⟨terms, full, program, hf, hc, both⟩
  · cases h.symm.trans hc
  · cases h.symm.trans hc
    exact ⟨terms, full, hf, both⟩

end FormulaFit

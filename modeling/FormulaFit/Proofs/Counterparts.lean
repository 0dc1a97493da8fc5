import FormulaFit.Proofs.Growth

namespace FormulaFit

namespace Registry

variable {α : Type} [Scalar α] {r r' : Registry α}

/-- Both registries know the same names, each with the same basis. -/
def SameTerms (r r' : Registry α) : Prop :=
  ∀ name, (r'.get? name).map Term.basis = (r.get? name).map Term.basis

/-- The registry's own term of the same name. -/
def counterpart (r : Registry α) (t : Term α) : Term α :=
  (r.get? t.name).getD t

omit [Scalar α] in
theorem counterpart_name (r : Registry α) (t : Term α) : (r.counterpart t).name = t.name := by
  rw [counterpart]
  cases found : r.get? t.name with
  | none => rfl
  | some t' => exact name_of_get? found

omit [Scalar α] in
theorem SameTerms.get?_eq_some (h : r.SameTerms r') {name : String} {t : Term α}
    (found : r.get? name = some t) :
    r'.get? name = some (r'.counterpart t) ∧ (r'.counterpart t).basis = t.basis := by
  have basis := h name
  obtain rfl := name_of_get? found
  rw [found] at basis
  obtain ⟨t', found', same⟩ := Option.map_eq_some_iff.mp basis
  have own : r'.counterpart t = t' := by
    rw [counterpart, found']
    rfl
  rw [own]
  exact ⟨found', same⟩

omit [Scalar α] in
theorem SameTerms.get?_eq_none (h : r.SameTerms r') {name : String}
    (unknown : r.get? name = none) : r'.get? name = none := by
  have basis := h name
  rw [unknown] at basis
  exact Option.map_eq_none_iff.mp basis

end Registry

/-- The same instruction with the registry's own terms, on the same slices. -/
def Instruction.retarget {α : Type} (r : Registry α) : Instruction α → Instruction α
  | term t offset => term (r.counterpart t) offset
  | i => i

/-- The same instruction with the registry's own terms, on their slices of its parameters. -/
def Instruction.transfer {α : Type} (r : Registry α) (i : Instruction α) : Instruction α :=
  (i.retarget r).renumber Term.offset

/-- The error without the suggestion of another name. -/
def FormulaError.withoutHint : FormulaError → FormulaError
  | unknownIdentifier name span _ => unknownIdentifier name span none
  | e => e

section

variable {α : Type} (r : Registry α)

theorem countCode_transfer (code : List (Instruction α)) (position size : Nat) :
    countCode position size (code.map (.transfer r)) = countCode position size code :=
  countCode_map (fun i _ _ => by cases i <;> rfl) position size

theorem greatestHeight_transfer (code : List (Instruction α)) (size : Nat) :
    greatestHeight size (code.map (.transfer r)) = greatestHeight size code :=
  greatestHeight_map (fun i _ => by cases i <;> rfl) size

end

namespace Scan

variable {α : Type} [Scalar α] {r r' : Registry α}

/-- The scan with the registry's own terms in its code. -/
def transfer (r : Registry α) (s : Scan α) : Scan α :=
  { s with code := s.code.map (.transfer r) }

omit [Scalar α] in
theorem map_transfer_operators (r : Registry α) (ops : List Operator)
    (code : List (Instruction α)) :
    (ops.map Instruction.operator ++ code).map (Instruction.transfer r) =
      ops.map Instruction.operator ++ code.map (Instruction.transfer r) := by
  rw [List.map_append, List.map_map]
  rfl

theorem step_transfer (h : r.SameTerms r') {s next : Scan α} {t : Token}
    (hs : s.step r .full t = .ok next) :
    (s.transfer r').step r' .full t = .ok (next.transfer r') := by
  cases takes_of_step hs with
  | number kind wants hn => exact (Takes.number (s := s.transfer r') kind wants hn).step
  | identifier kind wants hn =>
    obtain ⟨found, -⟩ := h.get?_eq_some hn
    exact (Takes.identifier (s := s.transfer r') kind wants found).step
  | openParen kind wants => exact (Takes.openParen (s := s.transfer r') kind wants).step
  | @closeParen code pending kind holds hc =>
    rcases popGroup?_eq (α := α) s.pending with unopened | ⟨ops, rest, closed⟩
    · simp [unopened] at hc
    · rw [closed] at hc
      cases hc
      have hmoved := closed (s.code.map (Instruction.transfer r'))
      rw [← map_transfer_operators] at hmoved
      exact (Takes.closeParen (s := s.transfer r') kind holds hmoved).step
  | @operator op code pending kind holds hp =>
    obtain ⟨ops, rest, popped⟩ := popStronger_eq (α := α) op s.pending
    rw [popped] at hp
    cases hp
    have hmoved := popped (s.code.map (Instruction.transfer r'))
    rw [← map_transfer_operators] at hmoved
    exact (Takes.operator (s := s.transfer r') kind holds hmoved).step

theorem step_error_of_sameTerms (h : r.SameTerms r') {layout : Layout} {s : Scan α} {t : Token}
    {e : FormulaError} (hs : s.step r layout t = .error e) :
    ∃ e', s.step r' layout t = .error e' ∧ e'.withoutHint = e.withoutHint := by
  unfold Scan.step at hs ⊢
  cases kind : t.kind with
  | identifier name =>
    simp only [kind] at hs ⊢
    cases wants : s.wantsOperand with
    | false => exact ⟨e, by simpa [wants] using hs, rfl⟩
    | true =>
      cases found : r.get? name with
      | some term => simp [wants, found] at hs
      | none =>
        have hint : e = .unknownIdentifier name t.span
            (mostSimilar? name (r.terms.map Term.name)) := by
          simpa [wants, found] using hs.symm
        subst hint
        simp [h.get?_eq_none found, FormulaError.withoutHint]
  | number | openParen | closeParen | operator | other =>
    exact ⟨e, by simpa only [kind] using hs, rfl⟩

theorem run_transfer (h : r.SameTerms r') {s last : Scan α} {tokens : List Token}
    (hr : s.run r .full tokens = .ok last) :
    (s.transfer r').run r' .full tokens = .ok (last.transfer r') := by
  induction tokens generalizing s with
  | nil =>
    cases hr
    rfl
  | cons t tokens ih =>
    rw [Scan.run] at hr
    cases hs : s.step r .full t with
    | error e => simp [hs] at hr
    | ok next =>
      rw [hs] at hr
      rw [run_cons_of_ok (step_transfer h hs)]
      exact ih hr

theorem run_error_transfer (h : r.SameTerms r') {s : Scan α} {tokens : List Token}
    {e : FormulaError} (hr : s.run r .full tokens = .error e) :
    ∃ e', (s.transfer r').run r' .full tokens = .error e' ∧
      e'.withoutHint = e.withoutHint := by
  induction tokens generalizing s with
  | nil => cases hr
  | cons t tokens ih =>
    rw [Scan.run] at hr
    cases hs : s.step r .full t with
    | error reason =>
      rw [hs] at hr
      cases hr
      have pending : (s.transfer r').pending = s.pending := rfl
      have moved : (s.transfer r').step r .full t = .error e :=
        step_error_congr pending rfl hs .full
      obtain ⟨e', he', same⟩ := step_error_of_sameTerms h moved
      exact ⟨e', by rw [Scan.run, he'], same⟩
    | ok next =>
      rw [hs] at hr
      rw [run_cons_of_ok (step_transfer h hs)]
      exact ih hr

end Scan

/-- The program of all parameters with the registry's own terms. -/
def Program.transfer {α : Type} (r : Registry α) (p : Program α) : Program α :=
  { p with code := p.code.map (.transfer r), paramsLength := r.paramsLength }

section

variable {α : Type} [Scalar α] {r r' : Registry α} {formula : String} {p : Program α}

omit [Scalar α] in
theorem Scan.finish_transfer (s : Scan α) (formula : String) (r r' : Registry α) :
    (s.transfer r').finish formula r' .full =
      (s.finish formula r .full).map (Program.transfer r') := by
  have waiting : (s.transfer r').pending = s.pending := rfl
  have moved : (s.transfer r').code = s.code.map (.transfer r') := rfl
  rw [Scan.finish, Scan.finish, waiting, moved]
  rcases Scan.popAll_eq (α := α) s.pending with ⟨e, popped⟩ | ⟨ops, popped⟩
  · rw [popped, popped]
    rfl
  · have code : (ops.map Instruction.operator ++ s.code.map (Instruction.transfer r')).reverse =
        (ops.map Instruction.operator ++ s.code).reverse.map (Instruction.transfer r') := by
      rw [← Scan.map_transfer_operators, List.map_reverse]
    simp only [popped, code, greatestHeight_transfer]
    split <;> rfl

/-- In registries of the same terms the same formulas compile, to instructions that differ in the
slices alone; the others are refused for the same reason. -/
theorem compile_full_cases (h : r.SameTerms r') (formula : String) :
    (∃ e e', compile formula r .full = .error e ∧ compile formula r' .full = .error e' ∧
        e'.withoutHint = e.withoutHint) ∨
      ∃ p, compile formula r .full = .ok p ∧
        compile formula r' .full = .ok (p.transfer r') := by
  rw [compile, compile, compileTokens, compileTokens]
  have start : (Scan.start : Scan α).transfer r' = Scan.start := rfl
  cases hr : Scan.start.run r .full (tokenize formula) with
  | error e =>
    obtain ⟨e', hr', same⟩ := Scan.run_error_transfer h hr
    rw [start] at hr'
    exact Or.inl ⟨e, e', rfl, by rw [hr'], same⟩
  | ok last =>
    have hr' := Scan.run_transfer h hr
    rw [start] at hr'
    simp only [hr', last.finish_transfer formula r r']
    cases last.finish formula r .full with
    | error e => exact Or.inl ⟨e, e, rfl, rfl, rfl⟩
    | ok p => exact Or.inr ⟨p, rfl, rfl⟩

end

section

variable {α : Type}

theorem Instruction.termName?_retarget (r : Registry α) (i : Instruction α) :
    (i.retarget r).termName? = i.termName? := by
  cases i with
  | number | operator => rfl
  | term t offset => exact congrArg some (r.counterpart_name t)

theorem Instruction.termName?_transfer (r : Registry α) (i : Instruction α) :
    (i.transfer r).termName? = i.termName? :=
  (termName?_renumber Term.offset _).trans (i.termName?_retarget r)

theorem Instruction.text_retarget [Scalar α] (r : Registry α) (i : Instruction α) :
    (i.retarget r).text = i.text := by
  cases i with
  | number | operator => rfl
  | term t offset => exact r.counterpart_name t

theorem Instruction.text_transfer [Scalar α] (r : Registry α) (i : Instruction α) :
    (i.transfer r).text = i.text := by
  rw [← i.text_retarget r, transfer]
  cases i <;> rfl

end

theorem Program.terms_eq_of_code {α : Type} {p p' : Program α} {f : Instruction α → Instruction α}
    (code : p'.code = p.code.map f) (name : ∀ i, (f i).termName? = i.termName?) :
    p'.terms = p.terms := by
  rw [Program.terms_eq, Program.terms_eq, code, List.filterMap_map]
  exact congrArg firstOccurrences (List.filterMap_congr fun i _ => name i)

theorem Program.postfixText_eq_of_code {α : Type} [Scalar α] {p p' : Program α}
    {f : Instruction α → Instruction α} (code : p'.code = p.code.map f)
    (text : ∀ i, (f i).text = i.text) : p'.postfixText = p.postfixText := by
  rw [Program.postfixText, Program.postfixText, code, List.map_map]
  exact congrArg _ (List.map_congr_left fun i _ => text i)

end FormulaFit

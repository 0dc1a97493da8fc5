import FormulaFit.Proofs.Cells

namespace FormulaFit

theorem forall₂_congr_of_forall {β γ : Type} {R S : β → γ → Prop} {p : β → Prop} {xs : List β}
    {ys : List γ} (h : ∀ x ∈ xs, p x) (same : ∀ x y, p x → (R x y ↔ S x y)) :
    List.Forall₂ R xs ys ↔ List.Forall₂ S xs ys := by
  have only (T : β → γ → Prop) :
      List.Forall₂ T xs ys ↔ List.Forall₂ (fun x y => p x ∧ T x y) xs ys := by
    rw [List.forall₂_and_left]
    exact (and_iff_right h).symm
  rw [only R, only S]
  constructor
  · exact List.Forall₂.imp fun x y both => ⟨both.1, (same x y both.1).mp both.2⟩
  · exact List.Forall₂.imp fun x y both => ⟨both.1, (same x y both.1).mpr both.2⟩

namespace Csv.Table

/-- Every row that is readable has as many cells as the header. -/
def Regular (t : Csv.Table) : Prop :=
  ∀ header, t.header = some header → ∀ cells, some cells ∈ t.rows → cells.length = header.length

theorem header_cases (t : Csv.Table) : t.header = none ∨ t.header = some [] ∨
    ∃ header, t.header = some header ∧ header ≠ [] := by
  cases t.header with
  | none => exact .inl rfl
  | some header =>
    cases header with
    | nil => exact .inr (.inl rfl)
    | cons cell cells => exact .inr (.inr ⟨_, rfl, List.cons_ne_nil cell cells⟩)

variable {α : Type} [Scalar α]

/-- A table holds a histogram: the bins of its rows in order, with strictly increasing centres. -/
def Holds (t : Csv.Table) (h : Histogram α) : Prop :=
  ∃ (header : List String) (columns : HistogramColumns), t.header = some header ∧
    columns.AreLeftmost (header.map columnName) ∧
      List.Forall₂ (columns.Yield header.length) t.rows h.bins ∧ h.centres.IsChain (· < ·)

/-- Why a table is no histogram; of several causes the first one in the order of the constructors,
and of several rows the first one. -/
inductive Fails (t : Csv.Table) : TableError α → Prop
  | unreadableHeader (unreadable : t.header = none) : Fails t .unreadableHeader
  | emptyHeader (empty : t.header = some []) : Fails t .emptyHeader
  | missingX {header : List String} (read : t.header = some header) (inhabited : header ≠ [])
    (missing : "x" ∉ header.map columnName) : Fails t (.missingColumn "x")
  | missingY {header : List String} (read : t.header = some header)
    (x : "x" ∈ header.map columnName) (missing : "y" ∉ header.map columnName) :
    Fails t (.missingColumn "y")
  | row {header : List String} {columns : HistogramColumns}
    {before after : List (Option (List String))} {row : Option (List String)} {e : TableError α}
    (read : t.header = some header) (found : columns.AreLeftmost (header.map columnName))
    (rows : t.rows = before ++ row :: after)
    (earlier : ∀ other ∈ before, ∃ bin : Point α, columns.Yield header.length other bin)
    (fails : columns.Fail header.length (before.length + 1) row e) : Fails t e
  | noRows {header : List String} {columns : HistogramColumns} (read : t.header = some header)
    (found : columns.AreLeftmost (header.map columnName)) (none : t.rows = []) :
    Fails t (.histogram .empty)
  | unordered {header : List String} {columns : HistogramColumns} {bins : List (Point α)}
    {before after : List α} {x y : α} (read : t.header = some header)
    (found : columns.AreLeftmost (header.map columnName))
    (yield : List.Forall₂ (columns.Yield header.length) t.rows bins)
    (centres : bins.map Point.x = before ++ x :: y :: after)
    (ordered : (before ++ [x]).IsChain (· < ·)) (turn : ¬x < y) :
    Fails t (.histogram (.unordered (before.length + 1)))

end Csv.Table

namespace Histogram

variable {α : Type} [Scalar α] {t : Csv.Table} {header : List String} {columns : HistogramColumns}

theorem ofTable_of_header (read : t.header = some header) (inhabited : header ≠ []) :
    (ofTable t : Except (TableError α) (Histogram α)) =
      HistogramColumns.find (Headers.ofCells header) >>= fun columns =>
        readBins columns header.length 1 t.rows >>= fun bins =>
          (ofBins bins).mapError .histogram := by
  have width : (Headers.ofCells header).length = header.length := List.length_map _
  cases header with
  | nil => exact absurd rfl inhabited
  | cons cell cells =>
    rw [ofTable, read, ← width]

theorem ofTable_of_areLeftmost (read : t.header = some header)
    (found : columns.AreLeftmost (header.map columnName)) :
    (ofTable t : Except (TableError α) (Histogram α)) =
      readBins columns header.length 1 t.rows >>= fun bins =>
        (ofBins bins).mapError .histogram := by
  have inhabited : header ≠ [] := by
    rintro rfl
    exact List.not_mem_nil found.x.mem
  rw [ofTable_of_header read inhabited, HistogramColumns.find_eq_ok_iff.mpr found]
  rfl

theorem ofTable_eq_ok_iff {h : Histogram α} : ofTable t = .ok h ↔ t.Holds h := by
  constructor
  · intro made
    rcases t.header_cases with read | read | ⟨header, read, inhabited⟩
    · rw [ofTable, read] at made
      cases made
    · rw [ofTable, read] at made
      cases made
    · rw [ofTable_of_header read inhabited] at made
      obtain ⟨columns, found, made⟩ := exists_of_bind_eq_ok made
      obtain ⟨bins, yields, made⟩ := exists_of_bind_eq_ok made
      rw [HistogramColumns.find_eq_ok_iff] at found
      rw [HistogramColumns.readBins_eq_ok_iff found.inside] at yields
      obtain ⟨-, ordered, rfl⟩ := ofBins_eq_ok_iff.mp (eq_ok_of_mapError_eq_ok made)
      exact ⟨header, columns, read, found, yields, ordered⟩
  · rintro ⟨header, columns, read, found, yields, ordered⟩
    have made : ofBins h.bins = .ok h := ofBins_eq_ok_iff.mpr ⟨h.nonempty, ordered, rfl⟩
    rw [ofTable_of_areLeftmost read found,
      (HistogramColumns.readBins_eq_ok_iff found.inside).mpr yields]
    exact congrArg (Except.mapError TableError.histogram) made

/-- Once the columns are found, a table fails at its first row without a bin, or else as the bins
do. -/
theorem ofTable_eq_error_iff_of_areLeftmost (read : t.header = some header)
    (found : columns.AreLeftmost (header.map columnName)) {e : TableError α} :
    ofTable t = .error e ↔
      (∃ before row after, t.rows = before ++ row :: after ∧
        (∀ other ∈ before, ∃ bin : Point α, columns.Yield header.length other bin) ∧
          columns.Fail header.length (before.length + 1) row e) ∨
      ∃ bins, List.Forall₂ (columns.Yield header.length) t.rows bins ∧
        ∃ cause, ofBins bins = .error cause ∧ e = .histogram cause := by
  rw [ofTable_of_areLeftmost read found, bind_eq_error_iff,
    HistogramColumns.readBins_eq_error_iff found.inside]
  simp only [HistogramColumns.readBins_eq_ok_iff found.inside, Nat.add_comm 1]
  refine or_congr_right (exists_congr fun bins => and_congr_right fun _ => ?_)
  constructor
  · exact exists_of_mapError_eq_error
  · rintro ⟨cause, refused, rfl⟩
    rw [refused]
    rfl

theorem fails_of_ofTable {e : TableError α} (failed : ofTable t = .error e) : t.Fails e := by
  rcases t.header_cases with read | read | ⟨header, read, inhabited⟩
  · rw [ofTable, read] at failed
    cases failed
    exact .unreadableHeader read
  · rw [ofTable, read] at failed
    cases failed
    exact .emptyHeader read
  · cases found : (HistogramColumns.find (Headers.ofCells header) :
      Except (TableError α) HistogramColumns) with
    | error missing =>
      rw [ofTable_of_header read inhabited, found] at failed
      cases failed
      rcases HistogramColumns.find_eq_error_iff.mp found with ⟨x, rfl⟩ | ⟨x, y, rfl⟩
      · exact .missingX read inhabited x
      · exact .missingY read x y
    | ok columns =>
      rw [HistogramColumns.find_eq_ok_iff] at found
      rcases (ofTable_eq_error_iff_of_areLeftmost read found).mp failed with
        ⟨before, row, after, rows, earlier, fails⟩ | ⟨bins, yields, cause, refused, rfl⟩
      · exact .row read found rows earlier fails
      · rcases ofBins_eq_error_iff.mp refused with ⟨rfl, rfl⟩ | ⟨i, first, rfl⟩
        · exact .noRows read found (List.forall₂_nil_right_iff.mp yields)
        · obtain ⟨before, x, y, after, centres, ordered, turn, rfl⟩ :=
            firstUnordered?_eq_some_iff.mp first
          exact .unordered read found yields centres ordered turn

theorem ofTable_eq_error_iff {e : TableError α} : ofTable t = .error e ↔ t.Fails e := by
  refine ⟨fails_of_ofTable, fun fails => ?_⟩
  cases fails with
  | unreadableHeader read => rw [ofTable, read]
  | emptyHeader read => rw [ofTable, read]
  | missingX read inhabited x =>
    rw [ofTable_of_header read inhabited, HistogramColumns.find_eq_error_iff.mpr (.inl ⟨x, rfl⟩)]
    rfl
  | missingY read x y =>
    have inhabited := List.ne_nil_of_mem (List.mem_map.mp x).choose_spec.1
    rw [ofTable_of_header read inhabited,
      HistogramColumns.find_eq_error_iff.mpr (.inr ⟨x, y, rfl⟩)]
    rfl
  | row read found rows earlier fails =>
    exact (ofTable_eq_error_iff_of_areLeftmost read found).mpr
      (.inl ⟨_, _, _, rows, earlier, fails⟩)
  | noRows read found none =>
    rw [ofTable_of_areLeftmost read found, none]
    rfl
  | unordered read found yields centres ordered turn =>
    have first := firstUnordered?_eq_some_iff.mpr ⟨_, _, _, _, centres, ordered, turn, rfl⟩
    have refused := ofBins_eq_error_iff.mpr (.inr ⟨_, first, rfl⟩)
    exact (ofTable_eq_error_iff_of_areLeftmost read found).mpr
      (.inr ⟨_, yields, _, refused, rfl⟩)

end Histogram

end FormulaFit

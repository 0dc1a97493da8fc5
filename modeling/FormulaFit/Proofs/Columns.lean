import FormulaFit.Proofs.Tables

namespace FormulaFit

/-- The cells at some places, one for each place. -/
def pick (places : List Nat) (cells : List String) : List String :=
  places.map (cells.getD · "")

/-- The table with the columns at some places only, in the order of the places. -/
def Csv.Table.pick (places : List Nat) (t : Csv.Table) : Csv.Table where
  header := t.header.map (FormulaFit.pick places)
  rows := t.rows.map (Option.map (FormulaFit.pick places))

/-- The names of the columns that are looked for. -/
def Counts (name : String) : Prop :=
  name ∈ ["x", "y", "err", "yerr"]

instance (name : String) : Decidable (Counts name) :=
  inferInstanceAs (Decidable (name ∈ _))

section

variable {places : List Nat} {cells names : List String} {name : String} {i column : Nat}

theorem length_pick (places : List Nat) (cells : List String) :
    (pick places cells).length = places.length :=
  List.length_map _

theorem getElem?_pick (here : places[i]? = some column) (inside : column < cells.length) :
    (pick places cells)[i]? = cells[column]? := by
  rw [pick, List.getElem?_map, here, Option.map_some, List.getD_eq_getElem?_getD,
    List.getElem?_eq_getElem inside, Option.getD_some]

theorem map_columnName_pick (places : List Nat) (header : List String) :
    (pick places header).map columnName = pick places (header.map columnName) := by
  rw [pick, pick, List.map_map]
  exact List.map_congr_left fun column _ => (List.getD_map header "" columnName).symm

/-- Columns at some places look the same as all of them: no column that counts is left out, and among
those of one name the first one stays in front. -/
structure Rearranges (names : List String) (places : List Nat) : Prop where
  inside : ∀ column ∈ places, column < names.length
  kept : ∀ column name, names[column]? = some name → Counts name → column ∈ places
  ordered : ∀ name, Counts name →
    places.Pairwise fun c d => names[c]? = some name → names[d]? = some name → c ≤ d

namespace Rearranges

theorem getElem?_pick (h : Rearranges names places) (here : places[i]? = some column) :
    (pick places names)[i]? = names[column]? :=
  FormulaFit.getElem?_pick here (h.inside column (List.mem_of_getElem? here))

theorem mem_pick_iff (h : Rearranges names places) (counts : Counts name) :
    name ∈ pick places names ↔ name ∈ names := by
  constructor
  · intro mem
    obtain ⟨column, place, rfl⟩ := List.mem_map.mp mem
    rw [List.getD_eq_getElem _ _ (h.inside column place)]
    exact List.getElem_mem _
  · intro mem
    obtain ⟨column, here⟩ := List.mem_iff_getElem?.mp mem
    obtain ⟨i, place⟩ := List.mem_iff_getElem?.mp (h.kept column name here counts)
    exact List.mem_of_getElem? ((h.getElem?_pick place).trans here)

theorem leftmost (h : Rearranges names places) (counts : Counts name)
    (place : places[i]? = some column) (first : Leftmost (pick places names) name i) :
    Leftmost names name column := by
  obtain ⟨here, none⟩ := first
  rw [h.getElem?_pick place] at here
  refine ⟨here, fun earlier => ?_⟩
  obtain ⟨d, bounds, equal⟩ := List.mem_take_iff_getElem.mp earlier
  obtain ⟨before, inside⟩ := lt_min_iff.mp bounds
  have there : names[d]? = some name := List.getElem?_eq_some_iff.mpr ⟨inside, equal⟩
  obtain ⟨j, other⟩ := List.mem_iff_getElem?.mp (h.kept d name there counts)
  rcases lt_trichotomy j i with less | rfl | greater
  · have found : (pick places names)[j]? = some name := (h.getElem?_pick other).trans there
    refine none (List.mem_of_getElem? (i := j) ?_)
    rw [List.getElem?_take_of_lt less, found]
  · have same : column = d := Option.some.inj (place.symm.trans other)
    omega
  · obtain ⟨hi, rfl⟩ := List.getElem?_eq_some_iff.mp place
    obtain ⟨hj, rfl⟩ := List.getElem?_eq_some_iff.mp other
    have ordered := List.pairwise_iff_getElem.mp (h.ordered name counts)
    have above : places[i] ≤ places[j] := ordered i j hi hj greater here there
    omega

/-- The first column of a name is found where its own place is. -/
theorem place_eq (h : Rearranges names places) (counts : Counts name)
    (picked : Leftmost (pick places names) name i) (first : Leftmost names name column) :
    places[i]? = some column := by
  have inside := picked.lt_length
  rw [length_pick] at inside
  have place := List.getElem?_eq_getElem inside
  rw [place, (h.leftmost counts place picked).unique first]

theorem errorColumn_place_eq (h : Rearranges names places)
    (picked : ErrorColumn (pick places names) i) (first : ErrorColumn names column) :
    places[i]? = some column := by
  have err : "err" ∈ pick places names ↔ "err" ∈ names := h.mem_pick_iff (by decide)
  rcases picked with picked | ⟨none, picked⟩
  · rcases first with first | ⟨none, -⟩
    · exact h.place_eq (by decide) picked first
    · exact absurd (err.mp picked.mem) none
  · rcases first with first | ⟨-, first⟩
    · exact absurd (err.mpr first.mem) none
    · exact h.place_eq (by decide) picked first

end Rearranges

theorem exists_errorColumn_iff :
    (∃ column, ErrorColumn names column) ↔ "err" ∈ names ∨ "yerr" ∈ names := by
  constructor
  · rintro ⟨column, err | ⟨-, yerr⟩⟩
    · exact .inl err.mem
    · exact .inr yerr.mem
  · intro either
    by_cases err : "err" ∈ names
    · exact (exists_leftmost err).imp fun _ => .inl
    · exact (exists_leftmost (either.resolve_left err)).imp fun _ yerr => .inr ⟨err, yerr⟩

theorem rearranges_of_perm (distinct : names.Nodup) (perm : places.Perm (List.range names.length)) :
    Rearranges names places := by
  refine ⟨fun column mem => List.mem_range.mp (perm.mem_iff.mp mem), ?_, ?_⟩
  · intro column name here _
    obtain ⟨inside, -⟩ := List.getElem?_eq_some_iff.mp here
    exact perm.mem_iff.mpr (List.mem_range.mpr inside)
  · refine fun name _ => List.pairwise_of_forall fun c d hc hd => ?_
    obtain ⟨inside, -⟩ := List.getElem?_eq_some_iff.mp hc
    exact ((List.getElem?_inj inside distinct).mp (hc.trans hd.symm)).le

theorem rearranges_of_sublist (sub : places.Sublist (List.range names.length))
    (rest : ∀ column name, names[column]? = some name → column ∉ places → ¬Counts name) :
    Rearranges names places := by
  refine ⟨fun column mem => List.mem_range.mp (sub.subset mem), ?_, ?_⟩
  · intro column name here counts
    by_contra left
    exact rest column name here left counts
  · intro name _
    exact (List.pairwise_lt_range.sublist sub).imp fun less _ _ => less.le

end

namespace HistogramColumns

/-- The columns that are found among picked ones are picked from these places. -/
structure Lead (places : List Nat) (picked columns : HistogramColumns) : Prop where
  x : places[picked.x]? = some columns.x
  y : places[picked.y]? = some columns.y
  error : Option.Rel (fun i column => places[i]? = some column) picked.error columns.error

variable {places : List Nat} {picked columns : HistogramColumns} {cells names : List String}

theorem lead_of_rearranges (h : Rearranges names places)
    (found : picked.AreLeftmost (pick places names)) (first : columns.AreLeftmost names) :
    picked.Lead places columns := by
  have same : (∃ i, picked.error = some i) ↔ ∃ column, columns.error = some column := by
    simp only [found.error, first.error, exists_errorColumn_iff]
    rw [h.mem_pick_iff (by decide), h.mem_pick_iff (by decide)]
  refine ⟨h.place_eq (by decide) found.x first.x,
    h.place_eq (by decide) found.y first.y, ?_⟩
  cases hp : picked.error with
  | none =>
    cases hc : columns.error with
    | none => exact .none
    | some column =>
      obtain ⟨i, there⟩ := same.mpr ⟨column, hc⟩
      rw [hp] at there
      cases there
  | some i =>
    obtain ⟨column, there⟩ := same.mp ⟨i, hp⟩
    rw [there]
    exact .some (h.errorColumn_place_eq ((found.error i).mp hp) ((first.error column).mp there))

variable {α : Type} [Scalar α] {bin : Point α}

theorem Lead.hold_iff (lead : picked.Lead places columns) (inside : columns.Inside cells.length) :
    picked.Hold (pick places cells) bin ↔ columns.Hold cells bin := by
  have moved {i column : Nat} (place : places[i]? = some column) (inside : column < cells.length)
      (v : α) : HoldsValue (pick places cells) i v ↔ HoldsValue cells column v := by
    simp only [HoldsValue, CellReads, getElem?_pick place inside]
  obtain ⟨x, y, error⟩ := picked
  obtain ⟨x', y', error'⟩ := columns
  obtain ⟨hx, hy, he⟩ := lead
  have hx := moved hx inside.x bin.x
  have hy := moved hy inside.y bin.y
  cases he with
  | none =>
    constructor
    · exact fun h => ⟨hx.mp h.x, hy.mp h.y, nofun, h.root⟩
    · exact fun h => ⟨hx.mpr h.x, hy.mpr h.y, nofun, h.root⟩
  | @some i column place =>
    have he := moved place (inside.error column rfl) bin.error
    constructor
    · refine fun h => ⟨hx.mp h.x, hy.mp h.y, ?_, nofun⟩
      rintro _ ⟨⟩
      exact he.mp (h.error i rfl)
    · refine fun h => ⟨hx.mpr h.x, hy.mpr h.y, ?_, nofun⟩
      rintro _ ⟨⟩
      exact he.mpr (h.error column rfl)

theorem Lead.yield_iff (lead : picked.Lead places columns) {width : Nat}
    (inside : columns.Inside width) {row : Option (List String)}
    (regular : ∀ cells, row = some cells → cells.length = width) :
    picked.Yield places.length (row.map (pick places)) bin ↔ columns.Yield width row bin := by
  cases row with
  | none => simp [Yield]
  | some cells =>
    obtain rfl := regular cells rfl
    simp [Yield, length_pick, lead.hold_iff inside]

end HistogramColumns

namespace Csv.Table

variable {α : Type} [Scalar α] {t : Csv.Table} {header : List String} {places : List Nat}

theorem holds_pick_iff (regular : t.Regular) (read : t.header = some header)
    (rearranges : Rearranges (header.map columnName) places) (h : Histogram α) :
    (t.pick places).Holds h ↔ t.Holds h := by
  have picked : (t.pick places).header = some (FormulaFit.pick places header) := by
    rw [pick, read, Option.map_some]
  have found : (∃ columns : HistogramColumns,
      columns.AreLeftmost ((FormulaFit.pick places header).map columnName)) ↔
        ∃ columns : HistogramColumns, columns.AreLeftmost (header.map columnName) := by
    rw [HistogramColumns.exists_areLeftmost_iff, HistogramColumns.exists_areLeftmost_iff,
      map_columnName_pick, rearranges.mem_pick_iff (by decide),
      rearranges.mem_pick_iff (by decide)]
  have rows {picked columns : HistogramColumns}
      (there : picked.AreLeftmost ((FormulaFit.pick places header).map columnName))
      (here : columns.AreLeftmost (header.map columnName)) :
      List.Forall₂ (picked.Yield (FormulaFit.pick places header).length) (t.pick places).rows
        h.bins ↔ List.Forall₂ (columns.Yield header.length) t.rows h.bins := by
    rw [map_columnName_pick] at there
    have lead := HistogramColumns.lead_of_rearranges rearranges there here
    rw [pick, List.forall₂_map_left_iff, length_pick]
    refine forall₂_congr_of_forall (p := (· ∈ t.rows)) (fun _ mem => mem) fun row bin mem => ?_
    exact lead.yield_iff here.inside fun cells this => regular header read cells (this ▸ mem)
  constructor
  · rintro ⟨_, columns, read', there, yields, ordered⟩
    obtain rfl := Option.some.inj (picked.symm.trans read')
    obtain ⟨_, here⟩ := found.mp ⟨columns, there⟩
    exact ⟨header, _, read, here, (rows there here).mp yields, ordered⟩
  · rintro ⟨_, columns, read', here, yields, ordered⟩
    obtain rfl := Option.some.inj (read.symm.trans read')
    obtain ⟨_, there⟩ := found.mpr ⟨columns, here⟩
    exact ⟨_, _, picked, there, (rows there here).mpr yields, ordered⟩

/-- A table is read by the names of its columns alone, not by how the header spells them. -/
theorem ofTable_congr {header' : List String} (read : t.header = some header)
    (names : header'.map columnName = header.map columnName) :
    (Histogram.ofTable ⟨some header', t.rows⟩ : Except (TableError α) (Histogram α)) =
      Histogram.ofTable t := by
  have width : header'.length = header.length := by
    simpa only [List.length_map] using congrArg List.length names
  rcases eq_or_ne header [] with rfl | inhabited
  · obtain rfl := List.length_eq_zero_iff.mp width
    rw [Histogram.ofTable, Histogram.ofTable, read]
  · have inhabited' : header' ≠ [] := by
      rintro rfl
      exact inhabited (List.length_eq_zero_iff.mp width.symm)
    rw [Histogram.ofTable_of_header rfl inhabited', Histogram.ofTable_of_header read inhabited,
      HistogramColumns.find_eq, HistogramColumns.find_eq, names, width]

end Csv.Table

theorem length_eq_of_mapM {β γ : Type} {f : β → Option γ} {xs : List β} {ys : List γ}
    (h : xs.mapM f = some ys) : ys.length = xs.length := by
  induction xs generalizing ys with
  | nil =>
    cases h
    rfl
  | cons x xs ih =>
    rw [List.mapM_cons] at h
    obtain ⟨y, -, h⟩ := Option.bind_eq_some_iff.mp h
    obtain ⟨rest, tail, h⟩ := Option.bind_eq_some_iff.mp h
    cases h
    rw [List.length_cons, List.length_cons, ih tail]

theorem Csv.read_regular (bytes : List UInt8) : (Csv.read bytes).Regular := by
  rw [Csv.read]
  split
  next =>
    intro header _ cells row
    cases row
  next header rows _ =>
    intro names read cells row
    obtain ⟨fields, -, made⟩ := List.mem_map.mp row
    split at made
    next equal =>
      rw [length_eq_of_mapM made, length_eq_of_mapM read, equal]
    next => cases made

namespace Histogram

/-- A table is a histogram just if it holds one, and it fails for the earliest cause. Columns are
found by name: their order does not matter where no two have the same name, columns of other names can
be there or not, and the header is spelt in any case and with any padding. -/
theorem ofTable_exact {α : Type} [Scalar α] (t : Csv.Table) (regular : t.Regular) :
    (∀ h : Histogram α, ofTable t = .ok h ↔ t.Holds h) ∧
      (∀ e : TableError α, ofTable t = .error e ↔ t.Fails e) ∧
      ∀ header, t.header = some header →
        (∀ places : List Nat, (header.map columnName).Nodup →
          places.Perm (List.range header.length) →
            ∀ h : Histogram α, ofTable (t.pick places) = .ok h ↔ ofTable t = .ok h) ∧
        (∀ places : List Nat, places.Sublist (List.range header.length) →
          (∀ column cell, header[column]? = some cell → column ∉ places →
            ¬Counts (columnName cell)) →
              ∀ h : Histogram α, ofTable (t.pick places) = .ok h ↔ ofTable t = .ok h) ∧
        ∀ header' : List String, header'.map columnName = header.map columnName →
          (ofTable ⟨some header', t.rows⟩ : Except (TableError α) (Histogram α)) = ofTable t := by
  refine ⟨fun h => ofTable_eq_ok_iff, fun e => ofTable_eq_error_iff, fun header read => ?_⟩
  have same {places : List Nat} (rearranges : Rearranges (header.map columnName) places)
      (h : Histogram α) : ofTable (t.pick places) = .ok h ↔ ofTable t = .ok h := by
    rw [ofTable_eq_ok_iff, ofTable_eq_ok_iff]
    exact Csv.Table.holds_pick_iff regular read rearranges h
  have width : (header.map columnName).length = header.length := List.length_map _
  refine ⟨fun places distinct perm => ?_, fun places sub rest => ?_, fun header' names => ?_⟩
  · exact same (rearranges_of_perm distinct (width ▸ perm))
  · refine same (rearranges_of_sublist (width ▸ sub) fun column name here left => ?_)
    rw [List.getElem?_map] at here
    obtain ⟨cell, there, rfl⟩ := Option.map_eq_some_iff.mp here
    exact rest column cell there left
  · exact Csv.Table.ofTable_congr read names

/-- A file of two bins without a column of errors, and with notes that are no numbers. -/
def notedFile : List UInt8 :=
  "note,Y, X \na,4,0.5\n,9,1.5\n".toUTF8.data.toList

/-- The two bins stay the same without the notes, with the columns in reverse and under another
header. -/
theorem ofTable_exact_notedFile :
    ∃ h : Histogram Float, ofTable (Csv.read notedFile) = .ok h ∧
      h.bins = [⟨0.5, 4.0, 2.0⟩, ⟨1.5, 9.0, 3.0⟩] ∧
      ofTable ((Csv.read notedFile).pick [2, 1, 0]) = .ok h ∧
      ofTable ((Csv.read notedFile).pick [1, 2]) = .ok h ∧
      ofTable ⟨some ["NOTE", " y", "x"], (Csv.read notedFile).rows⟩ = .ok h := by
  have header : (Csv.read notedFile).header = some ["note", "Y", " X "] := by decide +kernel
  obtain ⟨h, made, bins⟩ : ∃ h : Histogram Float, ofTable (Csv.read notedFile) = .ok h ∧
      h.bins = [⟨0.5, 4.0, 2.0⟩, ⟨1.5, 9.0, 3.0⟩] := by
    have read : (ofTable (Csv.read notedFile) : Except (TableError Float) _).toOption.map bins =
        some [⟨0.5, 4.0, 2.0⟩, ⟨1.5, 9.0, 3.0⟩] := by decide +kernel
    cases made : (ofTable (Csv.read notedFile) : Except (TableError Float) _) with
    | error e =>
      rw [made] at read
      cases read
    | ok h =>
      rw [made] at read
      exact ⟨h, rfl, Option.some.inj read⟩
  obtain ⟨-, -, same⟩ := ofTable_exact (α := Float) (Csv.read notedFile)
    (Csv.read_regular notedFile)
  obtain ⟨permuted, reduced, spelt⟩ := same _ header
  refine ⟨h, made, bins, ?_, ?_, ?_⟩
  · exact (permuted [2, 1, 0] (by decide +kernel) (by decide) h).mpr made
  · refine (reduced [1, 2] (by decide) ?_ h).mpr made
    have left : ∀ column < 3, column ∉ [1, 2] → column = 0 := by decide
    intro column cell here omitted
    obtain ⟨inside, rfl⟩ := List.getElem?_eq_some_iff.mp here
    obtain rfl := left column inside omitted
    exact (by decide +kernel : ¬Counts (columnName "note"))
  · exact (spelt ["NOTE", " y", "x"] (by decide +kernel)).trans made

end Histogram

end FormulaFit

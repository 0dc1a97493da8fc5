import FormulaFit.Proofs.Centres

namespace FormulaFit

/-- A column's name as it is looked up: without the blanks around it and in lower case. -/
def columnName (cell : String) : String :=
  String.ofList ((trimBlanks cell.toList).map Char.toLower)

/-- The first of the columns of a name. -/
def Leftmost (names : List String) (name : String) (column : Nat) : Prop :=
  names[column]? = some name ∧ name ∉ names.take column

section

variable {names : List String} {name : String} {column other : Nat}

theorem leftmost_iff :
    Leftmost names name column ↔ names.findIdx? (· = name) = some column := by
  rw [List.findIdx?_eq_some_iff_getElem, Leftmost, List.getElem?_eq_some_iff]
  simp only [decide_eq_true_eq, List.mem_take_iff_getElem, not_exists]
  constructor
  · rintro ⟨⟨inside, here⟩, first⟩
    exact ⟨inside, here, fun j before => first j (lt_min before (before.trans inside))⟩
  · rintro ⟨inside, here, first⟩
    exact ⟨⟨inside, here⟩, fun j before => first j (lt_min_iff.mp before).1⟩

theorem findIdx?_eq_none_iff_not_mem : names.findIdx? (· = name) = none ↔ name ∉ names := by
  rw [List.findIdx?_eq_none_iff]
  simp only [decide_eq_false_iff_not]
  exact ⟨fun h mem => h name mem rfl, fun h other mem same => h (same ▸ mem)⟩

theorem exists_leftmost (h : name ∈ names) : ∃ column, Leftmost names name column := by
  cases found : names.findIdx? (· = name) with
  | some column => exact ⟨column, leftmost_iff.mpr found⟩
  | none => exact absurd h (findIdx?_eq_none_iff_not_mem.mp found)

theorem Leftmost.mem (h : Leftmost names name column) : name ∈ names :=
  List.mem_of_getElem? h.1

theorem Leftmost.lt_length (h : Leftmost names name column) : column < names.length :=
  (List.getElem?_eq_some_iff.mp h.1).1

theorem Leftmost.unique (h : Leftmost names name column) (h' : Leftmost names name other) :
    column = other :=
  Option.some.inj ((leftmost_iff.mp h).symm.trans (leftmost_iff.mp h'))

/-- The column of the errors: the first of the name `err` or else of the name `yerr`. -/
def ErrorColumn (names : List String) (column : Nat) : Prop :=
  Leftmost names "err" column ∨ "err" ∉ names ∧ Leftmost names "yerr" column

theorem errorColumn_iff : ErrorColumn names column ↔
    (names.findIdx? (· = "err")).or (names.findIdx? (· = "yerr")) = some column := by
  rw [ErrorColumn, leftmost_iff, leftmost_iff, ← findIdx?_eq_none_iff_not_mem, Option.or_eq_some_iff]

end

/-- Columns are found by the names of a header, if the name that is looked for has no capitals. -/
theorem Headers.findName?_ofCells {name : String}
    (lower : name.toList.map Char.toLower = name.toList) (header : List String) :
    (Headers.ofCells header).findName? name = (header.map columnName).findIdx? (· = name) := by
  rw [findName?, find?, ofCells, List.findIdx?_map, List.findIdx?_map]
  refine congrArg (List.findIdx? · header) (funext fun cell => ?_)
  rw [Function.comp_apply, Function.comp_apply, decide_eq_decide, lower, String.toList_ofList,
    columnName, ← String.toList_inj, String.toList_ofList]

namespace HistogramColumns

/-- The columns are the first ones of their names. -/
structure AreLeftmost (columns : HistogramColumns) (names : List String) : Prop where
  x : Leftmost names "x" columns.x
  y : Leftmost names "y" columns.y
  error : ∀ column, columns.error = some column ↔ ErrorColumn names column

variable {α : Type} {columns : HistogramColumns} {header names : List String}

theorem find_eq (header : List String) :
    (find (Headers.ofCells header) : Except (TableError α) HistogramColumns) =
      ((header.map columnName).findIdx? (· = "x")).elim (.error (.missingColumn "x")) fun x =>
        ((header.map columnName).findIdx? (· = "y")).elim (.error (.missingColumn "y")) fun y =>
          .ok ⟨x, y, ((header.map columnName).findIdx? (· = "err")).or
            ((header.map columnName).findIdx? (· = "yerr"))⟩ := by
  rw [find, Headers.findName?_ofCells (by decide), Headers.findName?_ofCells (by decide),
    Headers.findName?_ofCells (by decide), Headers.findName?_ofCells (by decide)]
  cases (header.map columnName).findIdx? (· = "x") with
  | none => rfl
  | some x => cases (header.map columnName).findIdx? (· = "y") <;> rfl

theorem find_eq_ok_iff :
    (find (Headers.ofCells header) : Except (TableError α) HistogramColumns) = .ok columns ↔
      columns.AreLeftmost (header.map columnName) := by
  obtain ⟨x, y, error⟩ := columns
  have shape : AreLeftmost ⟨x, y, error⟩ (header.map columnName) ↔
      (header.map columnName).findIdx? (· = "x") = some x ∧
        (header.map columnName).findIdx? (· = "y") = some y ∧
          ((header.map columnName).findIdx? (· = "err")).or
            ((header.map columnName).findIdx? (· = "yerr")) = error := by
    rw [← leftmost_iff, ← leftmost_iff]
    constructor
    · rintro ⟨hx, hy, he⟩
      exact ⟨hx, hy, Option.ext fun column => errorColumn_iff.symm.trans (he column).symm⟩
    · rintro ⟨hx, hy, rfl⟩
      exact ⟨hx, hy, fun column => errorColumn_iff.symm⟩
  rw [shape, find_eq]
  cases (header.map columnName).findIdx? (· = "x") with
  | none => simp
  | some x' =>
    cases (header.map columnName).findIdx? (· = "y") with
    | none => simp
    | some y' => simp

theorem find_eq_error_iff {e : TableError α} :
    find (Headers.ofCells header) = .error e ↔
      "x" ∉ header.map columnName ∧ e = .missingColumn "x" ∨
        "x" ∈ header.map columnName ∧ "y" ∉ header.map columnName ∧ e = .missingColumn "y" := by
  have absent (name : String) (h : (header.map columnName).findIdx? (· = name) = none) :
      name ∉ header.map columnName := findIdx?_eq_none_iff_not_mem.mp h
  have present (name : String) {column : Nat}
      (h : (header.map columnName).findIdx? (· = name) = some column) :
      name ∈ header.map columnName := (leftmost_iff.mpr h).mem
  rw [find_eq]
  cases hx : (header.map columnName).findIdx? (· = "x") with
  | none => simp [absent _ hx, eq_comm, -List.mem_map]
  | some x =>
    cases hy : (header.map columnName).findIdx? (· = "y") with
    | none => simp [present _ hx, absent _ hy, eq_comm, -List.mem_map]
    | some y => simp [present _ hx, present _ hy, -List.mem_map]

/-- All columns lie in a row of the given width. -/
structure Inside (columns : HistogramColumns) (width : Nat) : Prop where
  x : columns.x < width
  y : columns.y < width
  error : ∀ column, columns.error = some column → column < width

theorem AreLeftmost.inside (h : columns.AreLeftmost (header.map columnName)) :
    columns.Inside header.length := by
  have width : (header.map columnName).length = header.length := List.length_map _
  rw [← width]
  refine ⟨h.x.lt_length, h.y.lt_length, fun column found => ?_⟩
  rcases (h.error column).mp found with err | ⟨-, yerr⟩
  · exact err.lt_length
  · exact yerr.lt_length

theorem exists_areLeftmost_iff :
    (∃ columns : HistogramColumns, columns.AreLeftmost names) ↔ "x" ∈ names ∧ "y" ∈ names := by
  constructor
  · rintro ⟨columns, h⟩
    exact ⟨h.x.mem, h.y.mem⟩
  · rintro ⟨x, y⟩
    obtain ⟨x, hx⟩ := exists_leftmost x
    obtain ⟨y, hy⟩ := exists_leftmost y
    exact ⟨⟨x, y, _⟩, hx, hy, fun column => errorColumn_iff.symm⟩

end HistogramColumns

/-- What comes of reading the cell in a column, regardless of blanks around its text. -/
def CellReads (cells : List String) (column : Nat) (result : Except NumeralError Numeral) : Prop :=
  ∃ cell, cells[column]? = some cell ∧ Numeral.read (trimBlanks cell.toList) = result

variable {α : Type} [Scalar α]

/-- The cell in a column denotes a value. -/
def HoldsValue (cells : List String) (column : Nat) (v : α) : Prop :=
  ∃ n, CellReads cells column (.ok n) ∧ n.value = v

section

variable {cells : List String} {row column : Nat}

theorem readCell_of_cellReads {result : Except NumeralError Numeral}
    (h : CellReads cells column result) :
    (readCell row cells column : Except (TableError α) α) =
      (result.map Numeral.value).mapError (.cell row column) := by
  obtain ⟨cell, inside, rfl⟩ := h
  rw [readCell, List.getD_eq_getElem?_getD, inside, Option.getD_some]
  cases Numeral.read (trimBlanks cell.toList) <;> rfl

theorem exists_cellReads (inside : column < cells.length) :
    ∃ result, CellReads cells column result :=
  ⟨_, _, List.getElem?_eq_getElem inside, rfl⟩

theorem readCell_eq_ok_iff (inside : column < cells.length) {v : α} :
    readCell row cells column = .ok v ↔ HoldsValue cells column v := by
  constructor
  · intro read
    obtain ⟨result, h⟩ := exists_cellReads inside
    rw [readCell_of_cellReads h] at read
    cases result with
    | ok n => exact ⟨n, h, Except.ok.inj read⟩
    | error cause => cases read
  · rintro ⟨n, h, rfl⟩
    exact readCell_of_cellReads h

theorem readCell_eq_error_iff (inside : column < cells.length) {e : TableError α} :
    readCell row cells column = .error e ↔
      ∃ cause, CellReads cells column (.error cause) ∧ e = .cell row column cause := by
  constructor
  · intro read
    obtain ⟨result, h⟩ := exists_cellReads inside
    rw [readCell_of_cellReads h] at read
    cases result with
    | ok n => cases read
    | error cause => exact ⟨cause, h, (Except.error.inj read).symm⟩
  · rintro ⟨cause, h, rfl⟩
    exact readCell_of_cellReads h

end

namespace HistogramColumns

/-- The cells of a row hold a bin. Without a column of errors the error is the root of the
content. -/
structure Hold (columns : HistogramColumns) (cells : List String) (bin : Point α) : Prop where
  x : HoldsValue cells columns.x bin.x
  y : HoldsValue cells columns.y bin.y
  error : ∀ column, columns.error = some column → HoldsValue cells column bin.error
  root : columns.error = none → bin.error = Scalar.sqrt (Scalar.abs bin.y)

/-- A row is readable, as wide as the header and holds a bin. -/
def Yield (columns : HistogramColumns) (width : Nat) (row : Option (List String))
    (bin : Point α) : Prop :=
  ∃ cells, row = some cells ∧ cells.length = width ∧ columns.Hold cells bin

/-- Why the row of a number yields no bin; of several causes the first one in the order of the
constructors. -/
inductive Fail (columns : HistogramColumns) (width number : Nat) :
    Option (List String) → TableError α → Prop
  | unreadable : Fail columns width number none (.unreadableRow number)
  | unequal {cells : List String} (unequal : cells.length ≠ width) :
    Fail columns width number (some cells) (.unequalRow number)
  | x {cells : List String} {cause : NumeralError} (equal : cells.length = width)
    (malformed : CellReads cells columns.x (.error cause)) :
    Fail columns width number (some cells) (.cell number columns.x cause)
  | y {cells : List String} {cause : NumeralError} {v : α} (equal : cells.length = width)
    (x : HoldsValue cells columns.x v) (malformed : CellReads cells columns.y (.error cause)) :
    Fail columns width number (some cells) (.cell number columns.y cause)
  | error {cells : List String} {cause : NumeralError} {v w : α} {column : Nat}
    (equal : cells.length = width) (x : HoldsValue cells columns.x v)
    (y : HoldsValue cells columns.y w) (found : columns.error = some column)
    (malformed : CellReads cells column (.error cause)) :
    Fail columns width number (some cells) (.cell number column cause)

/-- The error of a bin whose content is `y`. -/
def readError (columns : HistogramColumns) (number : Nat) (cells : List String) (y : α) :
    Except (TableError α) α :=
  match columns.error with
  | some column => readCell number cells column
  | none => .ok (Scalar.sqrt (Scalar.abs y))

variable {columns : HistogramColumns} {width number : Nat} {cells : List String}

theorem readBin_some (equal : cells.length = width) :
    (readBin columns width number (some cells) : Except (TableError α) (Point α)) =
      readCell number cells columns.x >>= fun x => readCell number cells columns.y >>= fun y =>
        columns.readError number cells y >>= fun error => .ok ⟨x, y, error⟩ := by
  rw [readBin, if_neg (not_not.mpr equal)]
  refine congrArg (_ >>= ·) (funext fun x => congrArg (_ >>= ·) (funext fun y => ?_))
  rw [readError]
  cases columns.error <;> rfl

theorem readBin_unequal (unequal : cells.length ≠ width) :
    (readBin columns width number (some cells) : Except (TableError α) (Point α)) =
      .error (.unequalRow number) := by
  rw [readBin, if_pos unequal]
  rfl

theorem readError_eq_ok_iff (inside : columns.Inside cells.length) {y error : α} :
    columns.readError number cells y = .ok error ↔
      (∀ column, columns.error = some column → HoldsValue cells column error) ∧
        (columns.error = none → error = Scalar.sqrt (Scalar.abs y)) := by
  rw [readError]
  cases found : columns.error with
  | none => simp [eq_comm]
  | some column => simp [readCell_eq_ok_iff (inside.error column found)]

theorem readError_eq_error_iff (inside : columns.Inside cells.length) {y : α} {e : TableError α} :
    columns.readError number cells y = .error e ↔ ∃ column cause, columns.error = some column ∧
      CellReads cells column (.error cause) ∧ e = .cell number column cause := by
  rw [readError]
  cases found : columns.error with
  | none => simp
  | some column => simp [readCell_eq_error_iff (inside.error column found)]

theorem readBin_eq_ok_iff (inside : columns.Inside width) {row : Option (List String)}
    {bin : Point α} :
    readBin columns width number row = .ok bin ↔ columns.Yield width row bin := by
  cases row with
  | none =>
    constructor
    · rintro ⟨⟩
    · rintro ⟨_, ⟨⟩, -⟩
  | some cells =>
    by_cases equal : cells.length = width
    · subst equal
      rw [readBin_some rfl]
      simp only [bind_eq_ok_iff, readCell_eq_ok_iff inside.x, readCell_eq_ok_iff inside.y,
        readError_eq_ok_iff inside]
      constructor
      · rintro ⟨x, hx, y, hy, error, ⟨he, root⟩, made⟩
        cases made
        exact ⟨cells, rfl, rfl, hx, hy, he, root⟩
      · rintro ⟨_, ⟨⟩, -, hx, hy, he, root⟩
        exact ⟨bin.x, hx, bin.y, hy, bin.error, ⟨he, root⟩, rfl⟩
    · rw [readBin_unequal equal]
      constructor
      · rintro ⟨⟩
      · rintro ⟨_, ⟨⟩, same, -⟩
        exact absurd same equal

theorem readBin_eq_error_iff (inside : columns.Inside width) {row : Option (List String)}
    {e : TableError α} :
    readBin columns width number row = .error e ↔ columns.Fail width number row e := by
  cases row with
  | none =>
    constructor
    · intro read
      cases read
      exact .unreadable
    · rintro ⟨⟩
      rfl
  | some cells =>
    by_cases equal : cells.length = width
    · subst equal
      rw [readBin_some rfl]
      simp only [bind_eq_error_iff, readCell_eq_ok_iff inside.x, readCell_eq_ok_iff inside.y,
        readCell_eq_error_iff inside.x, readCell_eq_error_iff inside.y,
        readError_eq_error_iff inside]
      constructor
      · rintro (⟨cause, hx, rfl⟩ | ⟨x, hx, ⟨cause, hy, rfl⟩ | ⟨y, hy, error⟩⟩)
        · exact .x rfl hx
        · exact .y rfl hx hy
        · obtain ⟨column, cause, found, he, rfl⟩ | ⟨error, -, made⟩ := error
          · exact .error rfl hx hy found he
          · cases made
      · intro failed
        cases failed with
        | unequal unequal => exact absurd rfl unequal
        | x _ hx => exact .inl ⟨_, hx, rfl⟩
        | y _ hx hy => exact .inr ⟨_, hx, .inl ⟨_, hy, rfl⟩⟩
        | error _ hx hy found he =>
          exact .inr ⟨_, hx, .inr ⟨_, hy, .inl ⟨_, _, found, he, rfl⟩⟩⟩
    · rw [readBin_unequal equal]
      constructor
      · intro read
        cases read
        exact .unequal equal
      · intro failed
        cases failed with
        | unequal => rfl
        | x same | y same | error same => exact absurd same equal

theorem readBins_eq_mapM (rows : List (Option (List String))) :
    (readBins columns width number rows : Except (TableError α) (List (Point α))) =
      (rows.zipIdx number).mapM fun row => readBin columns width row.2 row.1 := by
  induction rows generalizing number with
  | nil => rfl
  | cons row rows ih =>
    rw [readBins, List.zipIdx_cons, List.mapM_cons, ih]

theorem readBins_eq_ok_iff (inside : columns.Inside width) {rows : List (Option (List String))}
    {bins : List (Point α)} :
    readBins columns width number rows = .ok bins ↔
      List.Forall₂ (columns.Yield width) rows bins := by
  rw [readBins_eq_mapM, mapM_eq_ok_iff]
  simp only [readBin_eq_ok_iff inside]
  rw [← List.forall₂_map_left_iff (f := Prod.fst), List.zipIdx_map_fst]

/-- The first row without a bin decides. -/
theorem readBins_eq_error_iff (inside : columns.Inside width) {rows : List (Option (List String))}
    {e : TableError α} :
    readBins columns width number rows = .error e ↔ ∃ before row after,
      rows = before ++ row :: after ∧
        (∀ earlier ∈ before, ∃ bin : Point α, columns.Yield width earlier bin) ∧
          columns.Fail width (number + before.length) row e := by
  rw [readBins_eq_mapM, mapM_eq_error_iff]
  simp only [readBin_eq_ok_iff inside, readBin_eq_error_iff inside]
  constructor
  · rintro ⟨numbered, ⟨row, i⟩, _, split, earlier, failed⟩
    obtain ⟨before, rest, rfl, rfl, tail⟩ := List.zipIdx_eq_append_iff.mp split
    obtain ⟨_, after, rfl, here, -⟩ := List.zipIdx_eq_cons_iff.mp tail.symm
    cases here
    refine ⟨before, row, after, rfl, fun line mem => ?_, failed⟩
    rw [← List.zipIdx_map_fst number before] at mem
    obtain ⟨pair, inside, rfl⟩ := List.mem_map.mp mem
    exact earlier pair inside
  · rintro ⟨before, row, after, rfl, earlier, failed⟩
    refine ⟨before.zipIdx number, (row, number + before.length), _, List.zipIdx_append, ?_, failed⟩
    intro pair mem
    have here := List.mem_map_of_mem (f := Prod.fst) mem
    rw [List.zipIdx_map_fst] at here
    exact earlier pair.1 here

end HistogramColumns

end FormulaFit

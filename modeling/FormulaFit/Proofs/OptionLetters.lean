import Mathlib
import FormulaFit.Fit.Options
import FormulaFit.Proofs.Doubles
import FormulaFit.Proofs.Fitting
import FormulaFit.Proofs.Lexemes

namespace FormulaFit

/-- The letter of an option, in upper case. -/
def FitFlag.letter : FitFlag → Char
  | range => 'R'
  | quiet => 'Q'
  | unitWeights => 'W'
  | improve => 'M'

/-- The characters that an option is written with, in either case. -/
def IsOptionLetter (c : Char) : Prop :=
  c.toUpper = 'R' ∨ c.toUpper = 'Q' ∨ c.toUpper = 'W' ∨ c.toUpper = 'M'

instance (c : Char) : Decidable (IsOptionLetter c) :=
  inferInstanceAs (Decidable (_ ∨ _ ∨ _ ∨ _))

/-- A letter stands somewhere in a text, in either case. -/
def Shows (text : String) (letter : Char) : Prop :=
  ∃ c ∈ text.toList, c.toUpper = letter

instance (text : String) (letter : Char) : Decidable (Shows text letter) :=
  inferInstanceAs (Decidable (∃ c ∈ text.toList, c.toUpper = letter))

/-- All characters but the blanks are option letters. -/
def IsLettered (text : String) : Prop :=
  ∀ c ∈ text.toList, isBlank c ∨ IsOptionLetter c

/-- Two texts that differ in blanks, case, order and repetition only. -/
def SameLetters (text other : String) : Prop :=
  ∀ letter : Char, (∃ c ∈ text.toList, ¬isBlank c ∧ c.toUpper = letter) ↔
    ∃ c ∈ other.toList, ¬isBlank c ∧ c.toUpper = letter

theorem FitFlag.ofChar?_eq_some_iff {c : Char} {flag : FitFlag} :
    ofChar? c = some flag ↔ c.toUpper = flag.letter := by
  unfold ofChar?
  constructor
  · intro found
    split at found <;> cases found <;> assumption
  · intro letter
    rw [letter]
    cases flag <;> rfl

theorem isOptionLetter_iff {c : Char} :
    IsOptionLetter c ↔ ∃ flag : FitFlag, c.toUpper = flag.letter := by
  constructor
  · rintro (range | quiet | unitWeights | improve)
    · exact ⟨.range, range⟩
    · exact ⟨.quiet, quiet⟩
    · exact ⟨.unitWeights, unitWeights⟩
    · exact ⟨.improve, improve⟩
  · rintro ⟨flag, letter⟩
    rw [IsOptionLetter, letter]
    cases flag <;> decide

theorem FitFlag.ofChar?_eq_none_iff {c : Char} : ofChar? c = none ↔ ¬IsOptionLetter c := by
  simp only [Option.eq_none_iff_forall_ne_some, ne_eq, ofChar?_eq_some_iff, isOptionLetter_iff,
    not_exists]

theorem not_isBlank_of_isOptionLetter {c : Char} (h : IsOptionLetter c) : ¬isBlank c := by
  intro blank
  obtain ⟨r, member, low, high⟩ := exists_range_of_inRanges blank
  have each : ∀ r ∈ blankRanges, ∀ n ∈ List.range' r.1 (r.2 + 1 - r.1),
      ¬IsOptionLetter (Char.ofNat n) := by
    decide +kernel
  have here := each r member c.toNat (List.mem_range'_1.mpr ⟨low, by omega⟩)
  rw [Char.ofNat_toNat] at here
  exact here h

/-- The option of one character, or the character if it stands for none. -/
def FitFlag.read (c : Char) : Except Char FitFlag :=
  match ofChar? c with
  | some flag => .ok flag
  | none => .error c

theorem FitFlag.read_eq_ok_iff {c : Char} {flag : FitFlag} :
    read c = .ok flag ↔ c.toUpper = flag.letter := by
  rw [read, ← ofChar?_eq_some_iff]
  cases ofChar? c <;> simp

theorem FitFlag.read_eq_error_iff {c d : Char} :
    read c = .error d ↔ ¬IsOptionLetter c ∧ c = d := by
  rw [read, ← ofChar?_eq_none_iff]
  cases ofChar? c <;> simp

theorem readFlags_eq_mapM (text : List Char) : readFlags text = text.mapM FitFlag.read := by
  induction text with
  | nil => rfl
  | cons c text ih =>
    rw [readFlags, mapM_cons_eq, FitFlag.read, ih]
    cases FitFlag.ofChar? c <;> rfl

theorem exists_readFlags_iff {text : List Char} :
    (∃ flags, readFlags text = .ok flags) ↔ ∀ c ∈ text, IsOptionLetter c := by
  rw [readFlags_eq_mapM, exists_mapM_eq_ok_iff]
  simp only [FitFlag.read_eq_ok_iff, isOptionLetter_iff]

/-- The flags that are read are those of the characters, and no others. -/
theorem mem_of_readFlags {text : List Char} {flags : List FitFlag}
    (read : readFlags text = .ok flags) (flag : FitFlag) :
    flag ∈ flags ↔ ∃ c ∈ text, c.toUpper = flag.letter := by
  rw [readFlags_eq_mapM, mapM_eq_ok_iff] at read
  induction read with
  | nil => simp
  | @cons c flag' text flags here _ ih =>
    rw [FitFlag.read_eq_ok_iff] at here
    rw [List.mem_cons, ih, List.exists_mem_cons_iff, here]
    have same : flag = flag' ↔ flag'.letter = flag.letter := by
      cases flag <;> cases flag' <;> decide
    rw [same]

theorem readFlags_eq_error_iff {text : List Char} {c : Char} :
    readFlags text = .error c ↔ ∃ before after, text = before ++ c :: after ∧
      (∀ d ∈ before, IsOptionLetter d) ∧ ¬IsOptionLetter c := by
  rw [readFlags_eq_mapM, mapM_eq_error_iff]
  simp only [FitFlag.read_eq_ok_iff, FitFlag.read_eq_error_iff, ← isOptionLetter_iff]
  constructor
  · rintro ⟨before, _, after, split, letters, stranger, rfl⟩
    exact ⟨before, after, split, letters, stranger⟩
  · rintro ⟨before, after, split, letters, stranger⟩
    exact ⟨before, c, after, split, letters, stranger, rfl⟩

/-- The first character that is neither a blank nor an option letter. -/
def IsFirstStranger (text : String) (c : Char) : Prop :=
  ∃ before after, text.toList = before ++ c :: after ∧
    (∀ d ∈ before, isBlank d ∨ IsOptionLetter d) ∧ ¬isBlank c ∧ ¬IsOptionLetter c

section

variable {text : String}

theorem exists_readFlags_unblanked_iff :
    (∃ flags, readFlags (text.toList.filter (!isBlank ·)) = .ok flags) ↔ IsLettered text := by
  rw [exists_readFlags_iff, IsLettered]
  refine forall_congr' fun c => ?_
  rw [List.mem_filter, Bool.not_eq_true', ← Bool.not_eq_true, and_imp, Classical.or_iff_not_imp_left]

theorem shows_iff_unblanked (flag : FitFlag) :
    Shows text flag.letter ↔ ∃ c ∈ text.toList, ¬isBlank c ∧ c.toUpper = flag.letter := by
  refine exists_congr fun c => and_congr_right fun _ => ⟨fun letter => ⟨?_, letter⟩, And.right⟩
  exact not_isBlank_of_isOptionLetter (isOptionLetter_iff.mpr ⟨flag, letter⟩)

theorem mem_iff_shows {flags : List FitFlag}
    (read : readFlags (text.toList.filter (!isBlank ·)) = .ok flags) (flag : FitFlag) :
    flag ∈ flags ↔ Shows text flag.letter := by
  rw [mem_of_readFlags read, shows_iff_unblanked]
  refine exists_congr fun c => ?_
  rw [List.mem_filter, Bool.not_eq_true', ← Bool.not_eq_true, and_assoc]

theorem IsFirstStranger.not_isLettered {c : Char} (first : IsFirstStranger text c) :
    ¬IsLettered text := by
  obtain ⟨before, after, whole, -, visible, stranger⟩ := first
  have member : c ∈ text.toList := whole ▸ List.mem_append_right before List.mem_cons_self
  exact fun letters => (letters c member).elim visible stranger

theorem readFlags_unblanked_eq_error_iff {c : Char} :
    readFlags (text.toList.filter (!isBlank ·)) = .error c ↔ IsFirstStranger text c := by
  rw [readFlags_eq_error_iff, IsFirstStranger]
  constructor
  · rintro ⟨seen, unseen, split, letters, stranger⟩
    obtain ⟨before, rest, whole, rfl, later⟩ := List.filter_eq_append_iff.mp split
    obtain ⟨blanks, after, rfl, blank, visible, -⟩ := List.filter_eq_cons_iff.mp later
    refine ⟨before ++ blanks, after, by rw [whole, List.append_assoc], ?_, by simpa using visible,
      stranger⟩
    intro d member
    rcases List.mem_append.mp member with early | late
    · by_cases space : isBlank d
      · exact Or.inl space
      · exact Or.inr (letters d (List.mem_filter.mpr ⟨early, by simpa using space⟩))
    · exact Or.inl (by simpa using blank d late)
  · rintro ⟨before, after, whole, known, visible, stranger⟩
    refine ⟨before.filter (!isBlank ·), after.filter (!isBlank ·), ?_, ?_, stranger⟩
    · rw [whole, List.filter_append, List.filter_cons_of_pos (by simpa using visible)]
    · intro d member
      obtain ⟨early, space⟩ := List.mem_filter.mp member
      exact (known d early).resolve_left (by simpa using space)

namespace SameLetters

variable {other : String}

theorem symm (same : SameLetters text other) : SameLetters other text :=
  fun letter => (same letter).symm

theorem shows (same : SameLetters text other) (flag : FitFlag) :
    Shows other flag.letter ↔ Shows text flag.letter := by
  rw [shows_iff_unblanked, shows_iff_unblanked, same]

theorem isLettered (same : SameLetters text other) (letters : IsLettered text) :
    IsLettered other := by
  intro c member
  rw [Classical.or_iff_not_imp_left]
  intro visible
  obtain ⟨d, there, seen, equal⟩ := (same c.toUpper).mpr ⟨c, member, visible, rfl⟩
  have letter := (letters d there).resolve_left seen
  rwa [IsOptionLetter, equal] at letter

end SameLetters

end

namespace FitOptions

section

variable {α : Type} [Scalar α] {text : String} {xmin xmax : Option α}

/-- What a text and two ends must be to be read. The ends are looked at only if the range is asked
for. -/
structure Readable (text : String) (xmin xmax : Option α) : Prop where
  letters : IsLettered text
  ends : xmin.isSome = xmax.isSome
  range : Shows text 'R' → ∃ lower upper, xmin = some lower ∧ xmax = some upper ∧ lower < upper

/-- The options that a text stands for. -/
structure StandFor (text : String) (xmin xmax : Option α) (o : FitOptions α) : Prop where
  quiet : o.quiet ↔ Shows text 'Q'
  unitWeights : o.unitWeights ↔ Shows text 'W'
  improve : o.improve ↔ Shows text 'M'
  range : ∀ r, o.range = some r ↔ Shows text 'R' ∧ xmin = some r.lower ∧ xmax = some r.upper

/-- Why a text and two ends are refused. A character that is no option comes before all that may be
wrong with the ends. -/
inductive Refused (text : String) : Option α → Option α → OptionError α → Prop
  | unknown {xmin xmax : Option α} {c : Char} (first : IsFirstStranger text c) :
    Refused text xmin xmax (.unknown c text)
  | halfRange {xmin xmax : Option α} (letters : IsLettered text)
    (half : xmin.isSome ≠ xmax.isSome) : Refused text xmin xmax .halfRange
  | missingRange (letters : IsLettered text) (wanted : Shows text 'R') :
    Refused text none none .missingRange
  | emptyRange {lower upper : α} (letters : IsLettered text) (wanted : Shows text 'R')
    (empty : ¬lower < upper) :
    Refused text (some lower) (some upper) (.emptyRange lower upper)

/-- A text of option letters is read for the letters that it shows. -/
theorem read_of_isLettered (letters : IsLettered text) :
    read text xmin xmax = (readRange (decide (Shows text 'R')) xmin xmax).map fun range =>
      ⟨range, decide (Shows text 'Q'), decide (Shows text 'W'), decide (Shows text 'M')⟩ := by
  obtain ⟨flags, found⟩ := exists_readFlags_unblanked_iff.mpr letters
  have shows (flag : FitFlag) : flags.contains flag = decide (Shows text flag.letter) := by
    rw [← List.elem_eq_contains, List.elem_eq_mem]
    exact decide_eq_decide.mpr (mem_iff_shows found flag)
  rw [read, found]
  simp only [shows]
  rfl

theorem read_of_isFirstStranger {c : Char} (xmin xmax : Option α) (first : IsFirstStranger text c) :
    read text xmin xmax = .error (.unknown c text) := by
  rw [read, readFlags_unblanked_eq_error_iff.mpr first]

theorem isLettered_or_isFirstStranger (text : String) :
    IsLettered text ∨ ∃ c, IsFirstStranger text c := by
  cases found : readFlags (text.toList.filter (!isBlank ·)) with
  | ok flags => exact Or.inl (exists_readFlags_unblanked_iff.mp ⟨flags, found⟩)
  | error c => exact Or.inr ⟨c, readFlags_unblanked_eq_error_iff.mp found⟩

theorem readRange_eq_ok_iff {wanted : Bool} {range : Option (Interval α)} :
    readRange wanted xmin xmax = .ok range ↔
      xmin.isSome = xmax.isSome ∧
        (wanted → ∃ lower upper, xmin = some lower ∧ xmax = some upper ∧ lower < upper) ∧
          ∀ r, range = some r ↔ wanted ∧ xmin = some r.lower ∧ xmax = some r.upper := by
  have absent : (∀ r, range ≠ some r) ↔ none = range := by
    rw [← Option.eq_none_iff_forall_ne_some, eq_comm]
  rcases xmin with _ | lower <;> rcases xmax with _ | upper
  · cases wanted <;> simp [readRange, absent]
  · simp [readRange]
  · simp [readRange]
  · cases wanted with
    | false => simp [readRange, absent]
    | true =>
      rw [readRange, if_neg (by decide)]
      split
      next ordered =>
        constructor
        · intro read
          cases read
          refine ⟨rfl, fun _ => ⟨lower, upper, rfl, rfl, ordered⟩, fun r => ⟨?_, ?_⟩⟩
          · rintro ⟨⟩
            exact ⟨rfl, rfl, rfl⟩
          · rintro ⟨-, ⟨⟩, ⟨⟩⟩
            rfl
        · rintro ⟨-, -, range⟩
          rw [(range ⟨lower, upper⟩).mpr ⟨rfl, rfl, rfl⟩]
      next empty => simp [empty]

theorem readRange_eq_error_iff (letters : IsLettered text) {e : OptionError α} :
    readRange (decide (Shows text 'R')) xmin xmax = .error e ↔ Refused text xmin xmax e := by
  constructor
  · intro failed
    rcases xmin with _ | lower <;> rcases xmax with _ | upper
    · rw [readRange] at failed
      split at failed
      next wanted =>
        cases failed
        exact .missingRange letters (of_decide_eq_true wanted)
      next => cases failed
    · cases failed
      exact .halfRange letters (by simp)
    · cases failed
      exact .halfRange letters (by simp)
    · rw [readRange] at failed
      split at failed
      next => cases failed
      next wanted =>
        split at failed
        next => cases failed
        next empty =>
          cases failed
          exact .emptyRange letters (by simpa using wanted) empty
  · intro refused
    cases refused with
    | unknown first => exact absurd letters first.not_isLettered
    | halfRange _ half =>
      rcases xmin with _ | lower <;> rcases xmax with _ | upper
      · exact absurd rfl half
      · rfl
      · rfl
      · exact absurd rfl half
    | missingRange _ wanted => rw [readRange, if_pos (decide_eq_true wanted)]
    | emptyRange _ wanted empty => simp [readRange, wanted, empty]

theorem read_eq_ok_iff {o : FitOptions α} :
    read text xmin xmax = .ok o ↔ Readable text xmin xmax ∧ StandFor text xmin xmax o := by
  rcases isLettered_or_isFirstStranger text with letters | ⟨c, first⟩
  · rw [read_of_isLettered letters]
    constructor
    · intro made
      cases found : readRange (decide (Shows text 'R')) xmin xmax with
      | error e =>
        rw [found] at made
        cases made
      | ok range =>
        rw [found] at made
        cases made
        obtain ⟨ends, used, range⟩ := readRange_eq_ok_iff.mp found
        simp only [decide_eq_true_eq] at used range
        exact ⟨⟨letters, ends, used⟩, by simp, by simp, by simp, range⟩
    · rintro ⟨readable, standsFor⟩
      have found : readRange (decide (Shows text 'R')) xmin xmax = .ok o.range := by
        rw [readRange_eq_ok_iff]
        simp only [decide_eq_true_eq]
        exact ⟨readable.ends, readable.range, standsFor.range⟩
      have flag {value : Bool} {p : Prop} [Decidable p] (same : value ↔ p) : decide p = value := by
        rw [Bool.eq_iff_iff, decide_eq_true_iff, same]
      rw [found, flag standsFor.quiet, flag standsFor.unitWeights, flag standsFor.improve]
      rfl
  · rw [read_of_isFirstStranger xmin xmax first]
    exact iff_of_false (by simp) fun ⟨readable, _⟩ => first.not_isLettered readable.letters

theorem read_eq_error_iff {e : OptionError α} :
    read text xmin xmax = .error e ↔ Refused text xmin xmax e := by
  rcases isLettered_or_isFirstStranger text with letters | ⟨c, first⟩
  · rw [read_of_isLettered letters, ← readRange_eq_error_iff letters]
    cases readRange (decide (Shows text 'R')) xmin xmax <;> simp [Except.map]
  · rw [read_of_isFirstStranger xmin xmax first]
    constructor
    · intro failed
      cases failed
      exact .unknown first
    · intro refused
      cases refused with
      | unknown own =>
        exact (read_of_isFirstStranger xmin xmax first).symm.trans
          (read_of_isFirstStranger xmin xmax own)
      | halfRange letters | missingRange letters | emptyRange letters =>
        exact absurd letters first.not_isLettered

theorem exists_read_iff : (∃ o, read text xmin xmax = .ok o) ↔ Readable text xmin xmax := by
  constructor
  · rintro ⟨o, made⟩
    exact (read_eq_ok_iff.mp made).1
  · intro readable
    cases made : read text xmin xmax with
    | ok o => exact ⟨o, rfl⟩
    | error e =>
      cases read_eq_error_iff.mp made with
      | unknown first => exact absurd readable.letters first.not_isLettered
      | halfRange _ half => exact absurd readable.ends half
      | missingRange _ wanted =>
        obtain ⟨_, _, absent, -⟩ := readable.range wanted
        cases absent
      | emptyRange _ wanted empty =>
        obtain ⟨_, _, ⟨⟩, ⟨⟩, ordered⟩ := readable.range wanted
        exact absurd ordered empty

end

section

variable {α : Type} [Scalar α] {text other : String} {xmin xmax : Option α}

/-- Texts of the same letters are read alike, unless they are refused for characters of their own. -/
theorem read_congr (same : SameLetters text other) :
    read other xmin xmax = read text xmin xmax ∨
      ∃ c d, read text xmin xmax = .error (.unknown c text) ∧
        read other xmin xmax = .error (.unknown d other) := by
  rcases isLettered_or_isFirstStranger text with letters | ⟨c, first⟩
  · left
    have range : Shows other 'R' ↔ Shows text 'R' := same.shows .range
    have quiet : Shows other 'Q' ↔ Shows text 'Q' := same.shows .quiet
    have unitWeights : Shows other 'W' ↔ Shows text 'W' := same.shows .unitWeights
    have improve : Shows other 'M' ↔ Shows text 'M' := same.shows .improve
    rw [read_of_isLettered letters, read_of_isLettered (same.isLettered letters)]
    simp only [range, quiet, unitWeights, improve]
  · rcases isLettered_or_isFirstStranger other with letters | ⟨d, first'⟩
    · exact absurd (same.symm.isLettered letters) first.not_isLettered
    · exact Or.inr ⟨c, d, read_of_isFirstStranger _ _ first, read_of_isFirstStranger _ _ first'⟩

end

/-- Option texts are read as sets of letters, and the range only if it is asked for. -/
theorem read_letters (text : String) (xmin xmax : Option Float) :
    ((∃ o, read text xmin xmax = .ok o) ↔ Readable text xmin xmax) ∧
      (∀ o, read text xmin xmax = .ok o → StandFor text xmin xmax o ∧
        ∀ r, o.range = some r → r.lower < r.upper ∧ ¬r.lower.isNaN ∧ ¬r.upper.isNaN) ∧
      (∀ e, read text xmin xmax = .error e ↔ Refused text xmin xmax e) ∧
      ∀ other, SameLetters text other → read other xmin xmax = read text xmin xmax ∨
        ∃ c d, read text xmin xmax = .error (.unknown c text) ∧
          read other xmin xmax = .error (.unknown d other) := by
  refine ⟨exists_read_iff, fun o made => ?_, fun e => read_eq_error_iff,
    fun other same => read_congr same⟩
  obtain ⟨readable, standsFor⟩ := read_eq_ok_iff.mp made
  refine ⟨standsFor, fun r used => ?_⟩
  obtain ⟨wanted, rfl, rfl⟩ := (standsFor.range r).mp used
  obtain ⟨_, _, ⟨⟩, ⟨⟩, ordered⟩ := readable.range wanted
  exact ⟨ordered, not_isNaN_of_le (le_of_lt ordered)⟩

end FitOptions

end FormulaFit

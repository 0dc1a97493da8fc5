import FormulaFit.Text.Lowercase

namespace FormulaFit

/-- The state of matching one text against another: which characters of the other are taken, the
index of the latest match, and how many matches and steps backwards there were. -/
structure Matching where
  taken : List Bool
  latest : Nat
  matched : Nat
  backwards : Nat

/-- Pairs `c`, at index `i`, with the first free equal character at most `range` places away. -/
def Matching.add (text : List Char) (range : Nat) (m : Matching) (c : Char) (i : Nat) : Matching :=
  let candidates := (text.zip m.taken).zipIdx
  match candidates.find? fun ((d, taken), j) => i - range ≤ j && j ≤ i + range && !taken && c = d with
  | none => m
  | some (_, j) =>
    { taken := m.taken.set j true
      latest := j
      matched := m.matched + 1
      backwards := m.backwards + if j < m.latest then 1 else 0 }

/-- Jaro's similarity of two texts, from 0 to 1. -/
def jaro (a b : List Char) : Float :=
  if a.isEmpty && b.isEmpty then 1.0
  else if a.isEmpty || b.isEmpty then 0.0
  else if a.length = 1 && b.length = 1 then (if a = b then 1.0 else 0.0)
  else
    let range := max a.length b.length / 2 - 1
    let none : Matching := ⟨b.map fun _ => false, 0, 0, 0⟩
    let m := a.zipIdx.foldl (fun m (c, i) => m.add b range c i) none
    if m.matched = 0 then 0.0
    else
      let matched := m.matched.toFloat
      1.0 / 3.0 * (matched / a.length.toFloat + matched / b.length.toFloat +
        (matched - m.backwards.toFloat) / matched)

/-- Winkler's variant, which favours texts that begin alike. -/
def jaroWinkler (a b : List Char) : Float :=
  let similarity := jaro a b
  let common := ((a.zip b).takeWhile fun (c, d) => c = d).length
  let raised := similarity + 0.1 * common.toFloat * (1.0 - similarity)
  if raised ≤ 1.0 then raised else 1.0

/-- The name most similar to `name` regardless of case, if its similarity is above 0.8; of equally
similar ones the first. -/
def mostSimilar? (name : String) (names : List String) : Option String :=
  let scored := names.map fun other => (other, jaroWinkler (lowercase other) (lowercase name))
  (scored.foldl (fun best (other, score) =>
    match best with
    | some (_, top) => if top < score then some (other, score) else best
    | none => if 0.8 < score then some (other, score) else none) none).map Prod.fst

end FormulaFit

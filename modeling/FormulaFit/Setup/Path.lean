namespace FormulaFit

/-- A part of a path that names nothing. -/
def isEmptyPart (part : String) : Bool :=
  part = "" || part = "."

/-- The directory that a path names something in; empty for a bare name. -/
def parentPath (path : String) : String :=
  let parts := path.splitOn "/"
  let above := ((parts.reverse.dropWhile isEmptyPart).drop 1).dropWhile isEmptyPart
  if above.isEmpty then
    match parts with
    | "" :: _ :: _ => "/"
    | "." :: _ :: _ => "."
    | _ => ""
  else String.intercalate "/" above.reverse

/-- A path taken relative to a directory, unless it is absolute. -/
def joinPath (directory path : String) : String :=
  if path.startsWith "/" || directory.isEmpty then path
  else if directory.endsWith "/" then directory ++ path
  else directory ++ "/" ++ path

end FormulaFit

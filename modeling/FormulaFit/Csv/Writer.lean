namespace FormulaFit.Csv

/-- Whether a field is written in quotes. -/
def needsQuotes (field : List Char) : Bool :=
  field.any fun c => c = ',' || c = '"' || c = '\n' || c = '\r'

/-- Quotes inside a quoted field are doubled. -/
def doubleQuotes (field : List Char) : List Char :=
  field.flatMap fun c => if c = '"' then ['"', '"'] else [c]

def writeField (field : List Char) : List Char :=
  if needsQuotes field then '"' :: doubleQuotes field ++ ['"'] else field

/-- A record ends its line. One that consists of a single empty field is written in quotes, since an
empty line is no record. -/
def writeRecord (record : List String) : List Char :=
  let fields := if record = [""] then [['"', '"']] else record.map fun f => writeField f.toList
  (List.intersperse [','] fields).flatten ++ ['\n']

def write (records : List (List String)) : String :=
  String.ofList (records.flatMap writeRecord)

end FormulaFit.Csv

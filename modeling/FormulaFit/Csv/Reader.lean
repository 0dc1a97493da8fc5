namespace FormulaFit.Csv

/-- Where the reader of a record stands. -/
inductive Place
  | recordStart
  | fieldStart
  | field
  | quoted
  /-- After a quote inside quotes: the second half of a doubled quote, or the end. -/
  | quoteInQuoted
  deriving DecidableEq, Repr

/-- Bytes of a record that is being read, everything in reverse. -/
structure Partial where
  place : Place
  field : List UInt8
  fields : List (List UInt8)

def comma : UInt8 := 44

def quote : UInt8 := 34

def isLineEnd (b : UInt8) : Bool :=
  b = 10 || b = 13

namespace Partial

def start : Partial :=
  ⟨.recordStart, [], []⟩

def keep (p : Partial) (b : UInt8) (place : Place) : Partial :=
  { p with place, field := b :: p.field }

def endField (p : Partial) : Partial :=
  ⟨.fieldStart, [], p.field.reverse :: p.fields⟩

/-- The record that ends here. -/
def record (p : Partial) : List (List UInt8) :=
  p.endField.fields.reverse

/-- Takes a byte outside quotes. -/
def takePlain (p : Partial) (b : UInt8) : Partial × Option (List (List UInt8)) :=
  if b = comma then (p.endField, none)
  else if isLineEnd b then (start, some p.record)
  else (p.keep b .field, none)

/-- Takes a byte; yields a record when the byte ends one. Quotes count only at the start of a
field, and line ends before a record do not count. -/
def take (p : Partial) (b : UInt8) : Partial × Option (List (List UInt8)) :=
  match p.place with
  | .recordStart =>
    if isLineEnd b then (p, none)
    else if b = quote then ({ p with place := .quoted }, none)
    else p.takePlain b
  | .fieldStart => if b = quote then ({ p with place := .quoted }, none) else p.takePlain b
  | .field => p.takePlain b
  | .quoted => if b = quote then ({ p with place := .quoteInQuoted }, none)
    else (p.keep b .quoted, none)
  | .quoteInQuoted => if b = quote then (p.keep b .quoted, none) else p.takePlain b

end Partial

/-- The records of a file, as bytes. -/
def recordsFrom (p : Partial) : List UInt8 → List (List (List UInt8))
  | [] => if p.place = .recordStart then [] else [p.record]
  | b :: rest =>
    match p.take b with
    | (p, some record) => record :: recordsFrom p rest
    | (p, none) => recordsFrom p rest

def dropByteOrderMark : List UInt8 → List UInt8
  | 0xEF :: 0xBB :: 0xBF :: rest => rest
  | bytes => bytes

/-- The text of every field, if all of them are UTF-8. -/
def decode? (record : List (List UInt8)) : Option (List String) :=
  record.mapM fun field => String.fromUTF8? ⟨field.toArray⟩

/-- A file's header and the records below it. Without a first record the header has no cells; it is
missing where it is no text. A record is missing where it is no text or not as long as the
header. -/
structure Table where
  header : Option (List String)
  rows : List (Option (List String))

def read (bytes : List UInt8) : Table :=
  match recordsFrom .start (dropByteOrderMark bytes) with
  | [] => ⟨some [], []⟩
  | header :: rows =>
    ⟨decode? header, rows.map fun row => if row.length = header.length then decode? row else none⟩

end FormulaFit.Csv

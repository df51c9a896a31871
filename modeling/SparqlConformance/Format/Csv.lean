/-!
# Comma-separated values

Reads records of fields. A field may stand in double quotes, where a doubled quote means one quote and
line ends are ordinary characters; after a closing quote the field goes on as an unquoted one. Records
end at a line feed, a carriage return or both, lines with no character are skipped, and the end of the
text ends the last record. A byte order mark at the very start is left out.
-/
namespace SparqlConformance.Csv

/-- A record and the line that it was reached on: one more than the line feeds read before it. -/
structure Record where
  line : Nat
  fields : List String
  deriving DecidableEq, Repr

/-- Where in a record a reader stands. -/
inductive Place
  | recordStart
  | afterReturn
  | fieldStart
  | inField
  | inQuotes
  | afterQuote
  deriving DecidableEq, Repr

/-- A reader on its way: the text of the current field and the finished fields and records are kept
last first. -/
structure Reader where
  place : Place
  field : List Char
  fields : List String
  line : Nat
  start : Nat
  records : List Record
  deriving Repr

namespace Reader

def initial : Reader := ⟨.recordStart, [], [], 1, 1, []⟩

def endField (r : Reader) : Reader :=
  { r with fields := String.ofList r.field.reverse :: r.fields, field := [] }

/-- Ends the record before the line feed, if any, is counted. -/
def endRecord (r : Reader) (place : Place) (line : Nat) : Reader :=
  let r := r.endField
  { r with place, fields := [], line, start := line, records := ⟨r.start, r.fields.reverse⟩ :: r.records }

def afterChar (r : Reader) (c : Char) : Nat := if c = '\n' then r.line + 1 else r.line

/-- A character outside of quotes once a field has begun. -/
def unquoted (r : Reader) (c : Char) : Reader :=
  if c = ',' then { r.endField with place := .fieldStart }
  else if c = '\r' then r.endRecord .afterReturn r.line
  else if c = '\n' then r.endRecord .recordStart (r.line + 1)
  else { r with place := .inField, field := c :: r.field }

def opening (r : Reader) (c : Char) : Reader :=
  if c = '"' then { r with place := .inQuotes } else r.unquoted c

def atRecordStart (r : Reader) (c : Char) : Reader :=
  if c = '\r' ∨ c = '\n' then { r with place := .recordStart, line := r.afterChar c }
  else r.opening c

def step (r : Reader) (c : Char) : Reader :=
  match r.place with
  | .recordStart => r.atRecordStart c
  | .afterReturn => r.atRecordStart c
  | .fieldStart => r.opening c
  | .inField => r.unquoted c
  | .inQuotes =>
    if c = '"' then { r with place := .afterQuote }
    else { r with field := c :: r.field, line := r.afterChar c }
  | .afterQuote =>
    if c = '"' then { r with place := .inQuotes, field := c :: r.field } else r.unquoted c

def finish (r : Reader) : List Record :=
  match r.place with
  | .recordStart | .afterReturn => r.records.reverse
  | _ => (r.endRecord .recordStart r.line).records.reverse

end Reader

def withoutMark : List Char → List Char
  | '\uFEFF' :: s => s
  | s => s

/-- The records of a text. -/
def records (s : List Char) : List Record := ((withoutMark s).foldl Reader.step .initial).finish

/-- Whether a field has to stand in quotes. -/
def needsQuotes (s : List Char) : Bool :=
  s.any fun c => c == '"' || c == ',' || c == '\r' || c == '\n'

def doubled : List Char → List Char
  | [] => []
  | c :: r => if c = '"' then '"' :: '"' :: doubled r else c :: doubled r

def writeField (s : List Char) : List Char :=
  if needsQuotes s then '"' :: (doubled s ++ ['"']) else s

end SparqlConformance.Csv

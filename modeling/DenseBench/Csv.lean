import DenseBench.Text.Character

/-!
# Comma-separated fields

Records of fields, one record a line. A field that holds a comma, a quote or a line end is quoted,
and a quote inside it is written twice; so is the one field of a record that is empty.
-/

namespace DenseBench.Csv

def needsQuotes (field : List Char) : Bool :=
  field.any fun c => c == ',' || c == '"' || c == '\n' || c == '\r'

def doubled (field : List Char) : List Char :=
  field.flatMap fun c => if c = '"' then ['"', '"'] else [c]

def writeField (field : List Char) : List Char :=
  if needsQuotes field then '"' :: doubled field ++ ['"'] else field

def writeRecord (fields : List (List Char)) : List Char :=
  match fields with
  | [[]] => ['"', '"', '\n']
  | _ => (fields.map writeField).intersperse [','] |>.flatten ++ ['\n']

/-- Where a reader stands: at the start of a field, inside one without quotes, inside one with
quotes, or behind a quote inside such a field. -/
inductive Mode
  | start
  | bare
  | quoted
  | quote

/-- What has been read: whole records, whole fields of the next one and characters of the next
field, each in reverse. -/
structure Reader where
  records : List (List (List Char)) := []
  fields : List (List Char) := []
  field : List Char := []
  mode : Mode := .start

namespace Reader

def endField (r : Reader) : Reader :=
  { r with fields := r.field.reverse :: r.fields, field := [], mode := .start }

def endRecord (r : Reader) : Reader :=
  let r := r.endField
  { r with records := r.fields.reverse :: r.records, fields := [] }

def isFresh (r : Reader) : Bool :=
  r.fields.isEmpty && r.field.isEmpty && match r.mode with
    | .start => true
    | _ => false

def push (r : Reader) (c : Char) (mode : Mode) : Reader :=
  { r with field := c :: r.field, mode := mode }

def bareStep (r : Reader) (c : Char) : Reader :=
  if c = ',' then r.endField
  else if c = '\n' ∨ c = '\r' then (if r.isFresh then r else r.endRecord)
  else r.push c .bare

def step (r : Reader) (c : Char) : Reader :=
  match r.mode with
  | .start => if c = '"' then { r with mode := .quoted } else r.bareStep c
  | .bare => r.bareStep c
  | .quoted => if c = '"' then { r with mode := .quote } else r.push c .quoted
  | .quote => if c = '"' then r.push '"' .quoted else r.bareStep c

end Reader

/-- The records of a text; empty lines are none, and a mark of the byte order before the first
record is no part of it. -/
def read (cs : List Char) : List (List (List Char)) :=
  let r := (Text.skipMark cs).foldl Reader.step {}
  (if r.isFresh then r else r.endRecord).records.reverse

end DenseBench.Csv

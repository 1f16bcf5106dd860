import TagScript.Datum.Text

/-!
Rows of cells as text. Reading drops blanks around cells and skips empty lines.
-/

namespace TagScript.Csv

/-- Where the reader stands within a row. -/
inductive Place where
  | rowStart
  | cellStart
  | inCell
  | inQuotes
  | afterQuote
  | rowEnd
  deriving DecidableEq, Repr

/-- What has been read: the cell, the row and the rows so far, each with the latest first. -/
structure State where
  place : Place
  cell : List Char
  row : List String
  rows : List (List String)

def State.start : State := ⟨.rowStart, [], [], []⟩

def State.endCell (s : State) (place : Place) : State :=
  { s with place := place, cell := [], row := String.ofList (Text.trimChars s.cell.reverse) :: s.row }

def State.keep (s : State) (place : Place) (c : Char) : State :=
  { s with place := place, cell := c :: s.cell }

def State.endRow (s : State) : State :=
  match s.row with
  | [] => { s with place := .rowStart }
  | row => ⟨.rowStart, [], [], row.reverse :: s.rows⟩

def isBreak (c : Char) : Bool :=
  c == '\n' || c == '\r'

def brokenRow : String :=
  "new-line character seen in unquoted field - do you need to open the file in universal-newline mode?"

def State.startCell (s : State) (c : Char) : State :=
  if isBreak c then s.endCell .rowEnd
  else if c == '"' then { s with place := .inQuotes }
  else if c == ' ' then { s with place := .cellStart }
  else if c == ',' then s.endCell .cellStart
  else s.keep .inCell c

def State.take (s : State) (c : Char) : Except String State :=
  match s.place with
  | .rowStart => .ok (if isBreak c then { s with place := .rowEnd } else s.startCell c)
  | .cellStart => .ok (s.startCell c)
  | .inCell =>
    .ok (if isBreak c then s.endCell .rowEnd
      else if c == ',' then s.endCell .cellStart
      else s.keep .inCell c)
  | .inQuotes => .ok (if c == '"' then { s with place := .afterQuote } else s.keep .inQuotes c)
  | .afterQuote =>
    .ok (if c == '"' then s.keep .inQuotes c
      else if c == ',' then s.endCell .cellStart
      else if isBreak c then s.endCell .rowEnd
      else s.keep .inCell c)
  | .rowEnd => if isBreak c then .ok s else .error brokenRow

def State.endLine (s : State) : State :=
  match s.place with
  | .rowStart | .rowEnd => s.endRow
  | .cellStart | .inCell | .afterQuote => (s.endCell .rowStart).endRow
  | .inQuotes => s

def State.takeAll (s : State) : List Char → Except String State
  | [] => .ok s
  | c :: rest =>
    match s.take c with
    | .error e => .error e
    | .ok s => (if c == '\n' then s.endLine else s).takeAll rest

def State.finish (s : State) : List (List String) :=
  let s := s.endLine
  let s := if s.place = .inQuotes then (s.endCell .rowStart).endRow else s
  s.rows.reverse

def read (text : String) : Except String (List (List String)) :=
  match Text.trimChars text.toList with
  | [] => .ok []
  | cs => (State.start.takeAll cs).map State.finish

/-! ### Writing -/

def writeCell (s : String) : String :=
  if s.toList.any fun c => c == ',' || c == '"' || c == '\n' then
    "\"" ++ String.join (s.toList.map fun c => if c == '"' then "\"\"" else c.toString) ++ "\""
  else s

def writeRow (cells : List String) : String :=
  match cells with
  | [""] => "\"\""
  | _ => Text.joined "," (cells.map writeCell)

def write (rows : List (List String)) : String :=
  Text.dropLastBreaks (String.join (rows.map fun row => writeRow row ++ "\n"))

def cellText (d : Datum) : Except String String :=
  d.text.mapError Json.unwritable

def recordCells (names : List String) : Datum → Except String (List String)
  | .map entries => names.mapM fun name => cellText ((Assoc.get? name entries).getD .none)
  | _ => .error "every row must be a mapping"

def rowCells : Datum → Except String (List String)
  | .seq cells => cells.mapM cellText
  | d => [d].mapM cellText

def writeDatum : Datum → Except String String
  | .seq (.map first :: rest) => do
    let names := Assoc.names first
    let rows ← (Datum.map first :: rest).mapM (recordCells names)
    return write (names :: rows)
  | .seq rows => return write (← rows.mapM rowCells)
  | _ => .error "stringify requires a sequence"

end TagScript.Csv

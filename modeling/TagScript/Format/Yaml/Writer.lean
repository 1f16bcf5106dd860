import TagScript.Datum.Text
import TagScript.Format.Yaml.Resolve
import TagScript.Format.Yaml.Token

/-!
Data as YAML text in block style. A string is plain if it can be read back so, else in quotes.
-/

namespace TagScript.Yaml

/-! ### What a string allows -/

/-- What a scan of a string has found. -/
structure Findings where
  blockIndicator : Bool
  lineBreak : Bool
  special : Bool
  leadingBlank : Bool
  trailingBlank : Bool
  /-- A space after a line break. -/
  breakSpace : Bool
  /-- A line break after a space. -/
  spaceBreak : Bool

def isWrittenBreak (c : Char) : Bool :=
  c == '\n' || c.toNat == 0x85 || c.toNat == 0x2028 || c.toNat == 0x2029

def isOrdinary (c : Char) : Bool :=
  c == '\n' || (0x20 ≤ c.toNat && c.toNat ≤ 0x7E)

def leadingMark (c : Char) (next : Option Char) : Bool :=
  "#,[]\x7b\x7d&*!|>'\"%@`".toList.contains c || ((c == '?' || c == ':' || c == '-') && atBlank next)

def innerMark (before c : Char) (next : Option Char) : Bool :=
  (c == ':' && atBlank next) || (c == '#' && atBlank (some before))

def scanInner (f : Findings) (before : Char) : List Char → Findings
  | [] => f
  | c :: rest =>
    let isSpace := c == ' '
    let isLine := isWrittenBreak c
    scanInner
      { f with
        blockIndicator := f.blockIndicator || innerMark before c rest.head?
        lineBreak := f.lineBreak || isLine
        special := f.special || !isOrdinary c
        trailingBlank := rest.isEmpty && (isSpace || isLine)
        breakSpace := f.breakSpace || (isSpace && isWrittenBreak before)
        spaceBreak := f.spaceBreak || (isLine && before == ' ') }
      c rest

def findings (cs : List Char) : Findings :=
  match cs with
  | [] => ⟨false, false, false, false, false, false, false⟩
  | c :: rest =>
    let divider := cs.take 3 == ['-', '-', '-'] || cs.take 3 == ['.', '.', '.']
    let blank := c == ' ' || isWrittenBreak c
    scanInner
      { blockIndicator := divider || leadingMark c rest.head?
        lineBreak := isWrittenBreak c
        special := !isOrdinary c
        leadingBlank := blank
        trailingBlank := rest.isEmpty && blank
        breakSpace := false
        spaceBreak := false }
      c rest

/-- How a scalar is written. -/
inductive Style where
  | plain
  | single
  | double
  deriving DecidableEq, Repr

def Findings.allowPlain (f : Findings) : Bool :=
  !(f.leadingBlank || f.trailingBlank || f.breakSpace || f.spaceBreak || f.special || f.lineBreak ||
    f.blockIndicator)

def Findings.allowSingle (f : Findings) : Bool :=
  !(f.breakSpace || f.spaceBreak || f.special)

def styleOf (isName : Bool) (s : String) : Style :=
  let f := findings s.toList
  if kindOf s = .str && f.allowPlain then .plain
  else if f.allowSingle && !(isName && f.lineBreak) then .single
  else .double

/-! ### Output -/

/-- What has been written, latest character first, and where the next character goes. -/
structure Output where
  text : List Char
  column : Nat
  /-- Whether the last thing written separates tokens. -/
  spaced : Bool
  /-- Whether only indentation and marks stand on the line. -/
  indented : Bool
  /-- The marks of stamps that stand in several places, and of those the ones that have been
  written. -/
  shared : List Nat
  written : List Nat

namespace Output

def empty (shared : List Nat) : Output := ⟨[], 0, true, true, shared, []⟩

def write (o : Output) (cs : List Char) : Output :=
  { o with text := cs.reverse ++ o.text, column := o.column + cs.length }

def mark (o : Output) (m : String) (needSpace spaced indented : Bool) : Output :=
  let cs := if o.spaced || !needSpace then m.toList else ' ' :: m.toList
  { o.write cs with spaced := spaced, indented := o.indented && indented }

def newline (o : Output) (c : Char) : Output :=
  { o with text := c :: o.text, column := 0, spaced := true, indented := true }

def indent (o : Output) (column : Nat) : Output :=
  let o :=
    if !o.indented || o.column > column || (o.column = column && !o.spaced) then o.newline '\n' else o
  if o.column < column then
    { o.write (List.replicate (column - o.column) ' ') with spaced := true }
  else o

end Output

def foldWidth : Nat := 80

def runs : List Char → List (List Char)
  | [] => []
  | c :: rest =>
    match runs rest with
    | [] => [[c]]
    | r :: others =>
      let class_ (c : Char) : Nat := if c == ' ' then 0 else if isWrittenBreak c then 1 else 2
      if r.head?.any fun d => class_ d == class_ c then (c :: r) :: others else [c] :: r :: others

def writePlainRuns (column : Nat) (fold : Bool) (o : Output) : List (List Char) → Output
  | [] => o
  | run :: rest =>
    let o :=
      if run == [' '] && o.column > foldWidth && fold then
        { o.indent column with spaced := false, indented := false }
      else o.write run
    writePlainRuns column fold o rest

def writePlain (o : Output) (column : Nat) (fold : Bool) (s : String) : Output :=
  if s.isEmpty then o
  else
    let o := if o.spaced then o else o.write [' ']
    writePlainRuns column fold { o with spaced := false, indented := false } (runs s.toList)

def writeBreaks (o : Output) (column : Nat) (breaks : List Char) : Output :=
  let o := if breaks.head? == some '\n' then o.newline '\n' else o
  (breaks.foldl Output.newline o).indent column

def writeSingleRuns (column : Nat) (fold : Bool) (first : Bool) (o : Output) :
    List (List Char) → Output
  | [] => o
  | run :: rest =>
    let o :=
      if run == [' '] && o.column > foldWidth && fold && !first && !rest.isEmpty then o.indent column
      else if run.head?.any isWrittenBreak then writeBreaks o column run
      else o.write (run.flatMap fun c => if c == '\'' then ['\'', '\''] else [c])
    writeSingleRuns column fold false o rest

def writeSingle (o : Output) (column : Nat) (fold : Bool) (s : String) : Output :=
  let o := o.mark "'" true false false
  (writeSingleRuns column fold true o (runs s.toList)).mark "'" false false false

def capitalHex (width n : Nat) : List Char :=
  (Text.hexadecimal width n).toList.map Char.toUpper

def escapeOf (c : Char) : List Char :=
  match escapes.find? (·.2 == c) with
  | some (letter, _) => ['\\', letter]
  | none =>
    let n := Text.codeOf c
    if n ≤ 0xFF then '\\' :: 'x' :: capitalHex 2 n
    else if n ≤ 0xFFFF then '\\' :: 'u' :: capitalHex 4 n
    else '\\' :: 'U' :: capitalHex 8 n

def isDirect (c : Char) : Bool :=
  0x20 ≤ c.toNat && c.toNat ≤ 0x7E && c != '"' && c != '\\'

/-- Writes the characters of a scalar in double quotes. `pending` has been read and not written, latest
first; `inside` says whether a character stands before. A line that gets too long is broken before a
space or after an escape. -/
def writeDoubleChars (column : Nat) (fold : Bool) (inside : Bool) (pending : List Char) (o : Output) :
    List Char → Output
  | [] => o.write pending.reverse
  | c :: rest =>
    let direct := isDirect c
    let o := if direct then o else (o.write pending.reverse).write (escapeOf c)
    let held := if direct then pending else []
    let atEdge := inside && !rest.isEmpty && (c == ' ' || !direct || held.isEmpty)
    let reached := if direct then o.column + held.length else o.column - 1
    if atEdge && reached > foldWidth && fold then
      let o := (o.write held.reverse).write ['\\']
      let o := { o.indent column with spaced := false, indented := false }
      let begins := if direct then some c else rest.head?
      let o := if begins == some ' ' then o.write ['\\'] else o
      writeDoubleChars column fold true (if direct then [c] else []) o rest
    else writeDoubleChars column fold true (if direct then c :: held else []) o rest

def writeDouble (o : Output) (column : Nat) (fold : Bool) (s : String) : Output :=
  let o := o.mark "\"" true false false
  (writeDoubleChars column fold false [] o s.toList).mark "\"" false false false

def writeString (o : Output) (column : Nat) (isName : Bool) (s : String) : Output :=
  match styleOf isName s with
  | .plain => writePlain o column (!isName) s
  | .single => writeSingle o column (!isName) s
  | .double => writeDouble o column (!isName) s

/-! ### Data -/

def floatText (x : Float) : String :=
  let s := Numeral.ofFloat x
  if x.isNaN then ".nan"
  else if !Binary64.isFinite x then (if Binary64.isNegative x then "-.inf" else ".inf")
  else if !s.toList.contains '.' && s.toList.contains 'e' then s.replace "e" ".0e"
  else s

def scalarSpelling : Datum → String
  | .none => "null"
  | .bool b => Datum.boolText b
  | .int i => Numeral.ofInt i
  | .num n => floatText n.val
  | .stamp s _ => s.iso " "
  | d => d.diagnostic

def repeated (marks : List Nat) : List Nat :=
  (marks.foldl (fun (seen, again) mark =>
    if again.contains mark then (seen, again)
    else if seen.contains mark then (seen, again ++ [mark])
    else (mark :: seen, again)) (([] : List Nat), ([] : List Nat))).2

def writeStamp (o : Output) (column : Nat) (s : Stamp) (mark : Nat) : Output :=
  let spelling := s.iso " "
  match o.shared.findIdx? (· == mark) with
  | none => writePlain o column true spelling
  | some i =>
    let name := "id" ++ padded 3 (i + 1)
    if o.written.contains mark then o.mark ("*" ++ name) true false false
    else
      let o := o.mark ("&" ++ name) true false false
      writePlain { o with written := mark :: o.written } column true spelling

def isShortName (name : String) : Bool :=
  let f := findings name.toList
  !name.isEmpty && !f.lineBreak && name.length + 5 < 128

def deeper (column : Option Nat) : Nat :=
  column.elim 0 (· + 2)

def scalarColumn (column : Option Nat) : Nat :=
  column.elim 2 (· + 2)

mutual

/-- Writes a datum in a block of the given indentation; `inMapping` says whether it is the value of
an entry, where a sequence need not be indented. -/
def writeDatumTo (column : Option Nat) (inMapping : Bool) (o : Output) : Datum → Output
  | .str s => writeString o (scalarColumn column) false s
  | .seq [] => (o.mark "[" true true false).mark "]" false false false
  | .seq (d :: rest) =>
    let inner := if inMapping && !o.indented then column.getD 0 else deeper column
    writeItems inner o (d :: rest)
  | .map [] => (o.mark "\x7b" true true false).mark "\x7d" false false false
  | .map (entry :: rest) => writeEntries (deeper column) o (entry :: rest)
  | .none => writePlain o (scalarColumn column) true (scalarSpelling .none)
  | .bool b => writePlain o (scalarColumn column) true (scalarSpelling (.bool b))
  | .num n => writePlain o (scalarColumn column) true (scalarSpelling (.num n))
  | .int i => writePlain o (scalarColumn column) true (scalarSpelling (.int i))
  | .stamp s mark => writeStamp o (scalarColumn column) s mark
  | .error r => writePlain o (scalarColumn column) true (scalarSpelling (.error r))
  | .func name params mark =>
    writePlain o (scalarColumn column) true (scalarSpelling (.func name params mark))

def writeItems (column : Nat) (o : Output) : List Datum → Output
  | [] => o
  | d :: rest =>
    let o := (o.indent column).mark "-" true false true
    writeItems column (writeDatumTo (some column) false o d) rest

def writeEntries (column : Nat) (o : Output) : List (String × Datum) → Output
  | [] => o
  | entry :: rest => writeEntries column (writeEntry column o entry) rest

def writeEntry (column : Nat) (o : Output) : String × Datum → Output
  | (name, d) =>
    let o := o.indent column
    let o :=
      if isShortName name then (writeString o (column + 2) true name).mark ":" false false false
      else
        let o := o.mark "?" true false true
        let o := writeString o (column + 2) false name
        (o.indent column).mark ":" true false true
    writeDatumTo (some column) true o d

end

def unwritable? : Datum → Option Datum :=
  Datum.fold (fun d =>
    match d with
    | .func _ _ _ | .error _ | .stamp (.time _) _ | .stamp (.other _) _ => some d
    | _ => none) (List.findSome? id) (List.findSome? Prod.snd)

/-- Whether a datum by itself is written without quotes, so that the text needs a mark at its end.
-/
def isPlainRoot : Datum → Bool
  | .str s => styleOf false s = .plain
  | .seq _ => false
  | .map _ => false
  | _ => true

def writeDatum (d : Datum) : Except String String :=
  match unwritable? d with
  | some e => .error ("('cannot represent an object', " ++ e.diagnostic ++ ")")
  | none =>
    let o := (writeDatumTo none false (Output.empty (repeated d.stampMarks)) d).indent 0
    let o := if isPlainRoot d then (o.mark "..." true false false).indent 0 else o
    .ok (String.ofList (o.text.dropWhile (· == '\n')).reverse)

end TagScript.Yaml

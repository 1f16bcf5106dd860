import TagScript.Format.Yaml.Token

/-!
The spellings of scalars in YAML documents, and the names and tags that may stand before them.
-/

namespace TagScript.Yaml

/-! ### Names and tags -/

def scanAnchor (c : Cursor) : Except String (String × Cursor) :=
  let (name, c) := c.forward.run isWord
  if name.isEmpty then .error "expected alphabetic or numeric character"
  else if atBlank c.peek || isOneOf "?:,]\x7d%@`" c.peek then .ok (String.ofList name, c)
  else .error "expected alphabetic or numeric character"

def isTagChar (c : Char) : Bool :=
  c.isAlphanum || "-;/?:@&=+$,_.!~*'()[]%".toList.contains c

def textOfBytes (bytes : List UInt8) : Except String String :=
  (String.fromUTF8? ⟨bytes.toArray⟩).elim (.error "invalid bytes in an escape") .ok

/-- Replaces the escapes of a tag, each a percent sign with two digits, by what their bytes spell.
The first argument holds the bytes of the escapes that end here. -/
def unescapeTag (bytes : List UInt8) : List Char → Except String String
  | [] => textOfBytes bytes
  | '%' :: a :: b :: rest =>
    match Text.hexNumber? [a, b] with
    | some n => unescapeTag (bytes ++ [n.toUInt8]) rest
    | none => .error "expected URI escape sequence of 2 hexadecimal numbers"
  | c :: rest =>
    if c == '%' then .error "expected URI escape sequence of 2 hexadecimal numbers"
    else return (← textOfBytes bytes) ++ c.toString ++ (← unescapeTag [] rest)

def scanTagText (c : Cursor) : Except String (String × Cursor) :=
  let (text, c) := c.run isTagChar
  if text.isEmpty then .error "expected URI" else (unescapeTag [] text).map fun text => (text, c)

def scanHandle (c : Cursor) : Except String (String × Cursor) :=
  if c.peek != some '!' then .error "expected '!'"
  else if c.ahead 1 == some ' ' then .ok ("!", c.forward)
  else
    let (name, after) := c.forward.run isWord
    if after.peek == some '!' then .ok ("!" ++ String.ofList name ++ "!", after.forward)
    else .error "expected '!'"

def scanTag (c : Cursor) : Except String (Option String × String × Cursor) := do
  let (handle, suffix, c) ←
    if c.ahead 1 == some '<' then do
      let (suffix, c) ← scanTagText (c.advance 2)
      if c.peek == some '>' then pure (none, suffix, c.forward) else .error "expected '>'"
    else if atBlank (c.ahead 1) then pure (none, "!", c.forward)
    else
      let word := (c.rest.drop 1).takeWhile fun ch => !(ch == ' ' || isBreak ch)
      let (handle, c) ← if word.contains '!' then scanHandle c else pure ("!", c.forward)
      let (suffix, c) ← scanTagText c
      pure (some handle, suffix, c)
  if atSpace c.peek then return (handle, suffix, c) else .error "expected ' '"

/-! ### Directives -/

def scanNumber (c : Cursor) : Except String (Nat × Cursor) :=
  let (digits, c) := c.run Char.isDigit
  if digits.isEmpty then .error "expected a digit"
  else .ok (Text.decimalNumber digits, c)

def scanDirectiveValue (name : String) (c : Cursor) : Except String (Directive × Cursor) :=
  if name == "YAML" then do
    let (major, c) ← scanNumber c.skipSpaces
    if c.peek != some '.' then .error "expected a digit or '.'"
    else
      let (_, c) ← scanNumber c.forward
      if atSpace c.peek then return (.version major, c) else .error "expected a digit or ' '"
  else if name == "TAG" then do
    let (handle, c) ← scanHandle c.skipSpaces
    if c.peek != some ' ' then .error "expected ' '"
    else
      let (expansion, c) ← scanTagText c.skipSpaces
      if atSpace c.peek then return (.handle handle expansion, c) else .error "expected ' '"
  else .ok (.other, c.skip fun ch => !isBreak ch)

def scanDirective (c : Cursor) : Except String (Directive × Cursor) := do
  let (name, c) := c.forward.run isWord
  if name.isEmpty || !atSpace c.peek then .error "expected alphabetic or numeric character"
  else
    let (directive, c) ← scanDirectiveValue (String.ofList name) c
    return (directive, ← c.skipLine)

/-! ### Block scalars -/

/-- What is kept of the line breaks at the end of a block scalar. -/
inductive Chomping where
  | clip
  | strip
  | keep
  deriving DecidableEq, Repr

def chomping? (c : Option Char) : Option Chomping :=
  match c with
  | some '+' => some .keep
  | some '-' => some .strip
  | _ => none

def indentDigit? (c : Option Char) : Except String (Option Nat) :=
  match c with
  | some d =>
    if d.isDigit then
      if d == '0' then .error "expected indentation indicator in the range 1-9, but found 0"
      else .ok (some (d.toNat - '0'.toNat))
    else .ok none
  | none => .ok none

def scanHeading (c : Cursor) : Except String (Chomping × Option Nat × Cursor) := do
  let (chomp, indent, c) ←
    match chomping? c.peek with
    | some chomp => do
      let c := c.forward
      match ← indentDigit? c.peek with
      | some n => pure (chomp, some n, c.forward)
      | none => pure (chomp, none, c)
    | none => do
      match ← indentDigit? c.peek with
      | some n =>
        let c := c.forward
        match chomping? c.peek with
        | some chomp => pure (chomp, some n, c.forward)
        | none => pure (.clip, some n, c)
      | none => pure (.clip, none, c)
  if atSpace c.peek then return (chomp, indent, c)
  else .error "expected chomping or indentation indicators"

/-- Goes over leading empty lines: their breaks, and the deepest indentation. The first argument
bounds the characters. -/
def scanIndentation : Nat → List Char → Nat → Cursor → List Char × Nat × Cursor
  | 0, breaks, deepest, c => (breaks, deepest, c)
  | bound + 1, breaks, deepest, c =>
    match c.peek with
    | some ch =>
      if ch == ' ' then
        let c := c.forward
        scanIndentation bound breaks (max deepest c.column) c
      else if isBreak ch then
        let (br, c) := c.lineBreak
        scanIndentation bound (breaks ++ br) deepest c
      else (breaks, deepest, c)
    | none => (breaks, deepest, c)

def skipToColumn (column : Nat) (c : Cursor) : Cursor :=
  c.advance (min (column - c.column) (c.rest.takeWhile (· == ' ')).length)

/-- Goes over empty lines and the indentation of the next line. The first argument bounds the lines.
-/
def scanBreaks (column : Nat) : Nat → List Char → Cursor → List Char × Cursor
  | 0, breaks, c => (breaks, c)
  | bound + 1, breaks, c =>
    let c := skipToColumn column c
    match c.lineBreak with
    | ([], c) => (breaks, c)
    | (br, c) => scanBreaks column bound (breaks ++ br) c

def atBlockLine (column : Nat) (c : Cursor) : Bool :=
  c.column == column && c.peek.isSome

def scanBlockLines (folded : Bool) (column : Nat) : Nat → List Char → List Char → Cursor →
    List Char × List Char × List Char × Cursor
  | 0, text, breaks, c => (text, [], breaks, c)
  | bound + 1, text, breaks, c =>
    if !atBlockLine column c then (text, [], breaks, c)
    else
      let flush := !isOneOf " \t" c.peek
      let (line, c) := c.run fun ch => !isBreak ch
      let text := text ++ breaks ++ line
      let (last, c) := c.lineBreak
      let (breaks, c) := scanBreaks column (c.rest.length + 1) [] c
      if atBlockLine column c then
        let fold := folded && last == ['\n'] && flush && !isOneOf " \t" c.peek
        let joint := if !fold then last else if breaks.isEmpty then [' '] else []
        scanBlockLines folded column bound (text ++ joint) breaks c
      else (text, last, breaks, c)

def scanBlockScalar (folded : Bool) (indent : Int) (c : Cursor) : Except String (String × Cursor) := do
  let (chomp, increment, c) ← scanHeading c.forward
  let c ← c.skipLine
  let least := (max (indent + 1) 1).toNat
  let bound := c.rest.length + 1
  let (column, breaks, c) :=
    match increment with
    | none =>
      let (breaks, deepest, c) := scanIndentation bound [] 0 c
      (max least deepest, breaks, c)
    | some n =>
      let column := least + n - 1
      let (breaks, c) := scanBreaks column bound [] c
      (column, breaks, c)
  let (text, last, breaks, c) := scanBlockLines folded column bound [] breaks c
  let text :=
    match chomp with
    | .strip => text
    | .clip => text ++ last
    | .keep => text ++ last ++ breaks
  return (String.ofList text, c)

/-! ### Quoted scalars -/

def codeLength? (c : Char) : Option Nat :=
  if c == 'x' then some 2 else if c == 'u' then some 4 else if c == 'U' then some 8 else none

def scanQuotedBreaks : Nat → List Char → Cursor → Except String (List Char × Cursor)
  | 0, breaks, c => .ok (breaks, c)
  | bound + 1, breaks, c =>
    if c.atDivider then .error "found unexpected document separator"
    else
      let c := c.skip fun ch => ch == ' ' || ch == '\t'
      match c.lineBreak with
      | ([], c) => .ok (breaks, c)
      | (br, c) => scanQuotedBreaks bound (breaks ++ br) c

def scanCode (width : Nat) (cs : List Char) : Except String Nat :=
  let digits := cs.take width
  match if digits.length = width then Text.hexNumber? digits else none with
  | none => .error "expected escape sequence of hexadecimal numbers"
  | some n => if n > 0x10FFFF then .error "chr() arg not in range(0x110000)" else .ok n

def scanEscape (c : Cursor) : Except String (List Char × Cursor) :=
  let c := c.forward
  match c.peek with
  | none => .error "found unknown escape character"
  | some ch =>
    match escapes.find? (·.1 == ch), codeLength? ch with
    | some (_, e), _ => .ok ([e], c.forward)
    | none, some width => return ([Text.charOfCode (← scanCode width c.forward.rest)], c.advance (width + 1))
    | none, none =>
      if isBreak ch then
        let c := c.lineBreak.2
        scanQuotedBreaks (c.rest.length + 1) [] c
      else .error "found unknown escape character"

/-- A line break and those of empty lines behind it, as they stand in a scalar. -/
def folded (first breaks : List Char) : List Char :=
  if first != ['\n'] then first ++ breaks else if breaks.isEmpty then [' '] else breaks

def scanQuotedSpaces (c : Cursor) : Except String (List Char × Cursor) :=
  let (blanks, c) := c.run fun ch => ch == ' ' || ch == '\t'
  match c.peek with
  | none => .error "found unexpected end of stream"
  | some ch =>
    if isBreak ch then do
      let (first, c) := c.lineBreak
      let (breaks, c) ← scanQuotedBreaks (c.rest.length + 1) [] c
      return (folded first breaks, c)
    else .ok (blanks, c)

def scanQuoted (quote : Char) : Nat → List Char → Cursor → Except String (String × Cursor)
  | 0, _, _ => .error "found unexpected end of stream"
  | bound + 1, text, c =>
    match c.peek with
    | none => .error "found unexpected end of stream"
    | some ch =>
      if ch == quote then
        if quote == '\'' && c.ahead 1 == some '\'' then
          scanQuoted quote bound (text ++ ['\'']) (c.advance 2)
        else .ok (String.ofList text, c.forward)
      else if quote == '"' && ch == '\\' then do
        let (part, c) ← scanEscape c
        scanQuoted quote bound (text ++ part) c
      else if ch == ' ' || ch == '\t' || isBreak ch then do
        let (part, c) ← scanQuotedSpaces c
        scanQuoted quote bound (text ++ part) c
      else
        let (part, after) := c.run fun ch =>
          !(ch == '\'' || ch == '"' || ch == '\\' || ch == ' ' || ch == '\t' || isBreak ch)
        if part.isEmpty then scanQuoted quote bound (text ++ [ch]) c.forward
        else scanQuoted quote bound (text ++ part) after

/-! ### Plain scalars -/

def plainLength (inFlow : Bool) : List Char → Nat
  | [] => 0
  | ch :: rest =>
    if ch == ' ' || ch == '\t' || isBreak ch then 0
    else if ch == ':' && (atBlank rest.head? || (inFlow && isOneOf ",[]\x7b\x7d" rest.head?)) then 0
    else if inFlow && ",?[]\x7b\x7d".toList.contains ch then 0
    else plainLength inFlow rest + 1

/-- Empty lines behind a piece of a plain scalar; none if documents are divided here. The first
argument bounds the characters. -/
def scanPlainBreaks : Nat → List Char → Cursor → Option (List Char) × Cursor
  | 0, breaks, c => (some breaks, c)
  | bound + 1, breaks, c =>
    match c.peek with
    | some ch =>
      if ch == ' ' then scanPlainBreaks bound breaks c.forward
      else if isBreak ch then
        let (br, c) := c.lineBreak
        if c.atDivider then (none, c) else scanPlainBreaks bound (breaks ++ br) c
      else (some breaks, c)
    | none => (some breaks, c)

def scanPlainSpaces (c : Cursor) : List Char × Bool × Cursor :=
  let (spaces, c) := c.run (· == ' ')
  match c.lineBreak with
  | ([], c) => (spaces, false, c)
  | (first, c) =>
    if c.atDivider then ([], true, c)
    else
      match scanPlainBreaks (c.rest.length + 1) [] c with
      | (none, c) => ([], true, c)
      | (some breaks, c) => (folded first breaks, true, c)

/-- A plain scalar inside a block of the given indentation. The Boolean says whether a line ended
behind it. The first argument bounds the pieces. -/
def scanPlain (inFlow : Bool) (indent : Int) : Nat → Bool → List Char → List Char → Cursor →
    String × Bool × Cursor
  | 0, broken, text, _, c => (String.ofList text, broken, c)
  | bound + 1, broken, text, spaces, c =>
    let length := if c.peek == some '#' then 0 else plainLength inFlow c.rest
    if length = 0 then (String.ofList text, broken, c)
    else
      let text := text ++ spaces ++ c.rest.take length
      let (spaces, broken, c) := scanPlainSpaces (c.advance length)
      if spaces.isEmpty || c.peek == some '#' || (!inFlow && (c.column : Int) < indent + 1) then
        (String.ofList text, broken, c)
      else scanPlain inFlow indent bound broken text spaces c

end TagScript.Yaml

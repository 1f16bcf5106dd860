import TagScript.Format.Yaml.Scalar

/-!
The tokens of a YAML text. A token that may turn out to be a key is remembered until the colon
behind it is found.
-/

namespace TagScript.Yaml

/-- A token that may be a key, with the place where it begins. -/
structure PossibleKey where
  number : Nat
  required : Bool
  index : Nat
  line : Nat
  column : Nat

/-- A text that has been scanned in part. -/
structure Scanner where
  cursor : Cursor
  tokens : List Token
  /-- How many brackets are open. -/
  flow : Nat
  /-- The column of the innermost block, and those around it. -/
  indent : Int
  indents : List Int
  /-- Whether a key may begin here. -/
  keyAllowed : Bool
  /-- Tokens that may be keys, by the number of brackets around them. -/
  keys : List (Nat × PossibleKey)

namespace Scanner

def start (cs : List Char) : Scanner := ⟨⟨cs, 0, 0, 0⟩, [], 0, -1, [], true, []⟩

def add (s : Scanner) (t : Token) : Scanner := { s with tokens := t :: s.tokens }

def insert (s : Scanner) (number : Nat) (t : Token) : Scanner :=
  { s with tokens := s.tokens.insertIdx (s.tokens.length - number) t }

def advance (s : Scanner) (n : Nat) : Scanner := { s with cursor := s.cursor.advance n }

def toNext : Nat → Scanner → Scanner
  | 0, s => s
  | bound + 1, s =>
    match s.cursor.skipSpaces.skipComment.lineBreak with
    | ([], c) => { s with cursor := c }
    | (_, c) => toNext bound { s with cursor := c, keyAllowed := s.keyAllowed || s.flow = 0 }

def noColon : String := "could not find expected ':'"

def isStale (s : Scanner) (k : PossibleKey) : Bool :=
  k.line != s.cursor.line || s.cursor.index - k.index > 1024

def dropStale (s : Scanner) : Except String Scanner :=
  if s.keys.any fun (_, k) => s.isStale k && k.required then .error noColon
  else .ok { s with keys := s.keys.filter fun (_, k) => !s.isStale k }

def key? (s : Scanner) : Option PossibleKey :=
  (s.keys.find? (·.1 == s.flow)).map (·.2)

def dropKey (s : Scanner) : Except String Scanner :=
  if s.key?.any (·.required) then .error noColon
  else .ok { s with keys := s.keys.filter (·.1 != s.flow) }

def saveKey (s : Scanner) : Except String Scanner :=
  if s.keyAllowed then do
    let required := s.flow = 0 && s.indent = s.cursor.column
    let s ← s.dropKey
    let c := s.cursor
    let k : PossibleKey := ⟨s.tokens.length, required, c.index, c.line, c.column⟩
    return { s with keys := (s.flow, k) :: s.keys }
  else .ok s

def closeBlocks (s : Scanner) (column : Int) : Scanner :=
  if s.flow > 0 then s
  else
    let rec go : List Int → Int → List Token → Scanner
      | [], indent, tokens => { s with indent := indent, indents := [], tokens := tokens }
      | outer :: rest, indent, tokens =>
        if indent > column then go rest outer (.blockEnd :: tokens)
        else { s with indent := indent, indents := outer :: rest, tokens := tokens }
    go s.indents s.indent s.tokens

def openBlock (s : Scanner) (column : Int) : Bool × Scanner :=
  if s.indent < column then (true, { s with indents := s.indent :: s.indents, indent := column })
  else (false, s)

def takeEnd (s : Scanner) : Except String Scanner := do
  let s ← (s.closeBlocks (-1)).dropKey
  return { s with keys := [], keyAllowed := false }.add .streamEnd

def takeDirective (s : Scanner) : Except String Scanner := do
  let s ← (s.closeBlocks (-1)).dropKey
  let (d, c) ← scanDirective s.cursor
  return { s with keyAllowed := false, cursor := c }.add (.directive d)

def takeDivider (s : Scanner) (t : Token) : Except String Scanner := do
  let s ← (s.closeBlocks (-1)).dropKey
  return ({ s with keyAllowed := false }.advance 3).add t

def takeOpener (s : Scanner) (t : Token) : Except String Scanner := do
  let s ← s.saveKey
  return ({ s with flow := s.flow + 1, keyAllowed := true }.advance 1).add t

def takeCloser (s : Scanner) (t : Token) : Except String Scanner := do
  let s ← s.dropKey
  return ({ s with flow := s.flow - 1, keyAllowed := false }.advance 1).add t

def takeComma (s : Scanner) : Except String Scanner := do
  let s ← { s with keyAllowed := true }.dropKey
  return (s.advance 1).add .flowEntry

def openAtCursor (s : Scanner) (t : Token) (refusal : String) : Except String Scanner :=
  if s.flow > 0 then .ok s
  else if !s.keyAllowed then .error refusal
  else
    match s.openBlock s.cursor.column with
    | (true, s) => .ok (s.add t)
    | (false, s) => .ok s

def takeDash (s : Scanner) : Except String Scanner := do
  let s ← s.openAtCursor .blockSequenceStart "sequence entries are not allowed here"
  let s ← { s with keyAllowed := true }.dropKey
  return (s.advance 1).add .blockEntry

def takeQuestion (s : Scanner) : Except String Scanner := do
  let s ← s.openAtCursor .blockMappingStart "mapping keys are not allowed here"
  let s ← { s with keyAllowed := s.flow = 0 }.dropKey
  return (s.advance 1).add .key

def takeColon (s : Scanner) : Except String Scanner := do
  let s ←
    match s.key? with
    | some k =>
      let s := { s with keys := s.keys.filter (·.1 != s.flow), keyAllowed := false }
      let s := s.insert k.number .key
      if s.flow > 0 then pure s
      else
        match s.openBlock k.column with
        | (true, s) => pure (s.insert k.number .blockMappingStart)
        | (false, s) => pure s
    | none =>
      let s ← s.openAtCursor .blockMappingStart "mapping values are not allowed here"
      { s with keyAllowed := s.flow = 0 }.dropKey
  return (s.advance 1).add .value

def takeNode (s : Scanner) (scan : Cursor → Except String (Token × Cursor)) : Except String Scanner := do
  let s ← s.saveKey
  let (t, c) ← scan s.cursor
  return { s with keyAllowed := false, cursor := c }.add t

def takeBlockScalar (s : Scanner) (folded : Bool) : Except String Scanner := do
  let s ← { s with keyAllowed := true }.dropKey
  let (text, c) ← scanBlockScalar folded s.indent s.cursor
  return { s with cursor := c }.add (.scalar text false)

def takeQuoted (s : Scanner) (quote : Char) : Except String Scanner :=
  s.takeNode fun c => do
    let (text, after) ← scanQuoted quote (c.rest.length + 1) [] c.forward
    return (.scalar text false, after)

def takePlain (s : Scanner) : Except String Scanner := do
  let s ← s.saveKey
  let (text, broken, c) :=
    scanPlain (s.flow > 0) s.indent (s.cursor.rest.length + 1) false [] [] s.cursor
  return { s with keyAllowed := broken, cursor := c }.add (.scalar text true)

def mayBePlain (s : Scanner) (ch : Char) : Bool :=
  !(ch == ' ' || ch == '\t' || isBreak ch || "-?:,[]\x7b\x7d#&*!|>'\"%@`".toList.contains ch) ||
    (!atBlank (s.cursor.ahead 1) && (ch == '-' || (s.flow = 0 && (ch == '?' || ch == ':'))))

def atDivider (s : Scanner) (ch : Char) : Bool :=
  s.cursor.column == 0 && s.cursor.rest.take 3 == [ch, ch, ch] && atBlank (s.cursor.ahead 3)

def takeToken (s : Scanner) (ch : Char) : Except String Scanner :=
  if ch == '%' && s.cursor.column == 0 then s.takeDirective
  else if ch == '-' && s.atDivider '-' then s.takeDivider .documentStart
  else if ch == '.' && s.atDivider '.' then s.takeDivider .documentEnd
  else if ch == '[' then s.takeOpener .flowSequenceStart
  else if ch == '\x7b' then s.takeOpener .flowMappingStart
  else if ch == ']' then s.takeCloser .flowSequenceEnd
  else if ch == '\x7d' then s.takeCloser .flowMappingEnd
  else if ch == ',' then s.takeComma
  else if ch == '-' && atBlank (s.cursor.ahead 1) then s.takeDash
  else if ch == '?' && (s.flow > 0 || atBlank (s.cursor.ahead 1)) then s.takeQuestion
  else if ch == ':' && (s.flow > 0 || atBlank (s.cursor.ahead 1)) then s.takeColon
  else if ch == '*' then s.takeNode fun c => (scanAnchor c).map fun (n, c) => (.alias n, c)
  else if ch == '&' then s.takeNode fun c => (scanAnchor c).map fun (n, c) => (.anchor n, c)
  else if ch == '!' then s.takeNode fun c => (scanTag c).map fun (h, t, c) => (.tag h t, c)
  else if ch == '|' && s.flow = 0 then s.takeBlockScalar false
  else if ch == '>' && s.flow = 0 then s.takeBlockScalar true
  else if ch == '\'' || ch == '"' then s.takeQuoted ch
  else if s.mayBePlain ch then s.takePlain
  else .error ("found character " ++ Text.quoted ch.toString ++ " that cannot start any token")

def takeAll : Nat → Scanner → Except String Scanner
  | 0, s => s.takeEnd
  | bound + 1, s => do
    let s ← (toNext (s.cursor.rest.length + 1) s).dropStale
    let s := s.closeBlocks s.cursor.column
    match s.cursor.peek with
    | none => s.takeEnd
    | some ch => takeAll bound (← s.takeToken ch)

end Scanner

def tokens (text : String) : Except String (List Token) :=
  let cs := text.toList
  if !cs.all isAllowed then .error "special characters are not allowed"
  else
    let start := Scanner.start cs
    let start := if cs.head? == some '\ufeff' then start.advance 1 else start
    (Scanner.takeAll (cs.length + 1) start).map fun s => s.tokens.reverse

end TagScript.Yaml

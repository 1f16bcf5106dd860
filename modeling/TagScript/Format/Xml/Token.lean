import TagScript.Format.Xml.Character

/-!
The tokens of what stands before and after the root element of a document.
-/

namespace TagScript.Xml

/-- A token outside of the root element. -/
inductive Token where
  | comment
  | instruction
  /-- The opening of a declaration, with its word. -/
  | declaration (word : String)
  | name (text : String)
  /-- A name with a mark that says how often it may stand. -/
  | marked
  /-- What has the characters of a name but does not begin as one. -/
  | word
  /-- A name behind a number sign. -/
  | keyword (text : String)
  | literal (text : List Char)
  /-- A reference to further declarations. -/
  | reference
  | percent
  | openBracket
  | closeBracket
  | openParen
  | closeParen (mark : Option Char)
  | comma
  | bar
  | close
  deriving DecidableEq, Repr

def isFollowed (marks : List Char) (cs : List Char) : Bool :=
  cs.head?.any fun c => isSpace c || marks.contains c

/-! ### Comments and instructions -/

def skipComment (cs : List Char) : Except String (List Char) :=
  match splitAround? ['-', '-'] cs with
  | some (_, '>' :: rest) => .ok rest
  | _ => .error malformed

def skipInstruction (cs : List Char) : Except String (List Char) := do
  let (target, rest) ← readName cs
  if target.toLower == "xml" then .error "XML or text declaration not at start of entity"
  else
    match rest with
    | '?' :: '>' :: rest => .ok rest
    | c :: rest =>
      if isSpace c then
        match splitAround? ['?', '>'] rest with
        | some (_, rest) => .ok rest
        | none => .error "unclosed token"
      else .error malformed
    | [] => .error "unclosed token"

/-! ### Parts of declarations -/

def isDeclarationChar (c : Char) : Bool :=
  c.isAlpha || c == '_' || c == ':'

def readDeclaration (cs : List Char) : Except String (Token × List Char) :=
  let word := cs.takeWhile isDeclarationChar
  let rest := cs.drop word.length
  if word.isEmpty then .error malformed
  else
    match rest with
    | '%' :: tail =>
      if tail.isEmpty || isFollowed ['%'] tail then .error malformed
      else .ok (.declaration (String.ofList word), rest)
    | _ =>
      if isFollowed [] rest then .ok (.declaration (String.ofList word), rest) else .error malformed

def readLiteral (quote : Char) (cs : List Char) : Except String (Token × List Char) :=
  match splitAround? [quote] cs with
  | some (text, rest) =>
    if isFollowed ['>', '%', '['] rest then .ok (.literal text, rest) else .error malformed
  | none => .error "unclosed token"

def readPercent (cs : List Char) : Except String (Token × List Char) :=
  if isFollowed ['%'] cs then .ok (.percent, cs)
  else
    match readName cs with
    | .ok (_, ';' :: rest) => .ok (.reference, rest)
    | _ => .error malformed

def readKeyword (cs : List Char) : Except String (Token × List Char) := do
  let (name, rest) ← readName cs
  if isFollowed [')', '>', '%', '|'] rest then return (.keyword name, rest) else .error malformed

def readWord (cs : List Char) : Except String (Token × List Char) :=
  let text := cs.takeWhile isNameChar
  let rest := cs.drop text.length
  let isName := text.head?.any isNameStart
  if text.isEmpty then .error malformed
  else if isFollowed ['>', ')', ',', '|', '[', '%'] rest then
    .ok (if isName then .name (String.ofList text) else .word, rest)
  else if isName && rest.head?.any fun c => c == '+' || c == '*' || c == '?' then
    .ok (.marked, rest.drop 1)
  else .error malformed

def readCloseParen (cs : List Char) : Except String (Token × List Char) :=
  match cs with
  | c :: rest =>
    if c == '*' || c == '?' || c == '+' then .ok (.closeParen (some c), rest)
    else if isFollowed ['>', ',', '|', ')'] cs then .ok (.closeParen none, cs)
    else .error malformed
  | [] => .error malformed

def readToken (cs : List Char) : Except String (Token × List Char) :=
  match cs with
  | '<' :: '?' :: rest => (skipInstruction rest).map fun rest => (.instruction, rest)
  | '<' :: '!' :: '-' :: '-' :: rest => (skipComment rest).map fun rest => (.comment, rest)
  | '<' :: '!' :: rest => readDeclaration rest
  | '"' :: rest => readLiteral '"' rest
  | '\'' :: rest => readLiteral '\'' rest
  | '%' :: rest => readPercent rest
  | '#' :: rest => readKeyword rest
  | ',' :: rest => .ok (.comma, rest)
  | '|' :: rest => .ok (.bar, rest)
  | '(' :: rest => .ok (.openParen, rest)
  | ')' :: rest => readCloseParen rest
  | '[' :: rest => .ok (.openBracket, rest)
  | ']' :: ']' :: '>' :: _ => .error malformed
  | ']' :: rest => .ok (.closeBracket, rest)
  | '>' :: rest => .ok (.close, rest)
  | _ => readWord cs

def beginsElement (c : Char) : Bool :=
  isDeclarationChar c || c.toNat ≥ 0x80

def tokens : Nat → List Char → Except String (List Token × List Char)
  | 0, _ => .error malformed
  | bound + 1, cs =>
    match skipSpace cs with
    | [] => .ok ([], [])
    | body =>
      if body.head? == some '<' && (body.drop 1).head?.any beginsElement then .ok ([], body)
      else do
        let (token, rest) ← readToken body
        let (others, rest) ← tokens bound rest
        return (token :: others, rest)

end TagScript.Xml

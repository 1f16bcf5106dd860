import TagScript.Fault
import TagScript.Number.Reading
import TagScript.Datum.Literal

/-!
Tokens of expressions: numbers, strings, truth values, dotted names, operators and marks. Every token
knows where it starts; blanks between tokens are dropped.
-/

namespace TagScript.Expr

/-- The operator signs. -/
inductive Symbol where
  | or | and | eq | ne | lt | le | gt | ge | add | sub | mul | div | rem | pow | bang
  deriving DecidableEq, Repr

def Symbol.text : Symbol → String
  | .or => "||"
  | .and => "&&"
  | .eq => "=="
  | .ne => "!="
  | .lt => "<"
  | .le => "<="
  | .gt => ">"
  | .ge => ">="
  | .add => "+"
  | .sub => "-"
  | .mul => "*"
  | .div => "/"
  | .rem => "%"
  | .pow => "^"
  | .bang => "!"

def Symbol.ofText? (text : String) : Option Symbol :=
  [.or, .and, .eq, .ne, .lt, .le, .gt, .ge, .add, .sub, .mul, .div, .rem, .pow, .bang].find?
    fun s => s.text == text

/-- Brackets and separators. -/
inductive Mark where
  | lparen | rparen | lbracket | rbracket | lbrace | rbrace | comma | colon
  deriving DecidableEq, Repr

namespace Mark

def char : Mark → Char
  | .lparen => '('
  | .rparen => ')'
  | .lbracket => '['
  | .rbracket => ']'
  | .lbrace => '\x7b'
  | .rbrace => '\x7d'
  | .comma => ','
  | .colon => ':'

def ofChar? (c : Char) : Option Mark :=
  [.lparen, .rparen, .lbracket, .rbracket, .lbrace, .rbrace, .comma, .colon].find? fun m => m.char == c

def isOpener : Mark → Bool
  | .lparen | .lbracket | .lbrace => true
  | _ => false

def isCloser : Mark → Bool
  | .rparen | .rbracket | .rbrace => true
  | _ => false

end Mark

/-- What a token is. -/
inductive Lexeme where
  | number (x : Float)
  | string (s : String)
  | boolean (b : Bool)
  | identifier (path : String)
  | operator (symbol : Symbol)
  | mark (mark : Mark)

/-- A token and the position of its first character. -/
structure Token where
  lexeme : Lexeme
  pos : Nat

def isNumberChar (c : Char) : Bool :=
  Text.isDigit c || c == '.'

def startsNumber (c : Char) (rest : List Char) : Bool :=
  Text.isDigit c || (c == '.' && (rest.head?.elim false Text.isDigit))

def splitPath : List Char → List Char × List Char
  | [] => ([], [])
  | c :: rest =>
    if Datum.isNameChar c || (c == '.' && (rest.head?.elim false Datum.isNameChar)) then
      let (word, after) := splitPath rest
      (c :: word, after)
    else ([], c :: rest)

def unescape (c : Char) : Char :=
  if c == 'n' then '\n' else if c == 't' then '\t' else if c == 'r' then '\r' else c

def splitString (quote : Char) : List Char → Option (List Char × List Char)
  | [] => none
  | c :: rest =>
    if c == quote then some ([], rest)
    else if c == '\\' then
      match rest with
      | [] => none
      | e :: rest => (splitString quote rest).map fun (s, after) => (unescape e :: s, after)
    else (splitString quote rest).map fun (s, after) => (c :: s, after)

def doubleSymbol? (c d : Char) : Option Symbol :=
  if d == '=' then
    if c == '=' then some .eq
    else if c == '!' then some .ne
    else if c == '<' then some .le
    else if c == '>' then some .ge
    else none
  else if c == '&' && d == '&' then some .and
  else if c == '|' && d == '|' then some .or
  else none

def singleSymbol? (c : Char) : Option Symbol :=
  [Symbol.add, .sub, .mul, .div, .pow, .rem, .lt, .gt, .bang].find? fun s => s.text == c.toString

/-- The operator sign that stands at the start of a text, and the rest. Signs of two characters go
first. -/
def splitSymbol? (c : Char) (rest : List Char) : Option (Symbol × List Char) :=
  match rest with
  | [] => (singleSymbol? c).map fun s => (s, [])
  | d :: after =>
    match doubleSymbol? c d with
    | some s => some (s, after)
    | none => (singleSymbol? c).map fun s => (s, rest)

theorem splitPath_length (cs : List Char) : (splitPath cs).2.length ≤ cs.length := by
  induction cs with
  | nil => simp [splitPath]
  | cons c rest ih =>
    simp only [splitPath]
    split
    · exact Nat.le_succ_of_le ih
    · exact Nat.le_refl _

theorem splitString_length {quote : Char} {cs s after : List Char}
    (found : splitString quote cs = some (s, after)) : after.length < cs.length := by
  fun_induction splitString quote cs generalizing s after with
  | case1 => simp at found
  | case2 c rest _ => grind
  | case3 c _ _ => simp at found
  | case4 c _ _ e rest ih =>
    obtain ⟨⟨t, u⟩, inner, same⟩ := Option.map_eq_some_iff.1 found
    have shorter := ih inner
    grind
  | case5 c rest _ _ ih =>
    obtain ⟨⟨t, u⟩, inner, same⟩ := Option.map_eq_some_iff.1 found
    have shorter := ih inner
    grind

theorem splitSymbol?_length {c : Char} {rest after : List Char} {symbol : Symbol}
    (found : splitSymbol? c rest = some (symbol, after)) : after.length ≤ rest.length := by
  unfold splitSymbol? at found
  split at found
  · simp only [Option.map_eq_some_iff, Prod.mk.injEq] at found
    grind
  · split at found
    · grind
    · simp only [Option.map_eq_some_iff, Prod.mk.injEq] at found
      grind

def wordLexeme (word : String) : Lexeme :=
  if word == "true" then .boolean true
  else if word == "false" then .boolean false
  else .identifier word

def splitLexeme (pos : Nat) (c : Char) (rest : List Char) : Except LexFault (Lexeme × List Char) :=
  if startsNumber c rest then
    let raw := String.ofList (c :: rest.takeWhile isNumberChar)
    match Reading.float? raw with
    | some x => .ok (.number x, rest.dropWhile isNumberChar)
    | none => .error (.invalidNumber raw pos)
  else if Datum.isNameStart c then
    .ok (wordLexeme (String.ofList (c :: (splitPath rest).1)), (splitPath rest).2)
  else if c == '"' || c == '\'' then
    match splitString c rest with
    | some (s, after) => .ok (.string (String.ofList s), after)
    | none => .error (.unterminatedString pos)
  else
    match splitSymbol? c rest with
    | some (symbol, after) => .ok (.operator symbol, after)
    | none =>
      match Mark.ofChar? c with
      | some mark => .ok (.mark mark, rest)
      | none => .error (.invalidToken c pos)

theorem splitLexeme_length {pos : Nat} {c : Char} {rest after : List Char} {lexeme : Lexeme}
    (found : splitLexeme pos c rest = .ok (lexeme, after)) : after.length ≤ rest.length := by
  unfold splitLexeme at found
  split at found
  · dsimp only at found
    split at found
    · have shorter := (List.dropWhile_sublist isNumberChar (l := rest)).length_le
      grind
    · simp at found
  · split at found
    · have shorter := splitPath_length rest
      grind
    · split at found
      · split at found
        · rename_i s cut split
          have shorter := splitString_length split
          grind
        · simp at found
      · split at found
        · rename_i symbol cut split
          have shorter := splitSymbol?_length split
          grind
        · split at found
          · grind
          · simp at found

def scan (pos : Nat) : List Char → Except LexFault (List Token)
  | [] => .ok []
  | c :: rest =>
    if Text.isBlank c then scan (pos + 1) rest
    else
      match _found : splitLexeme pos c rest with
      | .error fault => .error fault
      | .ok (lexeme, after) =>
        match scan (pos + (rest.length + 1 - after.length)) after with
        | .error fault => .error fault
        | .ok tokens => .ok (⟨lexeme, pos⟩ :: tokens)
termination_by cs => cs.length
decreasing_by
  · simp
  · exact Nat.lt_succ_of_le (splitLexeme_length _found)

def tokenize (text : String) : Except LexFault (List Token) :=
  scan 0 text.toList

end TagScript.Expr

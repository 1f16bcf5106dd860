import TagScript.Datum.Cast
import TagScript.Datum.Text

/-!
The values of a TOML document: strings in four spellings, truth values, dates and times, numbers, arrays
and inline tables.
-/

namespace TagScript.Toml

/-- What is wrong with a document, and how many characters are left where it shows. -/
structure Trouble where
  message : String
  left : Nat
  deriving DecidableEq, Repr

def trouble {α : Type} (message : String) (rest : List Char) : Except Trouble α :=
  .error ⟨message, rest.length⟩

abbrev Path := List String

def Path.shown (path : Path) : String :=
  match path with
  | [name] => "(" ++ Text.quoted name ++ ",)"
  | _ => "(" ++ Text.joined ", " (path.map Text.quoted) ++ ")"

/-! ### Characters -/

def isSpace (c : Char) : Bool := c == ' ' || c == '\t'

def isSpaceOrBreak (c : Char) : Bool := isSpace c || c == '\n'

def isBare (c : Char) : Bool := c.isAlphanum || c == '-' || c == '_'

def isControl (c : Char) : Bool := (c.toNat < 32 || c.toNat == 127) && c != '\t'

def isControlButBreak (c : Char) : Bool := isControl c && c != '\n'

def skipSpace (cs : List Char) : List Char := cs.dropWhile isSpace

def splitAt? (mark : List Char) : List Char → Option (List Char × List Char)
  | [] => if mark.isEmpty then some ([], []) else none
  | c :: rest =>
    if mark.isPrefixOf (c :: rest) then some ([], c :: rest)
    else (splitAt? mark rest).map fun (before, after) => (c :: before, after)

def readUntil (mark : String) (refused : Char → Bool) (cs : List Char) :
    Except Trouble (String × List Char) :=
  match splitAt? mark.toList cs with
  | none => trouble ("Expected " ++ Text.quoted mark) []
  | some (inside, after) =>
    match inside.dropWhile fun c => !refused c with
    | [] => .ok (String.ofList inside, after.drop mark.length)
    | c :: rest =>
      trouble ("Found invalid character " ++ Text.quoted c.toString) (c :: (rest ++ after))

def skipComment (cs : List Char) : Except Trouble (List Char) :=
  match cs with
  | '#' :: rest =>
    let inside := rest.takeWhile (· != '\n')
    match inside.dropWhile fun c => !isControl c with
    | [] => .ok (rest.drop inside.length)
    | c :: _ =>
      trouble ("Found invalid character " ++ Text.quoted c.toString)
        (rest.dropWhile fun c => !isControl c)
  | _ => .ok cs

def skipFiller : Nat → List Char → Except Trouble (List Char)
  | 0, cs => .ok cs
  | bound + 1, cs =>
    match cs.dropWhile isSpaceOrBreak with
    | '#' :: rest => skipComment ('#' :: rest) >>= skipFiller bound
    | rest => .ok rest

/-! ### Strings -/

def readCodePoint (width : Nat) (cs : List Char) : Except Trouble (Char × List Char) :=
  match if cs.length < width then none else Text.hexNumber? (cs.take width) with
  | none => trouble "Invalid hex value" cs
  | some n =>
    if h : n.isValidChar then .ok (Char.ofNatAux n h, cs.drop width)
    else trouble "Escaped character is not a Unicode scalar value" (cs.drop width)

def escapes : List (Char × Char) :=
  [('b', '\x08'), ('t', '\t'), ('n', '\n'), ('f', '\x0c'), ('r', '\r'), ('"', '"'), ('\\', '\\')]

def badEscape : String := "Unescaped '\\' in a string"

/-- What an escape stands for, after its backslash. In a string of several lines a backslash at the
end of a line takes away the break and the blanks that follow it. -/
def readEscape (multiline : Bool) (cs : List Char) : Except Trouble (List Char × List Char) :=
  match cs with
  | [] => trouble badEscape []
  | c :: rest =>
    if multiline && c == '\n' then .ok ([], rest.dropWhile isSpaceOrBreak)
    else if multiline && isSpace c then
      match skipSpace rest with
      | [] => .ok ([], [])
      | '\n' :: rest => .ok ([], rest.dropWhile isSpaceOrBreak)
      | rest => trouble badEscape rest
    else if c == 'u' then (readCodePoint 4 rest).map fun (c, rest) => ([c], rest)
    else if c == 'U' then (readCodePoint 8 rest).map fun (c, rest) => ([c], rest)
    else
      match escapes.find? (·.1 == c) with
      | some (_, e) => .ok ([e], rest)
      | none => trouble badEscape rest

def readBasic (multiline : Bool) : Nat → List Char → List Char → Except Trouble (String × List Char)
  | 0, _, cs => trouble "Unterminated string" cs
  | _ + 1, _, [] => trouble "Unterminated string" []
  | bound + 1, done, c :: rest =>
    if c == '"' then
      if !multiline then .ok (String.ofList done.reverse, rest)
      else
        match rest with
        | '"' :: '"' :: rest => .ok (String.ofList done.reverse, rest)
        | _ => readBasic multiline bound (c :: done) rest
    else if c == '\\' then do
      let (part, rest) ← readEscape multiline rest
      readBasic multiline bound (part.reverse ++ done) rest
    else if if multiline then isControlButBreak c else isControl c then
      trouble ("Illegal character " ++ Text.quoted c.toString) (c :: rest)
    else readBasic multiline bound (c :: done) rest

def moreQuotes (quote : Char) (s : String) (cs : List Char) : String × List Char :=
  match cs with
  | a :: b :: rest =>
    if a == quote && b == quote then (s.push a |>.push b, rest)
    else if a == quote then (s.push a, b :: rest)
    else (s, cs)
  | [a] => if a == quote then (s.push a, []) else (s, cs)
  | [] => (s, cs)

def dropFirstBreak (cs : List Char) : List Char :=
  match cs with
  | '\n' :: rest => rest
  | _ => cs

def readQuoted (quote : Char) (rest : List Char) : Except Trouble (String × List Char) :=
  match rest with
  | a :: b :: inside =>
    if a == quote && b == quote then
      let inside := dropFirstBreak inside
      let read :=
        if quote == '"' then readBasic true (inside.length + 1) [] inside
        else readUntil "'''" isControlButBreak inside
      read.map fun (s, rest) => moreQuotes quote s rest
    else if quote == '"' then readBasic false (rest.length + 1) [] rest
    else readUntil "'" isControl rest
  | _ => if quote == '"' then readBasic false (rest.length + 1) [] rest else readUntil "'" isControl rest

/-! ### Names -/

def readName (cs : List Char) : Except Trouble (String × List Char) :=
  match cs with
  | '\'' :: rest => readUntil "'" isControl rest
  | '"' :: rest => readBasic false (rest.length + 1) [] rest
  | _ =>
    match cs.takeWhile isBare with
    | [] => trouble "Invalid initial character for a key part" cs
    | name => .ok (String.ofList name, cs.dropWhile isBare)

def readPath : Nat → List Char → Except Trouble (Path × List Char)
  | 0, cs => trouble "Invalid initial character for a key part" cs
  | bound + 1, cs => do
    let (name, rest) ← readName cs
    match skipSpace rest with
    | '.' :: rest =>
      let (path, rest) ← readPath bound (skipSpace rest)
      return (name :: path, rest)
    | rest => return ([name], rest)

/-! ### Dates and times -/

def fixedNumber? (width : Nat) (cs : List Char) : Option (Nat × List Char) :=
  let digits := cs.take width
  if digits.length = width && digits.all Char.isDigit then
    some (Text.decimalNumber digits, cs.drop width)
  else none

def expect? (c : Char) (cs : List Char) : Option (List Char) :=
  match cs with
  | d :: rest => if d == c then some rest else none
  | [] => none

def splitFraction (cs : List Char) : Nat × List Char :=
  match cs with
  | '.' :: rest =>
    match rest.takeWhile Char.isDigit with
    | [] => (0, cs)
    | digits =>
      (Text.decimalNumber ((digits ++ List.replicate 6 '0').take 6), rest.dropWhile Char.isDigit)
  | _ => (0, cs)

def readTime? (cs : List Char) : Option (ClockTime × List Char) := do
  let (hour, cs) ← fixedNumber? 2 cs
  let cs ← expect? ':' cs
  let (minute, cs) ← fixedNumber? 2 cs
  let cs ← expect? ':' cs
  let (second, cs) ← fixedNumber? 2 cs
  guard (hour < 24 && minute < 60 && second < 60)
  let (micro, cs) := splitFraction cs
  return (⟨hour, minute, second, micro, none⟩, cs)

def readOffset? (cs : List Char) : Option (Int × List Char) :=
  match cs with
  | c :: rest =>
    if c == 'Z' || c == 'z' then some (0, rest)
    else if c == '+' || c == '-' then do
      let (hour, rest) ← fixedNumber? 2 rest
      let rest ← expect? ':' rest
      let (minute, rest) ← fixedNumber? 2 rest
      guard (hour < 24 && minute < 60)
      let seconds : Int := (hour * 60 + minute) * 60
      return (if c == '-' then -seconds else seconds, rest)
    else none
  | [] => none

def readDay? (cs : List Char) : Option (Date × List Char) := do
  let (year, cs) ← fixedNumber? 4 cs
  let cs ← expect? '-' cs
  let (month, cs) ← fixedNumber? 2 cs
  let cs ← expect? '-' cs
  let (day, cs) ← fixedNumber? 2 cs
  guard (1 ≤ month && month ≤ 12 && 1 ≤ day && day ≤ 31)
  return (⟨year, month, day⟩, cs)

def readTimePart? (cs : List Char) : Option (ClockTime × List Char) :=
  match cs with
  | c :: rest =>
    if c == 'T' || c == 't' || c == ' ' then
      (readTime? rest).map fun (time, rest) =>
        match readOffset? rest with
        | some (offset, rest) => ({ time with offset := some offset }, rest)
        | none => (time, rest)
    else none
  | [] => none

def readStamp? (cs : List Char) : Option (Stamp × List Char) :=
  match readDay? cs with
  | some (date, rest) =>
    match readTimePart? rest with
    | some (time, rest) => some (.datetime date time, rest)
    | none => some (.date date, rest)
  | none => (readTime? cs).map fun (time, rest) => (.time time, rest)

def stampValid : Stamp → Bool
  | .date d => d.valid
  | .datetime d _ => d.valid
  | _ => true

/-! ### Numbers -/

def moreDigits (isDigit : Char → Bool) : List Char → List Char × List Char
  | '_' :: c :: rest =>
    if isDigit c then (moreDigits isDigit rest).map (c :: ·) id else ([], '_' :: c :: rest)
  | c :: rest =>
    if isDigit c then (moreDigits isDigit rest).map (c :: ·) id else ([], c :: rest)
  | [] => ([], [])

def splitDigits (isDigit : Char → Bool) (cs : List Char) : List Char × List Char :=
  match cs with
  | c :: _ => if isDigit c then moreDigits isDigit cs else ([], cs)
  | [] => ([], [])

def valueIn (base : Nat) (digits : List Char) : Nat :=
  digits.foldl (fun n c => base * n + ((Text.hexNumber? [c]).getD 0)) 0

def bases : List (Char × Nat × (Char → Bool)) :=
  [('x', 16, fun c => (Text.hexNumber? [c]).isSome), ('b', 2, fun c => c == '0' || c == '1'),
    ('o', 8, fun c => '0' ≤ c && c ≤ '7')]

def readBased? (cs : List Char) : Option (Datum × List Char) :=
  match cs with
  | '0' :: mark :: rest => do
    let (_, base, isDigit) ← bases.find? (·.1 == mark)
    match splitDigits isDigit rest with
    | ([], _) => none
    | (digits, rest) => some (.int (valueIn base digits), rest)
  | _ => none

def readDecimal? (cs : List Char) : Option (Except Trouble Datum × List Char) := do
  let (negative, body) := Reading.sign cs
  let (d, rest) ← Datum.decimal? (splitDigits Char.isDigit) negative body
  return (d.mapError fun count => ⟨Reading.tooLong count, cs.length⟩, rest)

def specials : List (String × Float) :=
  [("inf", Binary64.infinity), ("nan", Binary64.notANumber), ("-inf", -Binary64.infinity),
    ("+inf", Binary64.infinity), ("-nan", Binary64.notANumber), ("+nan", Binary64.notANumber)]

def readAtom (cs : List Char) : Except Trouble (Datum × List Char) :=
  if "true".toList.isPrefixOf cs then .ok (.bool true, cs.drop 4)
  else if "false".toList.isPrefixOf cs then .ok (.bool false, cs.drop 5)
  else
    match readStamp? cs with
    | some (stamp, rest) =>
      if stampValid stamp then .ok (.stamp stamp cs.length, rest) else trouble "Invalid date or datetime" cs
    | none =>
      match readBased? cs with
      | some (d, rest) => .ok (d, rest)
      | none =>
        match readDecimal? cs with
        | some (d, rest) => d.map fun d => (d, rest)
        | none =>
          match specials.find? fun (word, _) => word.toList.isPrefixOf cs with
          | some (word, x) => .ok (.num (Num.ofOutside x), cs.drop word.length)
          | none => trouble "Invalid value" cs

/-! ### Tables by path -/

def changeAt (throughArrays : Bool) (change : Assoc Datum → Except String (Assoc Datum)) :
    Path → Assoc Datum → Except String (Assoc Datum)
  | [], table => change table
  | name :: path, table =>
    match Assoc.get? name table with
    | none => do
      return Assoc.set name (.map (← changeAt throughArrays change path [])) table
    | some (.map inner) => do
      return Assoc.set name (.map (← changeAt throughArrays change path inner)) table
    | some (.seq items) =>
      match throughArrays, items.getLast? with
      | true, some (.map inner) => do
        let last ← changeAt throughArrays change path inner
        return Assoc.set name (.seq (items.dropLast ++ [.map last])) table
      | _, _ => .error "Cannot overwrite a value"
    | some _ => .error "Cannot overwrite a value"

def isNest : Datum → Bool
  | .map _ => true
  | .seq _ => true
  | _ => false

/-! ### Values -/

mutual

def readValue : Nat → List Char → Except Trouble (Datum × List Char)
  | 0, cs => trouble "Invalid value" cs
  | bound + 1, cs =>
    match cs with
    | '"' :: rest => (readQuoted '"' rest).map fun (s, rest) => (.str s, rest)
    | '\'' :: rest => (readQuoted '\'' rest).map fun (s, rest) => (.str s, rest)
    | '[' :: rest => do
      match ← skipFiller (rest.length + 1) rest with
      | ']' :: rest => return (.seq [], rest)
      | rest => (readItems bound rest).map fun (items, rest) => (.seq items, rest)
    | '\x7b' :: rest =>
      match skipSpace rest with
      | '\x7d' :: rest => .ok (.map [], rest)
      | rest => (readInline bound [] [] rest).map fun (table, rest) => (.map table, rest)
    | _ => readAtom cs

def readItems : Nat → List Char → Except Trouble (List Datum × List Char)
  | 0, cs => trouble "Unclosed array" cs
  | bound + 1, cs => do
    let (d, rest) ← readValue bound cs
    match ← skipFiller (rest.length + 1) rest with
    | ']' :: rest => return ([d], rest)
    | ',' :: rest =>
      match ← skipFiller (rest.length + 1) rest with
      | ']' :: rest => return ([d], rest)
      | rest => (readItems bound rest).map fun (items, rest) => (d :: items, rest)
    | rest => trouble "Unclosed array" rest

/-- The entries of an inline table up to its end. Values that are arrays or tables are closed for
good: no later path may lead into them. -/
def readInline : Nat → List Path → Assoc Datum → List Char → Except Trouble (Assoc Datum × List Char)
  | 0, _, _, cs => trouble "Unclosed inline table" cs
  | bound + 1, closed, table, cs => do
    let (path, d, rest) ← readPair bound cs
    if closed.any (·.isPrefixOf path) then
      trouble ("Cannot mutate immutable namespace " ++ Path.shown path) rest
    else
      let name := path.getLastD ""
      let add (inner : Assoc Datum) : Except String (Assoc Datum) :=
        if Assoc.has name inner then .error ("Duplicate inline table key " ++ Text.quoted name)
        else .ok (inner ++ [(name, d)])
      match changeAt false add path.dropLast table with
      | .error message => trouble message rest
      | .ok table =>
        match skipSpace rest with
        | '\x7d' :: rest => return (table, rest)
        | ',' :: rest =>
          readInline bound (if isNest d then path :: closed else closed) table (skipSpace rest)
        | rest => trouble "Unclosed inline table" rest

def readPair : Nat → List Char → Except Trouble (Path × Datum × List Char)
  | 0, cs => trouble "Invalid value" cs
  | bound + 1, cs => do
    match ← readPath (cs.length + 1) cs with
    | (path, '=' :: rest) => (readValue bound (skipSpace rest)).map fun (d, rest) => (path, d, rest)
    | (_, rest) => trouble "Expected '=' after a key in a key/value pair" rest

end

end TagScript.Toml

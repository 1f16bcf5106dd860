import TagScript.Datum.Cast
import TagScript.Datum.Json

/-!
Data from JSON text. Besides the standard, the words `NaN`, `Infinity` and `-Infinity` are numbers.
-/

namespace TagScript.Json

export Text (hexNumber?)

/-- What is wrong with a text. -/
inductive Problem where
  | value
  | name
  | colon
  | comma
  | more
  | control
  | endless
  | escape
  | codePoint
  | orderMark
  | tooLong (digits : Nat)
  deriving DecidableEq, Repr

/-- A problem and how many characters are left where it shows. -/
structure Trouble where
  problem : Problem
  left : Nat
  deriving DecidableEq, Repr

def Problem.message : Problem → String
  | .value => "Expecting value"
  | .name => "Expecting property name enclosed in double quotes"
  | .colon => "Expecting ':' delimiter"
  | .comma => "Expecting ',' delimiter"
  | .more => "Extra data"
  | .control => "Invalid control character at"
  | .endless => "Unterminated string starting at"
  | .escape => "Invalid \\escape"
  | .codePoint => "Invalid \\uXXXX escape"
  | .orderMark => "Unexpected UTF-8 BOM (decode using utf-8-sig)"
  | .tooLong digits => Reading.tooLong digits

def place (before : List Char) : Nat × Nat :=
  (before.count '\n' + 1, (before.reverse.takeWhile (· != '\n')).length + 1)

def Trouble.message (t : Trouble) (text : List Char) : String :=
  match t.problem with
  | .tooLong digits => (Problem.tooLong digits).message
  | p =>
    let at_ := text.length - t.left
    let (line, column) := place (text.take at_)
    p.message ++ ": line " ++ Numeral.ofNat line ++ " column " ++ Numeral.ofNat column ++
      " (char " ++ Numeral.ofNat at_ ++ ")"

def trouble {α : Type} (p : Problem) (rest : List Char) : Except Trouble α :=
  .error ⟨p, rest.length⟩

def isSpace (c : Char) : Bool :=
  c == ' ' || c == '\t' || c == '\n' || c == '\r'

def skipSpace (cs : List Char) : List Char :=
  cs.dropWhile isSpace

/-! ### Strings -/

def readUnit (cs : List Char) : Option (Nat × List Char) :=
  if cs.length < 5 then none else (hexNumber? (cs.take 4)).map fun n => (n, cs.drop 4)

def readEscape (cs : List Char) : Except Trouble (Char × List Char) :=
  match cs with
  | [] => trouble .endless []
  | c :: rest =>
    if c == 'u' then
      match readUnit rest with
      | none => trouble .codePoint cs
      | some (high, after) =>
        match Text.isHighHalf high, after with
        | true, '\\' :: 'u' :: tail =>
          if tail.length < 5 then .ok (Text.charOfCode high, after)
          else
            match readUnit tail with
            | none => trouble .codePoint ('u' :: tail)
            | some (low, last) =>
              if Text.isLowHalf low then .ok (Text.charOfCode (Text.joinHalves high low), last)
              else .ok (Text.charOfCode high, after)
        | _, _ => .ok (Text.charOfCode high, after)
    else if c == '"' || c == '\\' || c == '/' then .ok (c, rest)
    else if c == 'b' then .ok ('\x08', rest)
    else if c == 'f' then .ok ('\x0c', rest)
    else if c == 'n' then .ok ('\n', rest)
    else if c == 'r' then .ok ('\r', rest)
    else if c == 't' then .ok ('\t', rest)
    else .error ⟨.escape, cs.length + 1⟩

/-- The rest of a string, whose opening quote stood where `start` characters were left. The first
argument bounds the number of characters read. -/
def readString : Nat → Nat → List Char → List Char → Except Trouble (String × List Char)
  | 0, start, _, _ => .error ⟨.endless, start⟩
  | _ + 1, start, _, [] => .error ⟨.endless, start⟩
  | bound + 1, start, done, c :: rest =>
    if c == '"' then .ok (String.ofList done.reverse, rest)
    else if c == '\\' then
      match rest with
      | [] => .error ⟨.endless, start⟩
      | _ =>
        match readEscape rest with
        | .ok (e, rest) => readString bound start (e :: done) rest
        | .error t => .error t
    else if c.toNat ≤ 0x1F then trouble .control (c :: rest)
    else readString bound start (c :: done) rest

/-! ### Numbers -/

def splitDigits (cs : List Char) : List Char × List Char :=
  (cs.takeWhile Char.isDigit, cs.dropWhile Char.isDigit)

def readNumber (cs : List Char) : Except Trouble (Datum × List Char) :=
  let (negative, body) :=
    match cs with
    | '-' :: rest => (true, rest)
    | _ => (false, cs)
  match Datum.decimal? splitDigits negative body with
  | none => trouble .value cs
  | some (.error count, _) => trouble (.tooLong count) cs
  | some (.ok d, rest) => .ok (d, rest)

/-! ### Values -/

def words : List (String × Datum) :=
  [("null", .none), ("true", .bool true), ("false", .bool false),
    ("NaN", .num ⟨Binary64.notANumber, Num.jsonMark⟩), ("Infinity", .num (Num.ofFloat Binary64.infinity)),
    ("-Infinity", .num (Num.ofFloat (-Binary64.infinity)))]

def readAtom (cs : List Char) : Except Trouble (Datum × List Char) :=
  match words.find? fun (word, _) => word.toList.isPrefixOf cs with
  | some (word, d) => .ok (d, cs.drop word.length)
  | none => readNumber cs

mutual

def readValue : Nat → List Char → Except Trouble (Datum × List Char)
  | 0, cs => trouble .value cs
  | bound + 1, cs =>
    match cs with
    | '"' :: rest =>
      match readString cs.length cs.length [] rest with
      | .ok (s, rest) => .ok (.str s, rest)
      | .error t => .error t
    | '[' :: rest =>
      match skipSpace rest with
      | ']' :: rest => .ok (.seq [], rest)
      | rest =>
        match readItems bound rest with
        | .ok (items, rest) => .ok (.seq items, rest)
        | .error t => .error t
    | '\x7b' :: rest =>
      match skipSpace rest with
      | '\x7d' :: rest => .ok (.map [], rest)
      | rest =>
        match readEntries bound [] rest with
        | .ok (entries, rest) => .ok (.map entries, rest)
        | .error t => .error t
    | _ => readAtom cs

def readItems : Nat → List Char → Except Trouble (List Datum × List Char)
  | 0, cs => trouble .value cs
  | bound + 1, cs =>
    match readValue bound cs with
    | .error t => .error t
    | .ok (d, rest) =>
      match skipSpace rest with
      | ']' :: rest => .ok ([d], rest)
      | ',' :: rest =>
        match readItems bound (skipSpace rest) with
        | .ok (items, rest) => .ok (d :: items, rest)
        | .error t => .error t
      | rest => trouble .comma rest

def readEntries : Nat → List (String × Datum) → List Char →
    Except Trouble (List (String × Datum) × List Char)
  | 0, _, cs => trouble .name cs
  | bound + 1, done, cs =>
    match cs with
    | '"' :: rest =>
      match readString cs.length cs.length [] rest with
      | .error t => .error t
      | .ok (name, rest) =>
        match skipSpace rest with
        | ':' :: rest =>
          match readValue bound (skipSpace rest) with
          | .error t => .error t
          | .ok (d, rest) =>
            let done := Assoc.set name d done
            match skipSpace rest with
            | '\x7d' :: rest => .ok (done, rest)
            | ',' :: rest => readEntries bound done (skipSpace rest)
            | rest => trouble .comma rest
        | rest => trouble .colon rest
    | _ => trouble .name cs

end

def nestingBound (cs : List Char) : Nat := 2 * cs.length + 2

def readChars (cs : List Char) : Except String Datum :=
  match readValue (nestingBound cs) (skipSpace cs) with
  | .error t => .error (t.message cs)
  | .ok (d, rest) =>
    match skipSpace rest with
    | [] => .ok d
    | rest => (trouble .more rest).mapError (Trouble.message · cs)

/-- Reads a text, which may not start with a mark of the order of its bytes. -/
def read (text : String) : Except String Datum :=
  match text.toList with
  | '\ufeff' :: rest => (trouble .orderMark ('\ufeff' :: rest)).mapError (Trouble.message · text.toList)
  | cs => readChars cs

/-- Reads what came as bytes, of which a mark of their order is no part. -/
def readBody (body : String) : Except String Datum :=
  match body.toList with
  | '\ufeff' :: rest => readChars rest
  | cs => readChars cs

end TagScript.Json

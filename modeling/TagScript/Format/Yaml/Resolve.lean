import TagScript.Text.Quoted

/-!
The kinds of plain scalars, told by their spelling alone.
-/

namespace TagScript.Yaml

/-- The kind of a value. -/
inductive Kind where
  | null
  | bool
  | int
  | float
  | timestamp
  | merge
  | value
  | str
  | seq
  | map
  | pairs
  | set
  | binary
  | other (tag : String)
  deriving DecidableEq, Repr

def commonTag : String := "tag:yaml.org,2002:"

def Kind.ofTag (tag : String) : Kind :=
  let known : List (String × Kind) :=
    [("null", .null), ("bool", .bool), ("int", .int), ("float", .float), ("timestamp", .timestamp),
      ("merge", .merge), ("value", .value), ("str", .str), ("seq", .seq), ("map", .map),
      ("pairs", .pairs), ("omap", .pairs), ("set", .set), ("binary", .binary)]
  match known.find? fun (name, _) => commonTag ++ name == tag with
  | some (_, kind) => kind
  | none => .other tag

/-! ### Spellings -/

def dropLastBreak (text : String) : String :=
  let cs := text.toList
  if cs.getLast? == some '\n' then String.ofList cs.dropLast else text

def boolWords : List String :=
  ["yes", "Yes", "YES", "no", "No", "NO", "true", "True", "TRUE", "false", "False", "FALSE", "on", "On",
    "ON", "off", "Off", "OFF"]

def nullWords : List String := ["~", "null", "Null", "NULL", ""]

def dropSign (cs : List Char) : List Char :=
  match cs with
  | c :: rest => if c == '-' || c == '+' then rest else cs
  | [] => []

def isDigitOrMark (c : Char) : Bool := c.isDigit || c == '_'

def isPowerOrEmpty (cs : List Char) : Bool :=
  match cs with
  | [] => true
  | mark :: sign :: digits =>
    (mark == 'e' || mark == 'E') && (sign == '-' || sign == '+') && !digits.isEmpty &&
      digits.all Char.isDigit
  | _ => false

def isSixtieth (cs : List Char) : Bool :=
  match cs with
  | [a] => a.isDigit
  | [a, b] => '0' ≤ a && a ≤ '5' && b.isDigit
  | _ => false

def isMarkedNumber (cs : List Char) : Bool :=
  match cs with
  | c :: rest => c.isDigit && rest.all isDigitOrMark
  | [] => false

def isPointNumber (cs : List Char) : Bool :=
  let unsigned := dropSign cs
  let whole := unsigned.takeWhile isDigitOrMark
  match whole, unsigned.drop whole.length with
  | [], '.' :: c :: rest =>
    unsigned.length = cs.length && c.isDigit && isPowerOrEmpty (rest.dropWhile isDigitOrMark)
  | w, '.' :: rest => isMarkedNumber w && isPowerOrEmpty (rest.dropWhile isDigitOrMark)
  | _, _ => false

def isSixtiethPoint (cs : List Char) : Bool :=
  let unsigned := dropSign cs
  let whole := unsigned.takeWhile (· != '.')
  match unsigned.drop whole.length, whole.splitOn ':' with
  | '.' :: rest, first :: parts =>
    rest.all isDigitOrMark && isMarkedNumber first && !parts.isEmpty && parts.all isSixtieth
  | _, _ => false

def isFloat (text : String) : Bool :=
  let cs := text.toList
  isPointNumber cs || isSixtiethPoint cs ||
    [".inf", ".Inf", ".INF"].contains (String.ofList (dropSign cs)) ||
    [".nan", ".NaN", ".NAN"].contains text

def isMarked (isDigit : Char → Bool) (cs : List Char) : Bool :=
  !cs.isEmpty && cs.all fun c => isDigit c || c == '_'

/-- Whether a text spells a whole number: in base two, eight, ten, sixteen or sixty. -/
def isInt (text : String) : Bool :=
  let cs := dropSign text.toList
  match cs with
  | ['0'] => true
  | '0' :: 'b' :: digits => isMarked (fun c => c == '0' || c == '1') digits
  | '0' :: 'x' :: digits =>
    isMarked (fun c => c.isDigit || ('a' ≤ c && c ≤ 'f') || ('A' ≤ c && c ≤ 'F')) digits
  | '0' :: digits => isMarked (fun c => '0' ≤ c && c ≤ '7') digits
  | _ =>
    match cs.splitOn ':' with
    | first :: parts => isMarkedNumber first && parts.all isSixtieth
    | [] => false

/-! ### Times -/

/-- The parts of a time as they are spelled. The offset is in seconds. -/
structure TimeParts where
  year : Nat
  month : Nat
  day : Nat
  /-- Whether month and day have two digits each. -/
  fullDate : Bool
  clock : Option (Nat × Nat × Nat × Nat)
  offset : Option Int

def splitNumber? (most : Nat) (cs : List Char) : Option (Nat × Nat × List Char) :=
  let digits := (cs.takeWhile Char.isDigit).take most
  if digits.isEmpty then none
  else
    some (Text.decimalNumber digits, digits.length, cs.drop digits.length)

def splitFixed? (width : Nat) (cs : List Char) : Option (Nat × List Char) :=
  match splitNumber? width cs with
  | some (n, length, rest) => if length = width then some (n, rest) else none
  | none => none

def after? (c : Char) (cs : List Char) : Option (List Char) :=
  match cs with
  | d :: rest => if d == c then some rest else none
  | [] => none

def isSpaceOrTab (c : Char) : Bool := c == ' ' || c == '\t'

def offset? (cs : List Char) : Option (Option Int) :=
  match cs with
  | [] => some none
  | _ =>
    match cs.dropWhile isSpaceOrTab with
    | ['Z'] => some (some 0)
    | sign :: rest =>
      if sign == '+' || sign == '-' then do
        let (hours, _, rest) ← splitNumber? 2 rest
        let minutes ←
          match rest with
          | [] => some 0
          | ':' :: rest =>
            match splitFixed? 2 rest with
            | some (m, []) => some m
            | _ => none
          | _ => none
        let seconds : Int := (hours * 60 + minutes) * 60
        return some (if sign == '-' then -seconds else seconds)
      else none
    | [] => none

def micros (digits : List Char) : Nat :=
  Text.decimalNumber ((digits ++ List.replicate 6 '0').take 6)

def clock? (cs : List Char) : Option ((Nat × Nat × Nat × Nat) × Option Int) := do
  let rest ←
    match cs with
    | c :: rest =>
      if c == 'T' || c == 't' then some rest
      else if isSpaceOrTab c then some (rest.dropWhile isSpaceOrTab)
      else none
    | [] => none
  let (hour, _, rest) ← splitNumber? 2 rest
  let rest ← after? ':' rest
  let (minute, rest) ← splitFixed? 2 rest
  let rest ← after? ':' rest
  let (second, rest) ← splitFixed? 2 rest
  let (fraction, rest) :=
    match rest with
    | '.' :: rest => (rest.takeWhile Char.isDigit, rest.dropWhile Char.isDigit)
    | _ => ([], rest)
  let offset ← offset? rest
  return ((hour, minute, second, micros fraction), offset)

def timeParts? (text : String) : Option TimeParts := do
  let (year, rest) ← splitFixed? 4 (dropLastBreak text).toList
  let rest ← after? '-' rest
  let (month, monthLength, rest) ← splitNumber? 2 rest
  let rest ← after? '-' rest
  let (day, dayLength, rest) ← splitNumber? 2 rest
  let full := monthLength = 2 && dayLength = 2
  if rest.isEmpty then return ⟨year, month, day, full, none, none⟩
  else
    let (clock, offset) ← clock? rest
    return ⟨year, month, day, full, some clock, offset⟩

def isTimestamp (text : String) : Bool :=
  (timeParts? text).any fun p => p.fullDate || p.clock.isSome

/-! ### Kinds -/

def kindOfSpelling (text : String) : Kind :=
  if boolWords.contains text then .bool
  else if isFloat text then .float
  else if isInt text then .int
  else if text == "<<" then .merge
  else if nullWords.contains text then .null
  else if isTimestamp text then .timestamp
  else if text == "=" then .value
  else if ["!", "&", "*"].contains text then .other (commonTag ++ "yaml")
  else .str

def kindOf (text : String) : Kind :=
  if text == "\n" then .str else kindOfSpelling (dropLastBreak text)

end TagScript.Yaml

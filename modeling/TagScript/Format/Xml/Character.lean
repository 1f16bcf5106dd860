import TagScript.Text.Quoted

/-!
The characters of XML documents. Names are those of the standard's first edition.
-/

namespace TagScript.Xml

def isAllowed (c : Char) : Bool :=
  let n := c.toNat
  (n ≥ 0x20 && n != 0xFFFE && n != 0xFFFF && !Text.isHalf c) || c == '\t' || c == '\n' || c == '\r'

def isSpace (c : Char) : Bool :=
  c == ' ' || c == '\t' || c == '\n' || c == '\r'

def skipSpace (cs : List Char) : List Char := cs.dropWhile isSpace

/-! ### Names -/

def letterRuns : Text.Ranges :=
  Text.Ranges.ofGaps <|
    "fCM2U2bL3A372bG2bVAZ415TbLcGJ6fH022202J2b726402020202HEB2bT2B2ZFbG31314R3731bKb1308b1c2Q62bBP79b3bY342E232" ++
      "0G1p3bG40R9b07313L262043Z122F1K5513L26212121W320K2H620222L26212440Z0b17313L26213340V122b0542234120214142" ++
      "4722c47222M2924b31b07222M2924b1021b07222M2Fb31eGb92021D5bO120312030732622202031212021A034dG72WiNb1Bb2A02" ++
      "122202124b602020C0202041406220202020414120b50A03031812026b505090dhJeB5cH7L353b135372020202U3bG2620422643" ++
      "355C6226iA04130cA2dz90Q8OcBDcHBb3hx0wiLdjVlyB"

def markRuns : Text.Ranges :=
  Text.Ranges.ofGaps <|
    "f30oX1bBbXR1b20h03hFG2M22202120dG0B7E970cUE312339oG2bL02F43E139I2bL0263132A0B139J0bM0245132PBG2bL0272222P9" ++
      "I2bL025413291F9J1bN44223A0G8I2bN6222381G9J1bN6222381G9J1bN53223A0F9fE036C829cG03521A02539bR179C0202051bE" ++
      "J2555202K4620erJC50edO0b1524cS131cM2"

def isNameStart (c : Char) : Bool :=
  c.isAlpha || c == '_' || c == ':' || letterRuns.has c.toNat

def isNameChar (c : Char) : Bool :=
  isNameStart c || c.isDigit || c == '-' || c == '.' || markRuns.has c.toNat

def malformed : String := "not well-formed (invalid token)"

def readName (cs : List Char) : Except String (String × List Char) :=
  match cs with
  | c :: rest =>
    if isNameStart c then
      .ok (String.ofList (c :: rest.takeWhile isNameChar), rest.dropWhile isNameChar)
    else .error malformed
  | [] => .error malformed

/-! ### Parts of a text -/

def after? (mark : String) (cs : List Char) : Option (List Char) :=
  if mark.toList.isPrefixOf cs then some (cs.drop mark.length) else none

def splitAround? (mark : List Char) : List Char → Option (List Char × List Char)
  | [] => none
  | c :: rest =>
    if mark.isPrefixOf (c :: rest) then some ([], (c :: rest).drop mark.length)
    else (splitAround? mark rest).map fun (before, after) => (c :: before, after)

def joinBreaks : List Char → List Char
  | '\r' :: '\n' :: rest => '\n' :: joinBreaks rest
  | '\r' :: rest => '\n' :: joinBreaks rest
  | c :: rest => c :: joinBreaks rest
  | [] => []

def dropMark (cs : List Char) : List Char :=
  match cs with
  | '\ufeff' :: rest => rest
  | _ => cs

/-! ### Wide documents -/

def unitsOf? (bigFirst : Bool) : List UInt8 → Option (List Nat)
  | [] => some []
  | [_] => none
  | a :: b :: rest =>
    (unitsOf? bigFirst rest).map fun units =>
      (if bigFirst then 256 * a.toNat + b.toNat else 256 * b.toNat + a.toNat) :: units

def charsOfUnits? : List Nat → Option (List Char)
  | [] => some []
  | [u] => if u.isValidChar then some [Char.ofNat u] else none
  | u :: v :: rest =>
    if 0xD800 ≤ u && u < 0xDC00 && 0xDC00 ≤ v && v < 0xE000 then
      (charsOfUnits? rest).map (Char.ofNat (0x10000 + 0x400 * (u - 0xD800) + (v - 0xDC00)) :: ·)
    else if u.isValidChar then (charsOfUnits? (v :: rest)).map (Char.ofNat u :: ·)
    else none

def charactersOf (text : String) : Except String (List Char) :=
  let wide (bigFirst : Bool) : Except String (List Char) :=
    ((unitsOf? bigFirst text.toUTF8.toList).bind charsOfUnits?).elim (.error malformed) .ok
  match text.toList with
  | '\x00' :: _ :: _ => wide true
  | c :: '\x00' :: rest => if c.toNat < 0x80 then wide false else .ok (c :: '\x00' :: rest)
  | cs => .ok cs

def entities : List (String × Char) :=
  [("lt", '<'), ("gt", '>'), ("amp", '&'), ("quot", '"'), ("apos", '\'')]

def isBuiltIn (name : String) : Bool :=
  entities.any (·.1 == name)

def number? (base : Nat) (cs : List Char) : Option Nat :=
  if cs.isEmpty then none
  else
    cs.foldlM (fun n c =>
      let d :=
        if '0' ≤ c ∧ c ≤ '9' then c.toNat - '0'.toNat
        else if 'a' ≤ c ∧ c ≤ 'f' then c.toNat - 'a'.toNat + 10
        else if 'A' ≤ c ∧ c ≤ 'F' then c.toNat - 'A'.toNat + 10
        else base
      if d < base then some (min (base * n + d) 0x110000) else none) 0

def charOf? (n : Nat) : Option Char :=
  if h : n.isValidChar then
    let c := Char.ofNatAux n h
    if isAllowed c then some c else none
  else none

def readReference (lenient : Bool) (cs : List Char) : Except String (List Char × List Char) :=
  match cs with
  | '#' :: rest =>
    match splitAround? [';'] rest with
    | none => .error malformed
    | some (digits, rest) =>
      let n :=
        match digits with
        | 'x' :: digits => number? 16 digits
        | _ => number? 10 digits
      match n with
      | none => .error malformed
      | some n =>
        match charOf? n with
        | some c => .ok ([c], rest)
        | none => .error "reference to invalid character number"
  | _ => do
    match ← readName cs with
    | (name, ';' :: rest) =>
      match entities.find? (·.1 == name) with
      | some (_, c) => .ok ([c], rest)
      | none => if lenient then .ok ([], rest) else .error "undefined entity"
    | _ => .error malformed

/-! ### Values -/

/-- Adds a space to what has been read, latest first. A value that is no text but a list of words
has none at its beginning and never two in a row. -/
def putSpace (isText : Bool) (done : List Char) : List Char :=
  if !isText && (done.isEmpty || done.head? == some ' ') then done else ' ' :: done

def readValueFrom (lenient isText : Bool) : Nat → List Char → List Char → Except String (List Char)
  | 0, _, _ => .error malformed
  | _ + 1, done, [] => .ok done
  | bound + 1, done, c :: rest =>
    if c == '<' then .error malformed
    else if c == '&' then do
      match ← readReference lenient rest with
      | ([' '], rest) => readValueFrom lenient isText bound (putSpace isText done) rest
      | (part, rest) => readValueFrom lenient isText bound (part.reverse ++ done) rest
    else if isSpace c then readValueFrom lenient isText bound (putSpace isText done) rest
    else readValueFrom lenient isText bound (c :: done) rest

/-- The value of an attribute, given what stands between its quotes. Blanks become spaces; a value
that is no text but a list of words has one space between each two of them and no others. -/
def readValue (lenient isText : Bool) (cs : List Char) : Except String String :=
  (readValueFrom lenient isText (cs.length + 1) [] cs).map fun done =>
    String.ofList (if !isText && done.head? == some ' ' then done.drop 1 else done).reverse

def isEntityValue : Nat → List Char → Bool
  | 0, _ => false
  | _ + 1, [] => true
  | bound + 1, c :: rest =>
    if c == '%' then false
    else if c == '&' then
      match readReference true rest with
      | .ok (_, rest) => isEntityValue bound rest
      | .error _ => false
    else isEntityValue bound rest

end TagScript.Xml

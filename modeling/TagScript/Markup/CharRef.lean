import TagScript.Fault
import TagScript.Markup.NamedReference
import TagScript.Number.Reading

/-!
Character references in texts and attribute values. The longest known name counts; what is no
reference stays as it is.
-/

namespace TagScript.Markup

def legacyCodes : List Nat :=
  [0x20ac, 0x81, 0x201a, 0x192, 0x201e, 0x2026, 0x2020, 0x2021, 0x2c6, 0x2030, 0x160, 0x2039, 0x152,
    0x8d, 0x17d, 0x8f, 0x90, 0x2018, 0x2019, 0x201c, 0x201d, 0x2022, 0x2013, 0x2014, 0x2dc, 0x2122,
    0x161, 0x203a, 0x153, 0x9d, 0x17e, 0x178]

def isForbiddenCode (n : Nat) : Bool :=
  (1 ≤ n && n ≤ 8) || n = 0xb || (0xe ≤ n && n ≤ 0x1f) || (0x7f ≤ n && n ≤ 0x9f) ||
    (0xfdd0 ≤ n && n ≤ 0xfdef) || n % 0x10000 = 0xfffe || n % 0x10000 = 0xffff

def numericReference (n : Nat) : List Char :=
  if n = 0 then ['\ufffd']
  else if 0x80 ≤ n && n ≤ 0x9f then [Char.ofNat (legacyCodes.getD (n - 0x80) n)]
  else if (0xd800 ≤ n && n ≤ 0xdfff) || n > 0x10ffff then ['\ufffd']
  else if isForbiddenCode n then []
  else [Char.ofNat n]

def isHexDigit (c : Char) : Bool :=
  c.isDigit || ('a' ≤ c && c ≤ 'f') || ('A' ≤ c && c ≤ 'F')

def hexValue (c : Char) : Nat :=
  if c.isDigit then c.toNat - 48 else if 'a' ≤ c then c.toNat - 87 else c.toNat - 55

def dropSemicolon : List Char → List Char
  | ';' :: rest => rest
  | rest => rest

def isReferenceChar (c : Char) : Bool :=
  !(c == '\t' || c == '\n' || c == '\x0c' || c == ' ' || c == '<' || c == '&' || c == '#' || c == ';')

def longestName (name : List Char) : Nat → Option (List Char)
  | 0 => none
  | n + 1 =>
    if n + 1 < 2 then none
    else
      match namedReference? (String.ofList (name.take (n + 1))) with
      | some text => some (text.toList ++ name.drop (n + 1))
      | none => longestName name n

def resolveName (name : List Char) : List Char :=
  match namedReference? (String.ofList name) with
  | some text => text.toList
  | none => (longestName name (name.length - 1)).getD ('&' :: name)

def splitName (cs : List Char) : List Char × List Char :=
  let name := (cs.take 32).takeWhile isReferenceChar
  match cs.drop name.length with
  | ';' :: rest => (name ++ [';'], rest)
  | rest => (name, rest)

def reference? (cs : List Char) : Except Fault (Option (List Char × List Char)) :=
  match cs with
  | '#' :: rest =>
    let digits := rest.takeWhile Char.isDigit
    if !digits.isEmpty then
      if digits.length > Reading.maxDigits then .error (.value (Reading.tooLong digits.length))
      else .ok (some (numericReference (Text.decimalNumber digits), dropSemicolon (rest.drop digits.length)))
    else
      match rest with
      | x :: rest =>
        let digits := rest.takeWhile isHexDigit
        if (x == 'x' || x == 'X') && !digits.isEmpty then
          .ok (some (numericReference (digits.foldl (fun n c => 16 * n + hexValue c) 0),
            dropSemicolon (rest.drop digits.length)))
        else .ok none
      | [] => .ok none
  | c :: rest =>
    if isReferenceChar c then
      let (name, after) := splitName (c :: rest)
      .ok (some (resolveName name, after))
    else .ok none
  | [] => .ok none

def resolve : Nat → List Char → Except Fault (List Char)
  | 0, cs => .ok cs
  | _, [] => .ok []
  | fuel + 1, c :: rest =>
    if c == '&' then
      match reference? rest with
      | .error fault => .error fault
      | .ok (some (text, after)) => (resolve fuel after).map (text ++ ·)
      | .ok none => (resolve fuel rest).map (c :: ·)
    else (resolve fuel rest).map (c :: ·)

def unescape (cs : List Char) : Except Fault (List Char) :=
  if cs.contains '&' then resolve cs.length cs else .ok cs

def escapedTextChar (c : Char) : String :=
  if c == '&' then "&amp;"
  else if c == '<' then "&lt;"
  else if c == '>' then "&gt;"
  else c.toString

def escapedValueChar (c : Char) : String :=
  if c == '"' then "&quot;"
  else if c == '\'' then "&#x27;"
  else escapedTextChar c

def escapeText (s : String) : String :=
  String.join (s.toList.map escapedTextChar)

def escapeValue (s : String) : String :=
  String.join (s.toList.map escapedValueChar)

end TagScript.Markup

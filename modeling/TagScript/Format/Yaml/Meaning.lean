import TagScript.Datum.Basic
import TagScript.Format.Yaml.Resolve
import TagScript.Format.Yaml.Scalar
import TagScript.Number.Reading
import TagScript.Text.Case

/-!
What the scalars of YAML documents mean: the datum of a text of each kind.
-/

namespace TagScript.Yaml

/-- A whole number in base two, eight or sixteen: blanks around it, a sign and the mark of the base
may stand with its digits. -/
def basedNumber? (base : Nat) (mark : Char) (cs : List Char) : Option Int :=
  let (negative, cs) := Reading.sign (Reading.trim cs)
  let digits :=
    match cs with
    | '0' :: m :: rest => if m.toLower == mark then rest else cs
    | _ => cs
  let digit? (c : Char) : Option Nat := (Text.decimalValue? c <|> Text.hexNumber? [c]).filter (· < base)
  if digits.isEmpty then none
  else
    (digits.foldlM (fun n c => (digit? c).map (base * n + ·)) 0).map fun (n : Nat) =>
      if negative then -(n : Int) else n

def sixties (parts : List Int) : Int :=
  parts.foldl (fun n d => 60 * n + d) 0

def int? (text : String) : Option Int := do
  let (negative, cs) := Reading.sign (text.toList.filter (· != '_'))
  let n ←
    match cs with
    | [] => none
    | ['0'] => some 0
    | '0' :: 'b' :: digits => basedNumber? 2 'b' digits
    | '0' :: 'x' :: digits => basedNumber? 16 'x' digits
    | '0' :: _ => basedNumber? 8 'o' cs
    | _ =>
      if cs.contains ':' then
        ((cs.splitOn ':').mapM fun part => Reading.int? (String.ofList part)).map sixties
      else Reading.int? (String.ofList cs)
  return if negative then -n else n

/-- The number of digits in base sixty, the last first, if each place is worth a double. -/
def floatSixties? (base : Nat) (sum : Float) : List Float → Option Float
  | [] => some sum
  | d :: rest => do floatSixties? (60 * base) (sum + d * (← Binary64.ofInt? base)) rest

def float? (text : String) : Option Num := do
  let (negative, cs) := Reading.sign ((Text.lower text).toList.filter (· != '_'))
  let word := String.ofList cs
  if cs.isEmpty then none
  else if word == ".nan" then return ⟨Binary64.notANumber, Num.yamlMark⟩
  else
    let x ←
      if word == ".inf" then some Binary64.infinity
      else if cs.contains ':' then
        ((cs.splitOn ':').mapM fun part => Reading.float? (String.ofList part)) >>= (floatSixties? 1 0 ·.reverse)
      else Reading.float? word
    return Num.ofOutside (if negative then -x else x)

def bool? (text : String) : Option Bool :=
  let word := Text.lower text
  if ["yes", "true", "on"].contains word then some true
  else if ["no", "false", "off"].contains word then some false
  else none

def stamp? (text : String) : Option Stamp := do
  let p ← timeParts? text
  let date : Date := ⟨p.year, p.month, p.day⟩
  guard date.valid
  match p.clock with
  | none => return .date date
  | some (hour, minute, second, micro) =>
    let time : ClockTime := ⟨hour, minute, second, micro, p.offset⟩
    guard (time.valid && p.offset.all fun o => o.natAbs < 86400)
    return .datetime date time

def base64Digit? (c : Char) : Option Nat :=
  if c.isUpper then some (c.toNat - 65)
  else if c.isLower then some (c.toNat - 71)
  else if c.isDigit then some (c.toNat + 4)
  else if c == '+' then some 62
  else if c == '/' then some 63
  else none

def base64Bytes : List Nat → List Nat
  | a :: b :: rest =>
    (4 * a + b / 16) :: (rest.head?.toList.map fun c => b % 16 * 16 + c / 4) ++
      rest.tail.map fun d => rest.headD 0 % 4 * 64 + d
  | _ => []

/-- The bytes that a text spells in base 64, behind the digits of a group that has begun and marks
for missing ones. Other characters do not count. -/
def base64? (group : List Nat) (missing : Nat) : List Char → Option (List Nat)
  | [] => if group.isEmpty then some [] else none
  | c :: rest =>
    match base64Digit? c with
    | some d =>
      if group.length = 3 then (base64? [] 0 rest).map (base64Bytes (group ++ [d]) ++ ·)
      else base64? (group ++ [d]) 0 rest
    | none =>
      if c == '=' && 2 ≤ group.length then
        if 3 ≤ group.length + missing then some (base64Bytes group) else base64? group (missing + 1) rest
      else base64? group missing rest

def bytesOf (bytes : List Nat) : Foreign where
  className := "bytes"
  text := "b" ++ Text.quotedBy (fun quote c =>
    if c.toNat < 128 then Text.quotedChar quote c else "\\x" ++ Text.hexadecimal 2 c.toNat) (bytes.map Char.ofNat)
  truthy := !bytes.isEmpty
  wholes := []

def binary? (text : String) : Option Foreign :=
  if text.toList.all (·.toNat < 128) then (base64? [] 0 text.toList).map bytesOf else none

def scalarDatum (kind : Kind) (text : String) (mark : Nat) : Except String Datum :=
  let orBad (d : Option Datum) : Except String Datum :=
    d.elim (.error ("could not read " ++ Text.quoted text)) .ok
  match kind with
  | .null => .ok .none
  | .bool => orBad ((bool? text).map .bool)
  | .int => orBad ((int? text).map .int)
  | .float => orBad ((float? text).map .num)
  | .timestamp => orBad ((stamp? text).map (.stamp · mark))
  | .binary => orBad ((binary? text).map fun o => .stamp (.other o) mark)
  | .str => .ok (.str text)
  | _ => .error "could not determine a constructor for the tag"

end TagScript.Yaml

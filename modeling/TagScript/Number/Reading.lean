import TagScript.Number.Numeral
import TagScript.Text.Quoted

/-!
Reading numbers from text. Decimal digits of every script count, and an underscore may stand between
two digits.
-/

namespace TagScript.Reading

def isSeparator (c : Char) : Bool := 28 ≤ c.toNat && c.toNat ≤ 31

def isBlank (c : Char) : Bool := Text.isBlank c && !isSeparator c

def trim (cs : List Char) : List Char :=
  ((cs.dropWhile isBlank).reverse.dropWhile isBlank).reverse

def digits (count value : Nat) (after : Bool) : List Char → Nat × Nat × List Char
  | [] => (count, value, [])
  | '_' :: c :: rest =>
    match after, Text.decimalValue? c with
    | true, some d => digits (count + 1) (10 * value + d) true rest
    | _, _ => (count, value, '_' :: c :: rest)
  | c :: rest =>
    match Text.decimalValue? c with
    | some d => digits (count + 1) (10 * value + d) true rest
    | none => (count, value, c :: rest)

def sign : List Char → Bool × List Char
  | '-' :: rest => (true, rest)
  | '+' :: rest => (false, rest)
  | rest => (false, rest)

section Literal

variable (split : List Char → List Char × List Char)

def splitWhole (cs : List Char) : List Char × List Char :=
  match cs with
  | '0' :: rest => (['0'], rest)
  | _ => split cs

def splitFraction (cs : List Char) : List Char × List Char :=
  match cs with
  | '.' :: rest =>
    match split rest with
    | ([], _) => ([], cs)
    | found => found
  | _ => ([], cs)

def splitExponent (cs : List Char) : Option Int × List Char :=
  match cs with
  | c :: rest =>
    if c == 'e' || c == 'E' then
      let (negative, rest) := sign rest
      match split rest with
      | ([], _) => (none, cs)
      | (power, rest) =>
        let n := Text.decimalNumber power
        (some (if negative then -(n : Int) else n), rest)
    else (none, cs)
  | [] => (none, [])

end Literal

def special? (cs : List Char) : Option Float :=
  let word := String.ofList (cs.map Char.toLower)
  if word == "inf" || word == "infinity" then some Binary64.infinity
  else if word == "nan" then some Binary64.notANumber
  else none

def exponent? : List Char → Option (Int × List Char)
  | c :: rest =>
    if c == 'e' || c == 'E' then
      let (negative, rest) := sign rest
      match digits 0 0 false rest with
      | (0, _, _) => none
      | (_, value, rest) => some (if negative then -(value : Int) else value, rest)
    else some (0, c :: rest)
  | [] => some (0, [])

def float? (text : String) : Option Float :=
  let (negative, body) := sign (trim text.toList)
  match special? body with
  | some x => some (if negative then -x else x)
  | none =>
    let (wholeCount, whole, rest) := digits 0 0 false body
    let (fractionCount, value, rest) :=
      match rest with
      | '.' :: rest => digits 0 whole false rest
      | rest => (0, whole, rest)
    if wholeCount + fractionCount = 0 then none
    else
      match exponent? rest with
      | some (exponent, []) => some (Binary64.ofDecimal negative value (exponent - fractionCount))
      | _ => none

def maxDigits : Nat := 4300

/-- Why a numeral with too many digits is neither read nor written. -/
def beyondLimit (count : String) : String :=
  "Exceeds the limit (4300 digits) for integer string conversion" ++ count ++
    "; use sys.set_int_max_str_digits() to increase the limit"

def tooLong (count : Nat) : String :=
  beyondLimit (": value has " ++ Numeral.ofNat count ++ " digits")

def notWhole (text : String) : String :=
  "invalid literal for int() with base 10: " ++ String.ofList ((Text.quoted text).toList.take 200)

/-- A whole number in decimal notation; the error says why a text is none. An underscore out of
place comes before too many digits, and those before anything else. -/
def int (text : String) : Except String Int :=
  let (negative, body) := sign (trim text.toList)
  match digits 0 0 false body with
  | (count, value, rest) =>
    if rest.head? == some '_' then .error (notWhole text)
    else if count > maxDigits then .error (tooLong count)
    else if count = 0 || !rest.isEmpty then .error (notWhole text)
    else .ok (if negative then -(value : Int) else value)

def int? (text : String) : Option Int := (int text).toOption

end TagScript.Reading

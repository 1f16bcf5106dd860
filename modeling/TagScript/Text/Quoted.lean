import TagScript.Text.Ranges

/-!
Quoted texts. A text stands between single quotes, or between double quotes when it holds a single
quote and no double one. A code from 0xD800 to 0xDFFF, half of a pair, stands for no character by
itself, but escapes can put it into a text. It is kept as a character of a plane that has no
characters of its own.
-/

namespace TagScript.Text

def isHighHalf (n : Nat) : Bool := 0xD800 ≤ n && n ≤ 0xDBFF

def isLowHalf (n : Nat) : Bool := 0xDC00 ≤ n && n ≤ 0xDFFF

def joinHalves (high low : Nat) : Nat :=
  0x10000 + (high - 0xD800) * 0x400 + (low - 0xDC00)

def halfShift : Nat := 0xD0000

def half? (c : Char) : Option Nat :=
  let n := c.toNat - halfShift
  if isHighHalf n || isLowHalf n then some n else none

def isHalf (c : Char) : Bool := (half? c).isSome

def codeOf (c : Char) : Nat := (half? c).getD c.toNat

def charOfCode (n : Nat) : Char :=
  if isHighHalf n || isLowHalf n then Char.ofNat (halfShift + n) else Char.ofNat n

def hexadecimal (width n : Nat) : String :=
  let digits := Nat.toDigits 16 n
  String.ofList (List.replicate (width - digits.length) '0' ++ digits)

def quotedChar (quote c : Char) : String :=
  if c == quote || c == '\\' then "\\" ++ c.toString
  else if c == '\n' then "\\n"
  else if c == '\r' then "\\r"
  else if c == '\t' then "\\t"
  else if isPrintable c then c.toString
  else if codeOf c < 0x100 then "\\x" ++ hexadecimal 2 (codeOf c)
  else if codeOf c < 0x10000 then "\\u" ++ hexadecimal 4 (codeOf c)
  else "\\U" ++ hexadecimal 8 (codeOf c)

/-- Characters between quotes, each of them spelled by itself. -/
def quotedBy (spelled : Char → Char → String) (cs : List Char) : String :=
  let quote := if cs.contains '\'' && !cs.contains '"' then '"' else '\''
  quote.toString ++ String.join (cs.map (spelled quote)) ++ quote.toString

def quoted (s : String) : String :=
  quotedBy quotedChar s.toList

def joined (separator : String) : List String → String
  | [] => ""
  | [s] => s
  | s :: rest => s ++ separator ++ joined separator rest

def dropLastBreaks (s : String) : String :=
  String.ofList (s.toList.reverse.dropWhile (· == '\n')).reverse

end TagScript.Text

import TagScript.Datum.Text

/-!
Data as literals of the expression language, in a readable form for diagnostics and as an expression
on one line.
-/

namespace TagScript.Datum

def literalChar (c : Char) : String :=
  if c == '\\' then "\\\\"
  else if c == '"' then "\\\""
  else if c == '\n' then "\\n"
  else c.toString

def stringLiteral (s : String) : String :=
  "\"" ++ String.join (s.toList.map literalChar) ++ "\""

def isNameStart (c : Char) : Bool :=
  c.isAlpha || c == '_'

def isNameChar (c : Char) : Bool :=
  c.isAlphanum || c == '_'

def isPlainKey (name : String) : Bool :=
  match name.toList with
  | [] => false
  | c :: rest => isNameStart c && rest.all isNameChar && name != "true" && name != "false"

def keyLiteral (name : String) : String :=
  if isPlainKey name then name else stringLiteral name

def blanks (n : Nat) : String :=
  String.ofList (List.replicate n ' ')

def isContainer : Datum → Bool
  | .seq _ => true
  | .map _ => true
  | _ => false

def onOneLine (entries : List (String × Datum)) : Bool :=
  entries.length ≤ 3 && entries.all fun entry => !entry.2.isContainer

mutual

def layout (width level : Nat) : Datum → String
  | .none => "none"
  | .bool b => boolText b
  | .num n => numberText n.val
  | .int i => Numeral.ofInt i
  | .str s => stringLiteral s
  | .seq items => "[" ++ Text.joined ", " (layoutItems width (level + 1) items) ++ "]"
  | .map [] => "\x7b\x7d"
  | .map (entry :: rest) =>
    let parts := layoutEntries width (level + 1) (entry :: rest)
    if onOneLine (entry :: rest) then "\x7b" ++ Text.joined ", " parts ++ "\x7d"
    else
      let pad := blanks (width * (level + 1))
      "\x7b\n" ++ Text.joined ",\n" (parts.map (pad ++ ·)) ++ "\n" ++ blanks (width * level) ++ "\x7d"
  | .error r => "<" ++ errorText r ++ ">"
  | .func name params _ => "func " ++ signature name params
  | .stamp s _ => s.diagnostic

def layoutItems (width level : Nat) : List Datum → List String
  | [] => []
  | d :: rest => layout width level d :: layoutItems width level rest

def layoutEntries (width level : Nat) : List (String × Datum) → List String
  | [] => []
  | entry :: rest => layoutEntry width level entry :: layoutEntries width level rest

def layoutEntry (width level : Nat) : String × Datum → String
  | (name, d) => keyLiteral name ++ ": " ++ layout width level d

end

def oneLine (d : Datum) : String :=
  String.ofList ((layout 2 0 d).toList.map fun c => if c == '\n' then ' ' else c)

def literal? : Datum → Option String
  | .num n =>
    if n.val.isNaN then some "(0/0)"
    else if !Binary64.isFinite n.val then
      some (if Binary64.isNegative n.val then "(-1/0)" else "(1/0)")
    else if Numeral.hasExponent n.val then some (Numeral.spelledOut n.val)
    else some (numberText n.val)
  | .bool b => some (boolText b)
  | .int i => some (Numeral.ofInt i)
  | .str s => some (stringLiteral s)
  | .seq items => some (oneLine (.seq items))
  | .map entries => some (oneLine (.map entries))
  | _ => Option.none

end TagScript.Datum

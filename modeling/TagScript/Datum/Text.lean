import TagScript.Datum.Json

/-!
Data as text in a document: numbers without a needless point, the items of a sequence between commas,
mappings as compact JSON, and nothing at all for none; and as they are spelled in diagnostics.
-/

namespace TagScript.Datum

def numberText (x : Float) : String :=
  if x.isNaN then "NaN"
  else if !Binary64.isFinite x then (if Binary64.isNegative x then "-Infinity" else "Infinity")
  else if Binary64.isWhole x && (Binary64.truncate x).natAbs < Binary64.tenTo 21 then
    Numeral.ofInt (Binary64.truncate x)
  else Numeral.ofFloat x

def boolText (b : Bool) : String :=
  if b then "true" else "false"

def errorText (r : ErrorRecord) : String :=
  r.kind ++ ": " ++ r.message

def signature (name : String) (params : List String) : String :=
  name ++ "(" ++ Text.joined ", " params ++ ")"

mutual

def text : Datum → Except String String
  | .none => .ok ""
  | .str s => .ok s
  | .bool b => .ok (boolText b)
  | .num n => .ok (numberText n.val)
  | .int i => .ok (Numeral.ofInt i)
  | .seq items =>
    match texts items with
    | .ok parts => .ok (Text.joined "," parts)
    | .error e => .error e
  | .error r => .ok (errorText r)
  | .map entries => Json.write Json.compact 0 (wire (.map entries))
  | .func name params _ => .ok ("<func " ++ signature name params ++ ">")
  | .stamp s _ => .ok s.text

def texts : List Datum → Except String (List String)
  | [] => .ok []
  | d :: rest =>
    match text d with
    | .error e => .error e
    | .ok s =>
      match texts rest with
      | .ok parts => .ok (s :: parts)
      | .error e => .error e

end

def diagnostic : Datum → String :=
  fold (fun
    | .bool b => if b then "True" else "False"
    | .num n => Numeral.ofFloat n.val
    | .int i => Numeral.ofInt i
    | .str s => Text.quoted s
    | .error r =>
      "ErrorRecord(message=" ++ Text.quoted r.message ++ ", kind=" ++ Text.quoted r.kind ++ ")"
    | .func name params _ => "<func " ++ signature name params ++ ">"
    | .stamp s _ => s.diagnostic
    | _ => "None")
    (fun parts => "[" ++ Text.joined ", " parts ++ "]")
    fun parts => "\x7b" ++ Text.joined ", " (parts.map fun part => Text.quoted part.1 ++ ": " ++ part.2) ++ "\x7d"

def plain : Datum → String
  | .str s => s
  | .stamp s _ => s.text
  | .error r => errorText r
  | d => d.diagnostic

end TagScript.Datum

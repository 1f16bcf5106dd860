import TagScript.Datum.Basic
import TagScript.Text.Quoted

/-!
Data as JSON text, and two views of data for the outside: the plain form that goes out, and the form
in which data comes in. Characters beyond ASCII stand as themselves in JSON.
-/

namespace TagScript.Datum

def wireNum (n : Num) : Datum :=
  if Binary64.isFinite n.val then
    if Binary64.isWhole n.val then .int (Binary64.truncate n.val) else .num n
  else .none

def wire : Datum → Datum :=
  fold (fun
    | .num n => wireNum n
    | .error r => .map [("error", .str r.message), ("kind", .str r.kind)]
    | d => d) .seq .map

def normal? : Datum → Option Datum :=
  fold (fun
    | .int i => (Binary64.ofInt? i).map fun x => .num (Num.ofFloat x)
    | d => some d)
    (fun items => Option.map .seq (items.mapM id))
    fun entries => Option.map .map (entries.mapM fun entry => entry.2.map (entry.1, ·))

end TagScript.Datum

namespace TagScript.Json

/-- What stands after an item, after a name, and before each line of an indented text. -/
structure Layout where
  itemSeparator : String
  nameSeparator : String
  indent : Option Nat

def spaced : Layout := ⟨", ", ": ", none⟩

def compact : Layout := ⟨",", ":", none⟩

def indented : Layout := ⟨",", ": ", some 2⟩

def escapedChar (c : Char) : String :=
  if c == '"' then "\\\""
  else if c == '\\' then "\\\\"
  else if c == '\n' then "\\n"
  else if c == '\r' then "\\r"
  else if c == '\t' then "\\t"
  else if c == '\x0c' then "\\f"
  else if c == '\x08' then "\\b"
  else if c.toNat < 0x20 then "\\u" ++ Text.hexadecimal 4 c.toNat
  else c.toString

def string (s : String) : String :=
  "\"" ++ String.join (s.toList.map escapedChar) ++ "\""

def number (x : Float) : String :=
  if x.isNaN then "NaN"
  else if Binary64.isFinite x then Numeral.ofFloat x
  else if Binary64.isNegative x then "-Infinity"
  else "Infinity"

def Layout.newline (layout : Layout) (level : Nat) : String :=
  match layout.indent with
  | some width => "\n" ++ String.ofList (List.replicate (width * level) ' ')
  | none => ""

def Layout.enclose (layout : Layout) (level : Nat) (opener closer : String) (parts : List String) :
    String :=
  opener ++ layout.newline (level + 1) ++
    Text.joined (layout.itemSeparator ++ layout.newline (level + 1)) parts ++
    layout.newline level ++ closer

def write (layout : Layout) (level : Nat) (d : Datum) : Except String String :=
  d.fold (α := Nat → Except String String) (fun d _ =>
    match d with
    | .none => .ok "null"
    | .bool b => .ok (if b then "true" else "false")
    | .num n => .ok (number n.val)
    | .int i => .ok (Numeral.ofInt i)
    | .str s => .ok (string s)
    | d => .error d.className)
    (fun parts level =>
      if parts.isEmpty then .ok "[]" else Except.map (layout.enclose level "[" "]") (parts.mapM (· (level + 1))))
    (fun parts level =>
      if parts.isEmpty then .ok "\x7b\x7d"
      else Except.map (layout.enclose level "\x7b" "\x7d")
        (parts.mapM fun part => (part.2 (level + 1)).map (string part.1 ++ layout.nameSeparator ++ ·)))
    level

def unwritable (className : String) : String :=
  "Object of type " ++ className ++ " is not JSON serializable"

end TagScript.Json

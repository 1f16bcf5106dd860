import TagScript.Datum.Text

/-!
Mappings as TOML text: plain values first, then a heading for each table. Nothing is written for
none.
-/

namespace TagScript.Toml

/-! ### Strings -/

/-- What stands between two parts of a string that a control character divides: its escape begins
anew if the backslashes before it do not already stand for themselves. -/
def joiner (before : String) : String :=
  let slashes := (before.toList.reverse.takeWhile (· == '\\')).length
  let plain := if slashes = 0 then true else min slashes (before.length - 1) % 2 == 1
  if plain then "x" else "u00"

def joinTwo (before after : String) : Except String String :=
  let before := before.replace "\\\\" "\\"
  if before.isEmpty then .error "string index out of range" else .ok (before ++ joiner before ++ after)

def joinParts (before : String) : List String → Except String String
  | [] => .ok before
  | [after] =>
    if before.isEmpty then .error "list index out of range" else joinTwo before after
  | after :: next :: rest =>
    if before.isEmpty then do joinParts (← joinTwo after next) rest
    else do joinParts (← joinTwo before after) (next :: rest)

def writeSpelled (spelled : String) : Except String String :=
  let cs := spelled.toList
  let inner := String.ofList (cs.drop 1).dropLast
  let body :=
    match cs.head? with
    | some '\'' => (inner.replace "\\'" "'").replace "\"" "\\\""
    | some '"' => inner
    | _ => spelled
  match body.splitOn "\\x" with
  | [] => .ok "\"\""
  | first :: rest => (joinParts first rest).map fun s => "\"" ++ s ++ "\""

def writeString (s : String) : Except String String :=
  writeSpelled (Text.quoted s)

def isPlainName (name : String) : Bool :=
  let cs := name.toList
  let body := if cs.getLast? == some '\n' then cs.dropLast else cs
  !body.isEmpty && body.all fun c => c.isAlphanum || c == '_' || c == '-'

def writeName (name : String) : Except String String :=
  if isPlainName name then .ok name else writeString name

/-! ### Values -/

def writeFloat (x : Float) : String :=
  ((Numeral.ofFloat x).replace "e+0" "e+").replace "e-0" "e-"

def writeStamp (s : Stamp) : String :=
  match s with
  | .date d => d.text
  | .time t => ({ t with offset := none } : ClockTime).text
  | .datetime _ _ => (s.iso "T").replace "+00:00" "Z"
  | .other o => o.text

def writeArray (items : List String) : String :=
  "[" ++ String.join (items.map fun item => " " ++ item ++ ",") ++ "]"

mutual

def writeValue : Datum → Except String String
  | .none => writeSpelled "None"
  | .bool b => .ok (Datum.boolText b)
  | .num n => .ok (writeFloat n.val)
  | .int i => .ok (Numeral.ofInt i)
  | .str s => writeString s
  | .seq items => (writeValues items).map writeArray
  | .map entries => ((Assoc.names entries).mapM writeString).map writeArray
  | .error r => writeSpelled (Datum.error r).diagnostic
  | .func name params mark => writeSpelled (Datum.func name params mark).diagnostic
  | .stamp s _ => .ok (writeStamp s)

def writeValues : List Datum → Except String (List String)
  | [] => .ok []
  | d :: rest => return (← writeValue d) :: (← writeValues rest)

end

/-! ### Tables -/

def nesting : Datum → Nat :=
  Datum.fold (fun _ => 0) (fun parts => parts.foldr max 0 + 1) fun parts => (parts.map Prod.snd).foldr max 0 + 1

/-- A table in parts: the text of its plain values and arrays of tables, and its inner tables under
their written names. -/
structure Parts where
  text : String
  tables : List (String × Assoc Datum)

def holdsTables (items : List Datum) : Bool :=
  items.any fun
    | .map _ => true
    | _ => false

def asTable : Datum → Except String (Assoc Datum)
  | .map entries => .ok entries
  | .str s => if s.isEmpty then .ok [] else .error "string indices must be integers, not 'str'"
  | .seq items =>
    if items.isEmpty then .ok [] else .error "list indices must be integers or slices, not str"
  | d => .error ("'" ++ d.qualifiedName ++ "' object is not iterable")

def dotted (path : String) : String :=
  if path.isEmpty || path.endsWith "." then path else path ++ "."

mutual

def tableParts : Nat → String → Assoc Datum → Except String Parts
  | 0, _, _ => .ok ⟨"", []⟩
  | depth + 1, path, table => do
    let mut plain := ""
    let mut arrays := ""
    let mut tables : List (String × Assoc Datum) := []
    for (name, value) in table do
      let written ← writeName name
      match value with
      | .map inner => tables := tables ++ [(written, inner)]
      | .none => pure ()
      | .seq items =>
        if holdsTables items then
          for item in items do
            arrays := arrays ++ (← arrayTable depth (dotted path ++ written) item)
        else plain := plain ++ written ++ " = " ++ (← writeValue value) ++ "\n"
      | _ => plain := plain ++ written ++ " = " ++ (← writeValue value) ++ "\n"
    return ⟨plain ++ arrays, tables⟩

def arrayTable : Nat → String → Datum → Except String String
  | 0, _, _ => .ok ""
  | depth + 1, path, item => do
    let parts ← tableParts depth path (← asTable item)
    let inner ← innerTables depth path parts.tables
    let (before, after) := if parts.text.startsWith "[" then ("", parts.text) else (parts.text, "")
    return "[[" ++ path ++ "]]\n" ++ before ++ "\n" ++ after ++ inner

def innerTables : Nat → String → List (String × Assoc Datum) → Except String String
  | 0, _, _ => .ok ""
  | _ + 1, _, [] => .ok ""
  | depth + 1, path, tables => do
    let mut text := ""
    let mut next : List (String × Assoc Datum) := []
    for (name, table) in tables do
      let parts ← tableParts depth (path ++ "." ++ name) table
      if !parts.text.isEmpty then text := text ++ "[" ++ path ++ "." ++ name ++ "]\n" ++ parts.text
      next := next ++ parts.tables.map fun (inner, table) => (name ++ "." ++ inner, table)
    return text ++ (← innerTables depth path next)

end

def writeTables (bound : Nat) : Nat → String → List (String × Assoc Datum) → Except String String
  | 0, text, _ => .ok text
  | _ + 1, text, [] => .ok text
  | depth + 1, text, tables => do
    let mut text := text
    let mut next : List (String × Assoc Datum) := []
    for (name, table) in tables do
      let parts ← tableParts bound name table
      if !parts.text.isEmpty || parts.tables.isEmpty then
        let gap := if text.isEmpty || text.endsWith "\n\n" then "" else "\n"
        text := text ++ gap ++ "[" ++ name ++ "]\n" ++ parts.text
      next := next ++ parts.tables.map fun (inner, table) => (name ++ "." ++ inner, table)
    writeTables bound depth text next

def writeDatum : Datum → Except String String
  | .map table => do
    let bound := 2 * nesting (.map table)
    let parts ← tableParts bound "" table
    return Text.dropLastBreaks (← writeTables bound bound parts.text parts.tables)
  | _ => .error "stringify requires a mapping"

end TagScript.Toml

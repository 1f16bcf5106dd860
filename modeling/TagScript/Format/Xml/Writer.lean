import TagScript.Datum.Text

/-!
Data as XML text: a name that begins with `@` is an attribute, and `#text` is the text of the
element.
-/

namespace TagScript.Xml

def textName : String := "#text"

def commentName : String := "#comment"

/-! ### Names and texts -/

def checkName (kind name : String) : Except String Unit :=
  let cs := name.toList
  if cs.head? == some '?' || cs.head? == some '!' then
    .error ("Invalid " ++ kind ++ " name: cannot start with \"?\" or \"!\"")
  else if cs.any fun c => c == '<' || c == '>' then
    .error ("Invalid " ++ kind ++ " name: \"<\" or \">\" not allowed")
  else if cs.contains '/' then .error ("Invalid " ++ kind ++ " name: \"/\" not allowed")
  else if cs.any fun c => c == '"' || c == '\'' then
    .error ("Invalid " ++ kind ++ " name: quotes not allowed")
  else if cs.contains '=' then .error ("Invalid " ++ kind ++ " name: \"=\" not allowed")
  else if cs.any Text.isBlank then .error ("Invalid " ++ kind ++ " name: whitespace not allowed")
  else .ok ()

def escapedChar (c : Char) : String :=
  if c == '&' then "&amp;" else if c == '>' then "&gt;" else if c == '<' then "&lt;" else c.toString

def escaped (s : String) : String :=
  String.join (s.toList.map escapedChar)

def escapedAttrChar (c : Char) : String :=
  if c == '\n' then "&#10;" else if c == '\r' then "&#13;" else if c == '\t' then "&#9;"
  else escapedChar c

def attrValue (s : String) : String :=
  let body := String.join (s.toList.map escapedAttrChar)
  if s.toList.contains '"' then
    if s.toList.contains '\'' then "\"" ++ body.replace "\"" "&quot;" ++ "\"" else "'" ++ body ++ "'"
  else "\"" ++ body ++ "\""

def scalarText : Datum → String
  | .none => ""
  | .bool b => Datum.boolText b
  | d => d.plain

def comment (text : String) : Except String String :=
  if (text.splitOn "--").length > 1 then .error "Comment text cannot contain '--'"
  else if text.endsWith "-" then .error "Comment text cannot end with '-'"
  else .ok ("<!--" ++ escaped text ++ "-->")

/-! ### Elements -/

/-- Line breaks and tabs of an indented text. -/
structure Layout where
  indented : Bool

def Layout.indent (l : Layout) (level : Nat) : String :=
  if l.indented then String.ofList (List.replicate level '\t') else ""

def Layout.break (l : Layout) : String :=
  if l.indented then "\n" else ""

def entryAttrs (name : String) (value : Datum) : Except String (List (String × String)) :=
  match name, value with
  | "@xmlns", .map spaces =>
    spaces.mapM fun (space, d) => do
      checkName "attribute" space
      return ("xmlns" ++ (if space.isEmpty then "" else ":" ++ space), scalarText d)
  | _, _ => do
    let name := String.ofList (name.toList.drop 1)
    checkName "attribute" name
    return [(name, scalarText value)]

def isAttr (name : String) : Bool :=
  name.startsWith "@"

def attrs (entries : List (String × Datum)) : Except String String := do
  let found ← (entries.filter fun entry => isAttr entry.1).mapM fun (name, d) => entryAttrs name d
  let texts := (Assoc.ofList found.flatten).map fun (name, value) =>
    " " ++ name ++ "=" ++ attrValue value
  return String.join texts

def textOf (entries : List (String × Datum)) : String :=
  match (entries.filter (·.1 == textName)).getLast? with
  | some (_, d) => scalarText d
  | none => ""

def isChild (entry : String × Datum) : Bool :=
  match entry with
  | (_, .seq []) => false
  | (name, _) => !(name == textName || isAttr name)

def element (l : Layout) (level : Nat) (name attrs content text : String) (hasChildren : Bool) :
    String :=
  let inner :=
    if hasChildren then l.break ++ content ++ escaped text ++ l.indent level else escaped text
  l.indent level ++ "<" ++ name ++ attrs ++ ">" ++ inner ++ "</" ++ name ++ ">" ++
    (if level = 0 then "" else l.break)

def commentLine (l : Layout) (level : Nat) (d : Datum) : Except String String :=
  let text := scalarText d
  if text.isEmpty then .ok ""
  else (comment text).map fun c => l.indent level ++ c ++ l.break

def mappingElement (l : Layout) (level : Nat) (name : String) (entries : List (String × Datum))
    (content : Except String String) : Except String String := do
  let attrs ← attrs entries
  return element l level name attrs (← content) (textOf entries) (entries.any isChild)

mutual

def writeEntry (l : Layout) (level : Nat) : String × Datum → Except String String
  | (name, d) =>
    if name == commentName then
      match d with
      | .seq items => (items.mapM (commentLine l level)).map String.join
      | d => commentLine l level d
    else do
      checkName "element" name
      match d with
      | .seq items => writeItems l level name items
      | .map entries => mappingElement l level name entries (writeChildren l (level + 1) entries)
      | d => return element l level name "" "" (scalarText d) false

def writeItems (l : Layout) (level : Nat) (name : String) : List Datum → Except String String
  | [] => .ok ""
  | d :: rest => return (← writeItem l level name d) ++ (← writeItems l level name rest)

def writeItem (l : Layout) (level : Nat) (name : String) : Datum → Except String String
  | .map entries => mappingElement l level name entries (writeChildren l (level + 1) entries)
  | d => .ok (element l level name "" "" (scalarText d) false)

def writeChildren (l : Layout) (level : Nat) : List (String × Datum) → Except String String
  | [] => .ok ""
  | entry :: rest =>
    return (← if isChild entry then writeEntry l level entry else .ok "") ++ (← writeChildren l level rest)

end

def writeDatum (indented : Bool) (d : Datum) : Except String String :=
  match d with
  | .map [entry] => writeEntry ⟨indented⟩ 0 entry
  | d => writeEntry ⟨indented⟩ 0 ("root", d)

end TagScript.Xml

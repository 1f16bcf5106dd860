import TagScript.Datum.Text

/-!
Sections of named values as text. Options of the section `DEFAULT` belong to every section that has
no option of that name.
-/

namespace TagScript.Ini

def defaultSection : String := "DEFAULT"

/-- What has been read. Values are lists of lines. -/
structure State where
  sections : Assoc (Assoc (List String))
  defaults : Assoc (List String)
  /-- The section being read. -/
  current : Option String
  /-- The option being read, empty if it has no name. -/
  option : Option String
  /-- The indentation of the last heading or option. -/
  indent : Nat
  /-- Options read so far with their sections. -/
  seen : List (String × String)
  /-- Lines that could not be read, latest first. -/
  bad : List (Nat × String)

def State.start : State := ⟨[], [], none, none, 0, [], []⟩

def lineLabel (n : Nat) : String :=
  let digits := Numeral.ofNat n
  "[line " ++ (if digits.length < 2 then " " ++ digits else digits) ++ "]"

def repeatedSection (line : Nat) (name : String) : String :=
  "While reading from '<string>' " ++ lineLabel line ++ ": section " ++ Text.quoted name ++
    " already exists"

def repeatedOption (line : Nat) (sectionName name : String) : String :=
  "While reading from '<string>' " ++ lineLabel line ++ ": option " ++ Text.quoted name ++
    " in section " ++ Text.quoted sectionName ++ " already exists"

def noSection (line : Nat) (text : String) : String :=
  "File contains no section headers.\nfile: '<string>', line: " ++ Numeral.ofNat line ++ "\n" ++
    Text.quoted text

def badLines (lines : List (Nat × String)) : String :=
  "Source contains parsing errors: '<string>'" ++
    String.join (lines.map fun (n, text) => "\n\t" ++ lineLabel n ++ ": " ++ Text.quoted text)

def State.change (s : State) (f : Assoc (List String) → Assoc (List String)) : State :=
  match s.current with
  | none => s
  | some name =>
    if name = defaultSection then { s with defaults := f s.defaults }
    else { s with sections := Assoc.set name (f ((Assoc.get? name s.sections).getD [])) s.sections }

def State.continueValue (s : State) (option line : String) : State :=
  s.change fun options => Assoc.set option ((Assoc.get? option options).getD [] ++ [line]) options

def heading? (cs : List Char) : Option String :=
  match cs with
  | '[' :: rest =>
    match (rest.reverse.dropWhile (· != ']')) with
    | _ :: name => if name.isEmpty then none else some (String.ofList name.reverse)
    | [] => none
  | _ => none

def option? (cs : List Char) : Option (String × String) :=
  let name := cs.takeWhile (· != '=')
  match cs.drop name.length with
  | _ :: value => some (String.ofList (Text.trimRight name), String.ofList (Text.trimChars value))
  | [] => none

def State.openOption (s : State) : Option String :=
  match s.current, s.option with
  | some _, some name => if name.isEmpty then none else some name
  | _, _ => none

def State.takeHeading (s : State) (line : Nat) (name : String) : Except String State :=
  if Assoc.has name s.sections then .error (repeatedSection line name)
  else
    let sections := if name = defaultSection then s.sections else Assoc.set name [] s.sections
    .ok { s with sections := sections, current := some name, option := none }

def State.takeOption (s : State) (line : Nat) (text sectionName name value : String) :
    Except String State :=
  let s := if name.isEmpty then { s with bad := (line, text) :: s.bad } else s
  if s.seen.contains (sectionName, name) then .error (repeatedOption line sectionName name)
  else
    let s := { s with seen := (sectionName, name) :: s.seen, option := some name }
    .ok (s.change (Assoc.set name [value]))

def State.take (s : State) (line : Nat) (text : String) : Except String State :=
  let cs := text.toList
  match Text.trimChars cs with
  | [] => .ok (s.openOption.elim s fun option => s.continueValue option "")
  | c :: rest =>
    if c == ';' || c == '#' then .ok s
    else
      let body := c :: rest
      let indent := (cs.takeWhile Text.isBlank).length
      match if indent > s.indent then s.openOption else none with
      | some option => .ok (s.continueValue option (String.ofList body))
      | none =>
        let s := { s with indent := indent }
        match heading? body, s.current, option? body with
        | some name, _, _ => s.takeHeading line name
        | none, none, _ => .error (noSection line text)
        | none, some sectionName, some (name, value) => s.takeOption line text sectionName name value
        | none, some _, none => .ok { s with bad := (line, text) :: s.bad }

def State.takeAll (s : State) (line : Nat) : List String → Except String State
  | [] => .ok s
  | text :: rest => do (← s.take line text).takeAll (line + 1) rest

def lines (text : String) : List String :=
  let rec go : List Char → List Char → List String
    | [], [] => []
    | [], run => [String.ofList run.reverse]
    | c :: rest, run =>
      if c == '\n' then String.ofList (c :: run).reverse :: go rest [] else go rest (c :: run)
  go text.toList []

def valueText (ls : List String) : Datum :=
  .str (String.ofList (Text.trimRight (Text.joined "\n" ls).toList))

def State.options (s : State) (options : Assoc (List String)) : Datum :=
  let missing := s.defaults.filter fun (name, _) => !Assoc.has name options
  .map ((options ++ missing).map fun (name, ls) => (name, valueText ls))

def read (text : String) : Except String Datum :=
  match State.start.takeAll 1 (lines text) with
  | .error e => .error e
  | .ok s =>
    if s.bad.isEmpty then .ok (.map (s.sections.map fun (name, options) => (name, s.options options)))
    else .error (badLines s.bad.reverse)

/-! ### Writing -/

def writeOption (name value : String) : String :=
  name ++ "=" ++ String.join (value.toList.map fun c => if c == '\n' then "\n\t" else c.toString) ++ "\n"

def writeSection (name : String) (options : Assoc String) : String :=
  "[" ++ name ++ "]\n" ++ String.join (options.map fun (name, value) => writeOption name value) ++ "\n"

def place (defaults : Assoc String) (sections : Assoc (Assoc String)) (name : String)
    (options : Assoc String) : Assoc String × Assoc (Assoc String) :=
  if name = defaultSection then (options, sections)
  else if name.isEmpty then (Assoc.merge defaults options, sections ++ [(name, [])])
  else (defaults, sections ++ [(name, options)])

def placeAll (defaults : Assoc String) (sections : Assoc (Assoc String)) :
    List (String × Datum) → Except String (Assoc String × Assoc (Assoc String))
  | [] => .ok (defaults, sections)
  | (name, .map options) :: rest => do
    let options ← options.mapM fun (key, d) => do
      return (key, ← d.text.mapError Json.unwritable)
    let (defaults, sections) := place defaults sections name options
    placeAll defaults sections rest
  | (name, _) :: _ => .error ("section " ++ Text.quoted name ++ " must be a mapping")

def writeDatum : Datum → Except String String
  | .map entries => do
    let (defaults, sections) ← placeAll [] [] entries
    let all := if defaults.isEmpty then sections else (defaultSection, defaults) :: sections
    return Text.trim (String.join (all.map fun (name, options) => writeSection name options))
  | _ => .error "stringify requires a mapping of sections"

end TagScript.Ini

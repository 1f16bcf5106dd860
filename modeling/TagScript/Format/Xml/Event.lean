import TagScript.Datum.Basic
import TagScript.Format.Xml.Declaration

/-!
XML documents as sequences of events, and the data in them. An element with attributes or inner
elements is a mapping; others are their text or none.
-/

namespace TagScript.Xml

/-- What a document is made of. -/
inductive Event where
  | start (name : String) (attrs : List (String × String))
  | finish
  | text (text : String)
  deriving DecidableEq, Repr

/-! ### Tags -/

/-- How a start tag ends. -/
inductive TagEnd where
  | content
  | empty
  deriving DecidableEq, Repr

def readAttrs : Nat → List Char → Except String (List (String × List Char) × TagEnd × List Char)
  | 0, _ => .error malformed
  | bound + 1, cs =>
    match skipSpace cs with
    | '>' :: rest => .ok ([], .content, rest)
    | '/' :: '>' :: rest => .ok ([], .empty, rest)
    | body =>
      if body.length = cs.length then .error malformed
      else do
        let (name, rest) ← readName body
        match skipSpace rest with
        | '=' :: rest =>
          match skipSpace rest with
          | quote :: rest =>
            if quote == '"' || quote == '\'' then
              match splitAround? [quote] rest with
              | none => .error malformed
              | some (value, rest) => do
                let (attrs, ending, rest) ← readAttrs bound rest
                return ((name, value) :: attrs, ending, rest)
            else .error malformed
          | [] => .error malformed
        | _ => .error malformed

def completeAttrs (d : Declarations) (element : String) (given : List (String × List Char)) :
    Except String (List (String × String)) := do
  let rules := d.rulesOf element
  let attrs ← given.foldlM (fun done (name, raw) => do
    let isText := (rules.find? (·.name == name)).elim true AttrRule.isText
    let value ← readValue d.isLenient isText raw
    if Assoc.has name done then .error "duplicate attribute" else return done ++ [(name, value)]) []
  return rules.foldl (fun done rule =>
    match rule.value with
    | some value => if Assoc.has rule.name done then done else done ++ [(rule.name, value)]
    | none => done) attrs

/-! ### Content -/

/-- What has been read: the open elements, innermost first, and the events, latest first. -/
structure Progress where
  openNames : List String
  events : List Event

def Progress.takeStart (p : Progress) (d : Declarations) (cs : List Char) :
    Except String (Progress × List Char) := do
  let (name, rest) ← readName cs
  let (given, ending, rest) ← readAttrs (rest.length + 1) rest
  let attrs ← completeAttrs d name given
  match ending with
  | .content => return (⟨name :: p.openNames, .start name attrs :: p.events⟩, rest)
  | .empty => return (⟨p.openNames, .finish :: .start name attrs :: p.events⟩, rest)

def Progress.takeFinish (p : Progress) (cs : List Char) : Except String (Progress × List Char) := do
  let (name, rest) ← readName cs
  match skipSpace rest, p.openNames with
  | '>' :: rest, top :: others =>
    if top = name then .ok (⟨others, .finish :: p.events⟩, rest) else .error "mismatched tag"
  | _, _ => .error malformed

def Progress.takeText (p : Progress) (text : List Char) : Progress :=
  { p with events := .text (String.ofList text) :: p.events }

def Progress.takePiece (p : Progress) (d : Declarations) (cs : List Char) :
    Except String (Progress × List Char) :=
  match cs with
  | '<' :: '/' :: rest => p.takeFinish rest
  | '<' :: '?' :: rest => (skipInstruction rest).map fun rest => (p, rest)
  | '<' :: '!' :: rest =>
    match after? "--" rest, after? "[CDATA[" rest with
    | some rest, _ => (skipComment rest).map fun rest => (p, rest)
    | none, some rest =>
      match splitAround? "]]>".toList rest with
      | some (text, rest) => .ok (p.takeText text, rest)
      | none => .error "unclosed CDATA section"
    | none, none => .error malformed
  | '<' :: rest => p.takeStart d rest
  | '&' :: rest => (readReference d.isLenient rest).map fun (text, rest) => (p.takeText text, rest)
  | _ =>
    let text := cs.takeWhile fun c => c != '<' && c != '&'
    match splitAround? "]]>".toList text with
    | some _ => .error malformed
    | none => .ok (p.takeText text, cs.drop text.length)

def takeContent (d : Declarations) : Nat → Progress → List Char → Except String (Progress × List Char)
  | 0, _, _ => .error "no element found"
  | bound + 1, p, cs =>
    match p.openNames, cs with
    | [], _ => .ok (p, cs)
    | _, [] => .error "no element found"
    | _, _ => do
      let (p, rest) ← p.takePiece d cs
      takeContent d bound p rest

/-! ### The document's own declaration -/

def readItemValue (cs : List Char) : Except String (String × List Char) :=
  match cs with
  | quote :: rest =>
    if quote == '"' || quote == '\'' then
      match splitAround? [quote] rest with
      | some (value, rest) =>
        if value.all fun c => c.isAlphanum || c == '.' || c == '-' || c == '_' then
          .ok (String.ofList value, rest)
        else .error malformed
      | none => .error "unclosed token"
    else .error malformed
  | [] => .error malformed

def readItem (cs : List Char) : Except String (Option (String × String) × List Char) :=
  match skipSpace cs with
  | '?' :: '>' :: rest => .ok (none, rest)
  | body =>
    if body.length = cs.length then .error malformed
    else do
      let (name, rest) ← readName body
      match skipSpace rest with
      | '=' :: rest =>
        let (value, rest) ← readItemValue (skipSpace rest)
        return (some (name, value), rest)
      | _ => .error malformed

def readStandsAlone (item : Option (String × String)) (rest : List Char) :
    Except String (Bool × List Char) :=
  match item with
  | none => .ok (false, rest)
  | some ("standalone", value) =>
    if value == "yes" || value == "no" then
      match skipSpace rest with
      | '?' :: '>' :: rest => .ok (value == "yes", rest)
      | _ => .error malformed
    else .error malformed
  | some _ => .error malformed

/-- The declaration after its word: a version, then perhaps an encoding, then perhaps whether the
document stands alone. -/
def readHead (cs : List Char) : Except String (Bool × List Char) := do
  match ← readItem cs with
  | (some ("version", _), rest) =>
    match ← readItem rest with
    | (some ("encoding", value), rest) =>
      if value.toList.head?.any Char.isAlpha then
        let (item, rest) ← readItem rest
        readStandsAlone item rest
      else .error malformed
    | (item, rest) => readStandsAlone item rest
  | _ => .error malformed

def readHead? (cs : List Char) : Except String (Bool × List Char) :=
  match after? "<?xml" cs with
  | some (c :: rest) => if isSpace c || c == '?' then readHead (c :: rest) else .ok (false, cs)
  | _ => .ok (false, cs)

def events (text : String) : Except String (List Event) := do
  let cs := dropMark (joinBreaks (← charactersOf text))
  if !cs.all isAllowed then .error malformed
  else
    let (standsAlone, cs) ← readHead? cs
    let bound := cs.length + 1
    let (before, cs) ← tokens bound cs
    let d ← readDeclarations standsAlone before
    match cs with
    | '<' :: rest =>
      let (p, rest) ← Progress.takeStart ⟨[], []⟩ d rest
      let (p, rest) ← takeContent d bound p rest
      let (behind, rest) ← tokens bound rest
      if rest.isEmpty && behind.all Token.isAside then return p.events.reverse
      else .error "junk after document element"
    | _ => .error "no element found"

/-- An open element: its name, its entries so far and its text so far. -/
structure Frame where
  name : String
  entries : Option (List (String × Datum))
  text : List Char

def push (name : String) (d : Datum) (entries : List (String × Datum)) : List (String × Datum) :=
  match Assoc.get? name entries with
  | none => entries ++ [(name, d)]
  | some (.seq items) => Assoc.set name (.seq (items ++ [d])) entries
  | some first => Assoc.set name (.seq [first, d]) entries

def Frame.value (f : Frame) : Datum :=
  let text := String.ofList (Text.trimChars f.text)
  match f.entries with
  | none => if text.isEmpty then .none else .str text
  | some entries => .map (if text.isEmpty then entries else push "#text" (.str text) entries)

def Frame.add (f : Frame) (name : String) (d : Datum) : Frame :=
  { f with entries := some (push name d (f.entries.getD [])) }

/-- Takes an event; the first frame is the innermost open element, the last one holds the document.
-/
def takeEvent : List Frame → Event → List Frame
  | frames, .start name attrs =>
    let entries := attrs.map fun (key, value) => ("@" ++ key, Datum.str value)
    ⟨name, if entries.isEmpty then none else some entries, []⟩ :: frames
  | f :: frames, .text text => { f with text := f.text ++ text.toList } :: frames
  | f :: parent :: frames, .finish => parent.add f.name f.value :: frames
  | frames, _ => frames

def read (text : String) : Except String Datum := do
  let frames := (← events text).foldl takeEvent [⟨"", none, []⟩]
  return .map ((frames.head?.bind Frame.entries).getD [])

end TagScript.Xml

import TagScript.Markup.CharRef
import TagScript.Text.Case

/-!
Markup as a sequence of events. Hardly anything is malformed: what is no tag is text.
-/

namespace TagScript.Markup

/-- What a stretch of markup says. -/
inductive Event where
  | start (tag : String) (attrs : List (String × Option String))
  | selfClosing (tag : String) (attrs : List (String × Option String))
  | finish (tag : String)
  | text (data : String)
  deriving DecidableEq, Repr

def endsTagName (c : Char) : Bool :=
  c == '\t' || c == '\n' || c == '\r' || c == '\x0c' || c == ' ' || c == '/' || c == '>' || c == '\x00'

def skipFiller : List Char → List Char
  | [] => []
  | '/' :: '>' :: rest => '/' :: '>' :: rest
  | c :: rest => if c == '/' || Text.isBlank c then skipFiller rest else c :: rest

def opensAttribute (c : Char) : Bool :=
  c == '\'' || c == '"' || c == '/' || Text.isBlank c

def splitAttributeName (previous : Char) : List Char → Option (List Char × List Char)
  | [] => none
  | c :: rest =>
    if opensAttribute previous && !(c == '/' || c == '>' || Text.isBlank c) then
      let stops (d : Char) := d == '/' || d == '=' || d == '>' || Text.isBlank d
      some (c :: rest.takeWhile (!stops ·), rest.dropWhile (!stops ·))
    else none

def splitAfter (mark : Char) : List Char → Option (List Char × List Char)
  | [] => none
  | c :: rest =>
    if c == mark then some ([], rest)
    else (splitAfter mark rest).map fun (before, after) => (c :: before, after)

def splitBare (cs : List Char) : List Char × List Char :=
  (cs.takeWhile fun c => c != '>' && !Text.isBlank c, cs.dropWhile fun c => c != '>' && !Text.isBlank c)

/-- The value of an attribute and the rest; `none` if there is no equals sign, or if its quote is
never closed and nothing before the quote can serve as a value: blanks before it give an empty
value, and further equals signs begin a bare one. -/
def splitValue (cs : List Char) : Option (List Char × List Char) :=
  let fromSigns := cs.dropWhile Text.isBlank
  let signs := fromSigns.takeWhile (· == '=')
  let afterSigns := fromSigns.dropWhile (· == '=')
  let gap := afterSigns.takeWhile Text.isBlank
  if signs.isEmpty then none
  else
    match afterSigns.dropWhile Text.isBlank with
    | [] => some ([], [])
    | c :: rest =>
      if c == '\'' || c == '"' then
        match splitAfter c rest with
        | some found => some found
        | none =>
          match gap.getLast? with
          | some blank => some ([], blank :: c :: rest)
          | none => if signs.length ≥ 2 then some (splitBare ('=' :: c :: rest)) else none
      else some (splitBare (c :: rest))

/-- The attributes from here on, with the references in their values as they are, and the rest of
the tag. The first argument bounds how many are read, the second is the character before. -/
def splitAttributes : Nat → Char → List Char → List (String × Option (List Char)) × List Char
  | 0, _, cs => ([], cs)
  | bound + 1, previous, cs =>
    match splitAttributeName previous cs with
    | none => ([], cs)
    | some (name, afterName) =>
      let (value, after) :=
        match splitValue afterName with
        | some (value, after) => (some value, after)
        | none => (none, afterName)
      let rest := skipFiller after
      let consumed := cs.take (cs.length - rest.length)
      let (attrs, end_) := splitAttributes bound (consumed.getLastD previous) rest
      ((Text.lower (String.ofList name), value) :: attrs, end_)

def resolveValues : List (String × Option (List Char)) → Except Fault (List (String × Option String))
  | [] => .ok []
  | (name, none) :: attrs => (resolveValues attrs).map ((name, none) :: ·)
  | (name, some value) :: attrs => do
    let value ← unescape value
    return (name, some (String.ofList value)) :: (← resolveValues attrs)

/-- What a start tag turns out to be. -/
inductive TagEnd where
  | tag (event : Event) (rest : List Char)
  | broken (raw : List Char) (rest : List Char)
  | incomplete

def splitStartTag (cs : List Char) : Except Fault TagEnd :=
  let name := cs.takeWhile (!endsTagName ·)
  let afterName := cs.dropWhile (!endsTagName ·)
  let tag := Text.lower (String.ofList name)
  let filled := skipFiller afterName
  let consumed := cs.take (cs.length - filled.length)
  let (attrs, end_) := splitAttributes cs.length (consumed.getLastD '<') filled
  match end_ with
  | '>' :: rest => (resolveValues attrs).map fun attrs => .tag (.start tag attrs) rest
  | '/' :: '>' :: rest => (resolveValues attrs).map fun attrs => .tag (.selfClosing tag attrs) rest
  | [] => .ok .incomplete
  | c :: rest =>
    if c == '=' || c == '/' || c.isAlpha then .ok .incomplete
    else (resolveValues attrs).map fun _ =>
      .broken ('<' :: cs.take (cs.length - rest.length - 1)) (c :: rest)

def afterComment : List Char → Option (List Char)
  | [] => none
  | c :: rest =>
    match c, rest with
    | '-', '-' :: tail =>
      match tail.dropWhile Text.isBlank with
      | '>' :: after => some after
      | _ => afterComment rest
    | _, _ => afterComment rest

def afterBracket : List Char → Option (List Char)
  | [] => none
  | c :: rest =>
    match c, rest.dropWhile Text.isBlank with
    | ']', '>' :: after => some after
    | _, _ => afterBracket rest

def afterBrackets : List Char → Option (List Char)
  | [] => none
  | c :: rest =>
    match c, rest.dropWhile Text.isBlank with
    | ']', ']' :: tail =>
      match tail.dropWhile Text.isBlank with
      | '>' :: after => some after
      | _ => afterBrackets rest
    | _, _ => afterBrackets rest

def isKeywordChar (c : Char) : Bool :=
  c.isAlphanum || c == '-' || c == '_' || c == '.'

/-- The characters behind a marked section, given those behind its `<![`; `none` if it does not end.
Its keyword says how it ends; anything else is a fault. -/
def afterSection (cs : List Char) : Except Fault (Option (List Char)) :=
  match cs with
  | [] => .ok none
  | c :: _ =>
    if !c.isAlpha then
      .error (.assertion
        ("expected name token at " ++ Text.quoted (String.ofList ("<![".toList ++ cs.take 17))))
    else
      let word := cs.takeWhile isKeywordChar
      let tail := cs.drop word.length
      let blanks := tail.takeWhile Text.isBlank
      if (tail.drop blanks.length).isEmpty then .ok none
      else
        let keyword := String.ofList (word.map Char.toLower)
        if ["temp", "cdata", "ignore", "include", "rcdata"].contains keyword then .ok (afterBrackets cs)
        else if ["if", "else", "endif"].contains keyword then .ok (afterBracket cs)
        else
          .error (.assertion ("unknown status keyword " ++
            Text.quoted (String.ofList (word ++ blanks)) ++ " in marked section"))

def isEndTagChar (c : Char) : Bool :=
  c.isAlphanum || c == '-' || c == '.' || c == ':' || c == '_'

def plainEndTag? (cs : List Char) : Option (List Char × List Char) :=
  match cs.dropWhile Text.isBlank with
  | c :: rest =>
    if c.isAlpha then
      let name := c :: rest.takeWhile isEndTagChar
      match (rest.dropWhile isEndTagChar).dropWhile Text.isBlank with
      | '>' :: after => some (name, after)
      | _ => none
    else none
  | [] => none

def splitEndTag (cs : List Char) : Option (List Event × List Char) :=
  match splitAfter '>' cs with
  | none => none
  | some (_, afterFirst) =>
    match plainEndTag? cs with
    | some (name, after) => some ([.finish (Text.lower (String.ofList name))], after)
    | none =>
      match cs with
      | c :: _ =>
        if c.isAlpha then
          let name := cs.takeWhile (!endsTagName ·)
          let tail := skipFiller (cs.dropWhile (!endsTagName ·))
          let after := (splitAfter '>' tail).elim [] Prod.snd
          some ([.finish (Text.lower (String.ofList name))], after)
        else some ([], afterFirst)
      | [] => none

def sameLetter (letter c : Char) : Bool :=
  c.toLower == letter || (letter == 's' && c.toNat == 0x17f) ||
    (letter == 'i' && (c.toNat == 0x130 || c.toNat == 0x131))

def dropName : List Char → List Char → Option (List Char)
  | [], cs => some cs
  | letter :: letters, c :: rest => if sameLetter letter c then dropName letters rest else none
  | _ :: _, [] => none

def endsRawText (name : List Char) : List Char → Bool
  | '<' :: '/' :: rest =>
    match dropName name (rest.dropWhile Text.isBlank) with
    | some tail =>
      match tail.dropWhile Text.isBlank with
      | '>' :: _ => true
      | _ => false
    | none => false
  | _ => false

def splitRawText (name : List Char) : List Char → Option (List Char × List Char)
  | [] => none
  | c :: rest =>
    if endsRawText name (c :: rest) then some ([], c :: rest)
    else (splitRawText name rest).map fun (before, after) => (c :: before, after)

def textEvents (cs : List Char) : List Event :=
  if cs.isEmpty then [] else [.text (String.ofList cs)]

/-- What is left as text of a construct that does not end: up to and with the next `>`, or up to the
next `<`, or the opening bracket alone. Given the characters behind the bracket. -/
def splitUnfinished (cs : List Char) : List Char × List Char :=
  match splitAfter '>' cs with
  | some (before, after) => ('<' :: before ++ ['>'], after)
  | none =>
    let before := cs.takeWhile (· != '<')
    if before.length < cs.length then ('<' :: before, cs.drop before.length) else (['<'], cs)

def rawTextTags : List String := ["script", "style"]

/-- What one step of the scanner finds: events, the rest, and the raw text element that it is in. -/
structure Step where
  events : List Event
  rest : List Char
  inside : Option String

def rawStep (name : String) (cs : List Char) : Step :=
  match splitRawText name.toList cs with
  | none => ⟨[], [], some name⟩
  | some (text, endTag) =>
    let tail := endTag.drop 2
    match plainEndTag? tail with
    | some (found, after) =>
      if Text.lower (String.ofList found) == name then
        ⟨textEvents text ++ [.finish name], after, none⟩
      else
        let (raw, after) := (splitAfter '>' tail).getD ([], [])
        ⟨textEvents text ++ textEvents ("</".toList ++ raw ++ ['>']), after, some name⟩
    | none =>
      let (raw, after) := (splitAfter '>' tail).getD ([], [])
      ⟨textEvents text ++ textEvents ("</".toList ++ raw ++ ['>']), after, some name⟩

def orUnfinished (cs : List Char) (found : Option (List Event × List Char)) : Except Fault Step :=
  match found with
  | some (events, rest) => .ok ⟨events, rest, none⟩
  | none =>
    let (raw, rest) := splitUnfinished cs
    (unescape raw).map fun text => ⟨textEvents text, rest, none⟩

def tagStep (cs : List Char) : Except Fault Step :=
  match cs with
  | [] => .ok ⟨[.text "<"], [], none⟩
  | '/' :: tail => orUnfinished cs (splitEndTag tail)
  | '!' :: '-' :: '-' :: tail => orUnfinished cs ((afterComment tail).map ([], ·))
  | '?' :: tail => orUnfinished cs ((splitAfter '>' tail).map fun found => ([], found.2))
  | '!' :: '[' :: tail => do
    let found ← afterSection tail
    orUnfinished cs (found.map ([], ·))
  | '!' :: tail =>
    let from_ := if (tail.take 7).map Char.toLower == "doctype".toList then tail.drop 7 else tail
    orUnfinished cs ((splitAfter '>' from_).map fun found => ([], found.2))
  | c :: rest =>
    if c.isAlpha then do
      match ← splitStartTag (c :: rest) with
      | .tag (.start tag attrs) after =>
        .ok ⟨[.start tag attrs], after, if rawTextTags.contains tag then some tag else none⟩
      | .tag event after => .ok ⟨[event], after, none⟩
      | .broken raw after => .ok ⟨textEvents raw, after, none⟩
      | .incomplete => orUnfinished cs none
    else .ok ⟨[.text "<"], c :: rest, none⟩

def step (inside : Option String) (cs : List Char) : Except Fault Step :=
  match inside, cs with
  | some name, cs => .ok (rawStep name cs)
  | none, '<' :: rest => tagStep rest
  | none, cs =>
    (unescape (cs.takeWhile (· != '<'))).map fun text =>
      ⟨textEvents text, cs.dropWhile (· != '<'), none⟩

def scanEvents : Nat → Option String → List Char → Except Fault (List Event)
  | 0, _, _ => .ok []
  | _, _, [] => .ok []
  | bound + 1, inside, cs => do
    let found ← step inside cs
    let events ← scanEvents bound found.inside found.rest
    return found.events ++ events

def events (source : String) : Except Fault (List Event) :=
  scanEvents source.length none source.toList

end TagScript.Markup

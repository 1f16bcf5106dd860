import TagScript.Markup.Forest

/-!
Selectors: a tag or a star, followed by identifiers and classes, as in `div#main.note`.
-/

namespace TagScript.Markup

/-- What a selector asks of an element. A star asks for no tag. -/
structure Selector where
  tag : Option String
  ids : List String
  classes : List String
  deriving DecidableEq, Repr

def isSelectorChar (c : Char) : Bool :=
  c == '-' || Text.isWordChar c

def Selector.parseParts : Nat → Selector → List Char → Option Selector
  | _, s, [] => some s
  | 0, _, _ => none
  | bound + 1, s, c :: rest =>
    let name := String.ofList (rest.takeWhile isSelectorChar)
    if name.isEmpty then none
    else if c == '#' then
      parseParts bound { s with ids := s.ids ++ [name] } (rest.dropWhile isSelectorChar)
    else if c == '.' then
      parseParts bound { s with classes := s.classes ++ [name] } (rest.dropWhile isSelectorChar)
    else none

def Selector.parse? (text : String) : Option Selector :=
  let cs := (Text.trim text).toList
  match cs with
  | [] => none
  | '*' :: rest => parseParts cs.length ⟨none, [], []⟩ rest
  | c :: rest =>
    if c.isAlpha then
      let name := String.ofList (c :: rest.takeWhile isSelectorChar)
      parseParts cs.length ⟨some (Text.lower name), [], []⟩ (rest.dropWhile isSelectorChar)
    else parseParts cs.length ⟨none, [], []⟩ cs

def Selector.accepts (s : Selector) (n : Node) : Bool :=
  let classes := Text.words ((n.attr? "class").getD "")
  n.isElement && s.tag.all (· == n.tag) && s.ids.all (n.attr? "id" == some ·) &&
    s.classes.all classes.contains

namespace Forest

def matchesSelector (f : Forest) (id : NodeId) (selector : String) : Bool :=
  (Selector.parse? selector).any fun s => s.accepts (f.node id)

def select (f : Forest) (id : NodeId) (selectors : String) : List NodeId :=
  let parts := (selectors.splitOn ",").filterMap Selector.parse?
  (f.descendants id).filter fun d => parts.any fun s => s.accepts (f.node d)

end Forest

end TagScript.Markup

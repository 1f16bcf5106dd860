import TagScript.Assoc
import TagScript.Markup.CharRef
import TagScript.Text.Case

/-!
Forests of markup nodes. Nodes have identities and are never thrown away; links go both ways, and
all changes are made of taking a node out and putting it in.
-/

namespace TagScript.Markup

abbrev NodeId := Nat

/-- What is to run when an event reaches a node: the children of `body`. -/
structure Listener where
  event : String
  body : NodeId
  deriving DecidableEq, Repr

/-- An element with its attributes and children, a text, or the root of a document. -/
structure Node where
  tag : String
  attrs : Assoc String
  children : Array NodeId
  parent : Option NodeId
  text : String
  listeners : Assoc (List Listener)
  deriving Inhabited

/-- All nodes made so far. -/
structure Forest where
  nodes : Array Node

def textTag : String := "#text"

def documentTag : String := "#document"

def voidTags : List String :=
  ["area", "base", "br", "col", "embed", "hr", "img", "input", "link", "meta", "source", "track", "wbr",
    "store", "man", "break", "continue", "debug", "calc", "output", "call", "return"]

namespace Node

/-- A node by itself. Names are kept in lower case; of names that then agree the first counts. -/
def make (tag : String) (attrs : List (String × Option String)) (text : String) : Node :=
  { tag := Text.lower tag
    attrs := attrs.foldl (fun kept (name, value) =>
      let name := Text.lower name
      if Assoc.has name kept then kept else kept ++ [(name, value.getD "")]) []
    children := #[]
    parent := none
    text := text
    listeners := [] }

def isText (n : Node) : Bool := n.tag == textTag

def isElement (n : Node) : Bool := !(n.tag == textTag || n.tag == documentTag)

def childList (n : Node) : List NodeId := n.children.toList

def attr? (n : Node) (name : String) : Option String :=
  Assoc.get? (Text.lower name) n.attrs

end Node

namespace Forest

def empty : Forest := ⟨#[]⟩

def node (f : Forest) (id : NodeId) : Node :=
  f.nodes.getD id default

def modify (f : Forest) (id : NodeId) (change : Node → Node) : Forest :=
  ⟨f.nodes.modify id change⟩

def add (f : Forest) (n : Node) : NodeId × Forest :=
  (f.nodes.size, ⟨f.nodes.push n⟩)

/-- Adds a node by itself with the given tag, which must not be empty, and attributes, of which a
repeated name takes the last value. -/
def newNode (f : Forest) (tag : String) (attrs : List (String × Option String)) (text : String) :
    Except Fault (NodeId × Forest) :=
  if tag.isEmpty then .error (.value "Empty tag passed to Node constructor")
  else .ok (f.add (Node.make tag (Assoc.ofList attrs) text))

def addText (f : Forest) (text : String) : NodeId × Forest :=
  f.add (Node.make textTag [] text)

def bound (f : Forest) : Nat := f.nodes.size + 1

def indexInParent (f : Forest) (id : NodeId) : Option Nat :=
  (f.node id).parent.bind fun p => (f.node p).children.findIdx? (· == id)

def remove (f : Forest) (id : NodeId) : Forest :=
  match (f.node id).parent with
  | none => f
  | some p =>
    let f :=
      match f.indexInParent id with
      | some i => f.modify p fun n => { n with children := n.children.eraseIdxIfInBounds i }
      | none => f
    f.modify id fun n => { n with parent := none }

def ancestors (f : Forest) : Nat → NodeId → List NodeId
  | 0, _ => []
  | steps + 1, id => id :: ((f.node id).parent.elim [] (f.ancestors steps))

def isWithin (f : Forest) (id outer : NodeId) : Bool :=
  (f.ancestors f.bound id).contains outer

def circular (f : Forest) (id child : NodeId) : Fault :=
  .value ("Adding " ++ (f.node child).tag ++ " as child of " ++ (f.node id).tag ++
    " would create circular reference")

def moveLast (f : Forest) (id child : NodeId) : Forest :=
  let f := f.remove child
  let f := f.modify child fun n => { n with parent := some id }
  f.modify id fun n => { n with children := n.children.push child }

def appendChild (f : Forest) (id child : NodeId) : Except Fault Forest :=
  if f.isWithin id child then .error (f.circular id child) else .ok (f.moveLast id child)

/-- The place in a list of the given length that an index means: a negative index counts from the
end, and what lies outside is moved to the nearer end. -/
def clampIndex (length : Nat) (index : Int) : Nat :=
  if index < 0 then (index + length).toNat else min index.toNat length

def insertOne (f : Forest) (id : NodeId) (index : Int) (child : NodeId) : Forest :=
  let f := f.remove child
  let f := f.modify child fun n => { n with parent := some id }
  f.modify id fun n =>
    { n with children := n.children.insertIdxIfInBounds (clampIndex n.children.size index) child }

def insertAt (f : Forest) (id : NodeId) (index : Int) : List NodeId → Forest
  | [] => f
  | child :: rest => (f.insertOne id index child).insertAt id (index + 1) rest

def removeAll (f : Forest) (ids : List NodeId) : Forest :=
  ids.foldl remove f

def putInPlace (f : Forest) (id : NodeId) (nodes : List NodeId) : Forest :=
  match (f.node id).parent with
  | none => f
  | some p =>
    let index : Int := (f.indexInParent id).elim (-1) Int.ofNat
    (f.remove id).insertAt p index nodes

def replaceWith (f : Forest) (id : NodeId) (nodes : List NodeId) : Forest :=
  let nodes := nodes.filter (· != id)
  (f.removeAll nodes).putInPlace id nodes

def orphan (f : Forest) (nodes : List NodeId) : Forest :=
  nodes.foldl (fun f child => f.modify child fun n => { n with parent := none }) f

def unwrap (f : Forest) (id : NodeId) : Forest :=
  let nodes := (f.node id).childList.filter (· != id)
  let f := (f.orphan nodes).modify id fun n => { n with children := n.children.filter (· == id) }
  f.putInPlace id nodes

def clearChildren (f : Forest) (id : NodeId) : Forest :=
  (f.orphan (f.node id).childList).modify id fun n => { n with children := #[] }

def setText (f : Forest) (id : NodeId) (text : String) : Forest :=
  if (f.node id).isText then f.modify id fun n => { n with text := text }
  else
    let f := f.clearChildren id
    if text.isEmpty then f
    else
      let (child, f) := f.addText text
      let f := f.modify child fun n => { n with parent := some id }
      f.modify id fun n => { n with children := #[child] }

def setAttr (f : Forest) (id : NodeId) (name value : String) : Forest :=
  f.modify id fun n => { n with attrs := Assoc.set (Text.lower name) value n.attrs }

def textBelow (f : Forest) : Nat → NodeId → String
  | 0, _ => ""
  | depth + 1, id =>
    let n := f.node id
    if n.isText then n.text else String.join (n.childList.map (f.textBelow depth))

def textContent (f : Forest) (id : NodeId) : String :=
  f.textBelow f.bound id

def cloneBelow : Nat → Option NodeId → Forest → NodeId → NodeId × Forest
  | 0, _, f, id => (id, f)
  | depth + 1, parent, f, id =>
    let n := f.node id
    let (copy, f) := f.add { n with children := #[], parent := parent, listeners := [] }
    let (children, f) := n.childList.foldl (fun (copies, f) child =>
      let (c, f) := cloneBelow depth (some copy) f child
      (copies.push c, f)) (#[], f)
    (copy, f.modify copy fun n => { n with children := children })

def clone (f : Forest) (id : NodeId) : NodeId × Forest :=
  cloneBelow f.bound none f id

def elementChildren (f : Forest) (id : NodeId) : List NodeId :=
  (f.node id).childList.filter fun child => !(f.node child).isText

def nextElementSibling (f : Forest) (id : NodeId) : Option NodeId :=
  (f.node id).parent.bind fun p =>
    let from_ := (f.indexInParent id).elim 0 (· + 1)
    ((f.node p).childList.drop from_).find? fun sibling => !(f.node sibling).isText

def siblingTagged (f : Forest) (id : NodeId) (tag : String) : Option NodeId :=
  (f.nextElementSibling id).filter fun sibling => (f.node sibling).tag == Text.lower tag

def below (f : Forest) : Nat → NodeId → List NodeId
  | 0, _ => []
  | depth + 1, id => (f.node id).childList.flatMap fun child => child :: f.below depth child

def descendants (f : Forest) (id : NodeId) : List NodeId :=
  f.below f.bound id

def findAll (f : Forest) (id : NodeId) (tag : String) : List NodeId :=
  (f.descendants id).filter fun d => (f.node d).tag == Text.lower tag

def root (f : Forest) (id : NodeId) : NodeId :=
  (f.ancestors f.bound id).getLastD id

def listen (f : Forest) (id : NodeId) (event : String) (listener : Listener) : Forest :=
  f.modify id fun n =>
    { n with
      listeners := Assoc.set event ((Assoc.get? event n.listeners).getD [] ++ [listener]) n.listeners }

def markupBelow (f : Forest) : Nat → NodeId → String
  | 0, _ => ""
  | depth + 1, id =>
    let n := f.node id
    if n.isText then escapeText n.text
    else
      let inner := String.join (n.childList.map (f.markupBelow depth))
      if n.tag == documentTag then inner
      else
        let attrs := String.join (n.attrs.map fun (name, value) =>
          " " ++ name ++ "=\"" ++ escapeValue value ++ "\"")
        if voidTags.contains n.tag && n.children.isEmpty then "<" ++ n.tag ++ attrs ++ ">"
        else "<" ++ n.tag ++ attrs ++ ">" ++ inner ++ "</" ++ n.tag ++ ">"

def markup (f : Forest) (id : NodeId) : String :=
  f.markupBelow f.bound id

def describe (f : Forest) (id : NodeId) : String :=
  let n := f.node id
  if n.isText then "<Text " ++ Text.quoted n.text ++ ">"
  else
    let attrs := n.attrs.map fun (name, value) => Text.quoted name ++ ": " ++ Text.quoted value
    "<Node " ++ n.tag ++ " attrs=\x7b" ++ Text.joined ", " attrs ++ "\x7d children=" ++
      Numeral.ofNat n.children.size ++ ">"

end Forest

end TagScript.Markup

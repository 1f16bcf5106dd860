import TagScript.Markup.Event
import TagScript.Markup.Forest

/-!
Trees from events. An end tag closes the innermost open element of its name with all that is open
inside it.
-/

namespace TagScript.Markup

/-- A tree under construction: its root and the open elements, innermost first. -/
structure Builder where
  forest : Forest
  root : NodeId
  openNodes : List NodeId

namespace Builder

def start (f : Forest) : Builder :=
  let (root, f) := f.add (Node.make documentTag [] "")
  ⟨f, root, []⟩

def current (b : Builder) : NodeId :=
  b.openNodes.headD b.root

def attach (b : Builder) (n : Node) : NodeId × Builder :=
  let parent := b.current
  let (id, f) := b.forest.add { n with parent := some parent }
  (id, { b with forest := f.modify parent fun p => { p with children := p.children.push id } })

/-- Attributes as they stand in a tag: a repeated name keeps its place and takes the last value. -/
def elementNode (tag : String) (attrs : List (String × Option String)) : Node :=
  Node.make tag (Assoc.ofList attrs) ""

def take (b : Builder) : Event → Builder
  | .start tag attrs =>
    let n := elementNode tag attrs
    let (id, b) := b.attach n
    if voidTags.contains n.tag then b else { b with openNodes := id :: b.openNodes }
  | .selfClosing tag attrs => (b.attach (elementNode tag attrs)).2
  | .finish tag =>
    match b.openNodes.findIdx? fun id => (b.forest.node id).tag == Text.lower tag with
    | some i => { b with openNodes := b.openNodes.drop (i + 1) }
    | none => b
  | .text data => if data.isEmpty then b else (b.attach (Node.make textTag [] data)).2

end Builder

def Forest.ofEvents (f : Forest) (events : List Event) : NodeId × Forest :=
  let b := events.foldl Builder.take (Builder.start f)
  (b.root, b.forest)

def Forest.parse (f : Forest) (source : String) : Except Fault (NodeId × Forest) :=
  (events source).map f.ofEvents

end TagScript.Markup

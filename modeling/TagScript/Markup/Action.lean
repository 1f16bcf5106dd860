import TagScript.Markup.Build

/-!
The operations on nodes as data.
-/

namespace TagScript.Markup

/-- An operation on nodes. -/
inductive Action where
  | make (tag : String) (attrs : List (String × Option String)) (text : String)
  | parse (source : String)
  | appendChild (id child : NodeId)
  | insertAt (id : NodeId) (index : Int) (nodes : List NodeId)
  | remove (id : NodeId)
  | replaceWith (id : NodeId) (nodes : List NodeId)
  | unwrap (id : NodeId)
  | clearChildren (id : NodeId)
  | setText (id : NodeId) (text : String)
  | clone (id : NodeId)

def Action.nodes : Action → List NodeId
  | .make _ _ _ => []
  | .parse _ => []
  | .appendChild id child => [id, child]
  | .insertAt id _ nodes => id :: nodes
  | .remove id => [id]
  | .replaceWith id nodes => id :: nodes
  | .unwrap id => [id]
  | .clearChildren id => [id]
  | .setText id _ => [id]
  | .clone id => [id]

namespace Forest

def deeper (f : Forest) : Nat → NodeId → Bool
  | 0, _ => true
  | depth + 1, id => (f.node id).childList.any (f.deeper depth)

def isEndless (f : Forest) (id : NodeId) : Bool :=
  f.deeper f.bound id

def settled (f : Forest) : Except Fault (Option NodeId × Forest) → Except Fault (Option NodeId) × Forest
  | .ok (id, g) => (.ok id, g)
  | .error fault => (.error fault, f)

def perform (f : Forest) : Action → Except Fault (Option NodeId) × Forest
  | .make tag attrs text => f.settled ((f.newNode tag attrs text).map fun (id, g) => (some id, g))
  | .parse source => f.settled ((f.parse source).map fun (id, g) => (some id, g))
  | .appendChild id child => f.settled ((f.appendChild id child).map fun g => (some child, g))
  | .insertAt id index nodes => (.ok none, f.insertAt id index nodes)
  | .remove id => (.ok none, f.remove id)
  | .replaceWith id nodes => (.ok none, f.replaceWith id nodes)
  | .unwrap id => (.ok none, f.unwrap id)
  | .clearChildren id => (.ok none, f.clearChildren id)
  | .setText id text => (.ok none, f.setText id text)
  | .clone id =>
    if f.isEndless id then (.error (.endless false), f)
    else (.ok (some (f.clone id).1), (f.clone id).2)

end Forest

end TagScript.Markup

import TagScript.Datum.Order
import TagScript.Format.Graph
import TagScript.Format.Yaml.Meaning
import TagScript.Format.Yaml.Node

/-!
Data from YAML documents. The collections are made out one after the other, those nearer to the top
first, with marks for the collections in them. Names that are equal as values are one name.
-/

namespace TagScript.Yaml

open TagScript.Graph (Part Contents)

/-- What has been made out so far, by marks: the entries of mappings whose merges have been carried
out, the default names that have become text, and what collections hold. -/
structure Draft where
  named : Assoc Node
  entries : List (Nat × List (Node × Node))
  texts : List Nat
  contents : List (Nat × Contents)

abbrev Draw (α : Type) := StateT Draft (Except String) α

def Node.kind : Node → Kind
  | .scalar kind _ _ => kind
  | .seq kind _ _ => kind
  | .map kind _ _ => kind
  | .enclosing _ => .null

def Node.mark : Node → Nat
  | .scalar _ _ mark => mark
  | .seq _ _ mark => mark
  | .map _ _ mark => mark
  | .enclosing _ => 0

/-! ### Values as they stand -/

def target (node : Node) : Draw Node := do
  match node with
  | .enclosing name => return (Assoc.get? name (← get).named).getD emptyNode
  | node => return node

def entriesOf (mark : Nat) (written : List (Node × Node)) : Draw (List (Node × Node)) := do
  return ((← get).entries.lookup mark).getD written

def setEntries (mark : Nat) (entries : List (Node × Node)) : Draw Unit :=
  modify fun d => { d with entries := (mark, entries) :: d.entries.filter (·.1 != mark) }

def kindOfNode (node : Node) : Draw Kind := do
  let node ← target node
  return if (← get).texts.contains node.mark then .str else node.kind

def scalarText : Nat → Node → Draw (String × Nat)
  | 0, _ => throw "expected a scalar node"
  | bound + 1, node => do
    match ← target node with
    | .scalar _ text mark => return (text, mark)
    | .map _ written mark =>
      match ← (← entriesOf mark written).findM? fun entry => return (← kindOfNode entry.1) == .value with
      | some (_, value) => scalarText bound value
      | none => throw "expected a scalar node, but found mapping"
    | _ => throw "expected a scalar node, but found sequence"

def partOf (bound : Nat) (node : Node) : Draw Part := do
  match ← target node with
  | .scalar _ text mark =>
    match ← kindOfNode node with
    | .seq | .map | .pairs | .set => throw "expected a collection, but found scalar"
    | kind => return .datum (← scalarDatum kind text mark)
  | .seq _ _ mark =>
    match ← kindOfNode node with
    | .seq | .pairs => return .whole mark
    | .map | .set => throw "expected a mapping node, but found sequence"
    | _ => throw "expected a scalar node, but found sequence"
  | .map _ _ mark =>
    match ← kindOfNode node with
    | .map | .set => return .whole mark
    | .seq | .pairs => throw "expected a sequence node, but found mapping"
    | .timestamp => throw "expected a text, but found a mapping"
    | kind =>
      let (text, mark) ← scalarText bound node
      return .datum (← scalarDatum kind text mark)
  | .enclosing _ => throw "expected the node content"

def nameOf (bound : Nat) (name : Node) : Draw Datum := do
  match ← partOf bound name with
  | .datum d => if d.canBeName then return d else throw "found unhashable key"
  | .whole _ => throw "found unhashable key"

/-! ### Merges -/

def splitMerge : List (Node × Node) → Draw (Option (List (Node × Node) × Node × List (Node × Node)))
  | [] => return none
  | (name, value) :: rest => do
    if (← kindOfNode name) == .merge then return some ([], value, rest)
    else return (← splitMerge rest).map fun (before, merged, behind) => ((name, value) :: before, merged, behind)

def settleNames (entries : List (Node × Node)) : Draw Unit := do
  for (name, _) in entries do
    if (← kindOfNode name) == .value then
      let mark := (← target name).mark
      modify fun d => { d with texts := mark :: d.texts }

/-- Carries out the merges of a mapping, behind entries that have been merged already. Of several
mappings the first wins, so its entries come last. The first argument bounds the number of merges:
each is taken out before what it names is looked at. -/
def merge : Nat → Nat → List (Node × Node) → List (Node × Node) → Draw Unit
  | 0, _, _, _ => pure ()
  | bound + 1, mark, written, merged => do
    let entries ← entriesOf mark written
    match ← splitMerge entries with
    | none =>
      settleNames entries
      setEntries mark (merged ++ entries)
    | some (before, value, behind) =>
      setEntries mark (before ++ behind)
      let more ←
        match ← target value with
        | .map _ written mark =>
          merge bound mark written []
          entriesOf mark written
        | .seq _ items _ =>
          let lists ← items.mapM fun item => do
            match ← target item with
            | .map _ written mark =>
              merge bound mark written []
              entriesOf mark written
            | _ => throw "expected a mapping for merging"
          pure lists.reverse.flatten
        | _ => throw "expected a mapping or list of mappings for merging, but found scalar"
      merge bound mark written (merged ++ more)

/-! ### Collections -/

def setContents (mark : Nat) (contents : Contents) : Draw Unit :=
  modify fun d => { d with contents := (mark, contents) :: d.contents }

def pairOf (node : Node) : Draw (Node × Node) := do
  match ← target node with
  | .map _ written mark =>
    match ← entriesOf mark written with
    | [entry] => return entry
    | _ => throw "expected a single mapping item"
  | _ => throw "expected a mapping of length 1"

/-- The set of some data, in the order of the document. -/
def setOf (members : List Datum) : Foreign where
  className := "set"
  text :=
    if members.isEmpty then "set()" else "\x7b" ++ Text.joined ", " (members.map Datum.diagnostic) ++ "\x7d"
  truthy := !members.isEmpty
  wholes := members.filterMap fun | .int i => some i | _ => none

def outline (bound : Nat) (node : Node) : Draw (List Node) := do
  match node with
  | .seq .seq items mark =>
    setContents mark (.items (← items.mapM (partOf bound)))
    return items
  | .seq .pairs items mark =>
    let pairs ← items.mapM pairOf
    setContents mark (.pairs (← pairs.mapM fun (name, value) => do
      return (← partOf bound name, ← partOf bound value)))
    return pairs.flatMap fun (name, value) => [name, value]
  | .map kind written mark =>
    if kind = .map ∨ kind = .set then
      merge bound mark written []
      let entries ← entriesOf mark written
      let parts ← entries.mapM fun (name, value) => do
        return (← nameOf bound name, ← partOf bound value)
      let parts := Datum.distinctEntries parts
      setContents mark (if kind = .map then .entries parts else .object (setOf (parts.map Prod.fst)))
      return entries.map Prod.snd
    else return []
  | _ => return []

def outlineAll (bound : Nat) : List Node → Draw (List Node)
  | [] => return []
  | node :: rest => do
    let node ← target node
    let inside ←
      if ((← get).contents.lookup node.mark).isSome then pure [] else outline bound node
    return inside ++ (← outlineAll bound rest)

def outlineLevels (bound : Nat) : Nat → List Node → Draw Unit
  | 0, _ => pure ()
  | _, [] => pure ()
  | levels + 1, nodes => do outlineLevels bound levels (← outlineAll bound nodes)

def read (text : String) : Except String Graph := do
  let document ← parse text
  match document.root with
  | none => return .ofDatum .none
  | some root =>
    let bound := text.length + 4
    let (part, draft) ← (do
      let part ← partOf bound root
      outlineLevels bound bound [root]
      return part : Draw Part).run ⟨document.named, [], [], []⟩
    return ⟨part, draft.contents⟩

end TagScript.Yaml

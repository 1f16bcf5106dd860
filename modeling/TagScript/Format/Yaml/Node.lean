import TagScript.Assoc
import TagScript.Format.Yaml.Resolve
import TagScript.Format.Yaml.Scan

/-!
The tree of a YAML document: scalars, sequences and mappings, each with its kind. Aliases are replaced by
what they name, except where they stand inside it.
-/

namespace TagScript.Yaml

/-- A value of a document with its kind, or an alias inside what it names. The mark of a value is
the number of tokens behind its first ones, by which values are told apart; one that is left out has
none. -/
inductive Node where
  | scalar (kind : Kind) (text : String) (mark : Nat)
  | seq (kind : Kind) (items : List Node) (mark : Nat)
  | map (kind : Kind) (entries : List (Node × Node)) (mark : Nat)
  | enclosing (name : String)

/-- A document: its value, if it has one, and what the anchors in it name. -/
structure Document where
  root : Option Node
  named : Assoc Node

/-- What parsing goes on with: the tokens that are left, what anchors name (nothing while the named
value is being read), and what handles of tags stand for. -/
structure Parser where
  tokens : List Token
  anchors : Assoc (Option Node)
  handles : Assoc String

def defaultHandles : Assoc String := [("!", "!"), ("!!", commonTag)]

abbrev Parse (α : Type) := StateT Parser (Except String) α

def peek : Parse Token := do
  return (← get).tokens.headD .streamEnd

def next : Parse Unit :=
  modify fun p => { p with tokens := p.tokens.drop 1 }

def emptyNode : Node := .scalar .null "" 0

/-- A node, which is left out before some tokens. -/
def nodeBefore (ends : List Token) (node : Parse Node) : Parse Node := do
  if ends.contains (← peek) then return emptyNode else node

/-- A name and, after its mark, a value. -/
def nodePair (name value : Parse Node) : Parse (Node × Node) := do
  let name ← name
  match ← peek with
  | .value =>
    next
    return (name, ← value)
  | _ => return (name, emptyNode)

def flowPair (last : Token) (node : Parse Node) : Parse (Node × Node) :=
  nodePair (nodeBefore [.value, .flowEntry, last] node) (nodeBefore [.flowEntry, last] node)

def tagKind (tag : Option (Option String × String)) : Parse (Option Kind) := do
  match tag with
  | none => return none
  | some (none, suffix) => return if suffix == "!" then none else some (Kind.ofTag suffix)
  | some (some handle, suffix) =>
    match Assoc.get? handle (← get).handles with
    | none => throw ("found undefined tag handle " ++ Text.quoted handle)
    | some expansion =>
      let full := expansion ++ suffix
      return if full == "!" then none else some (Kind.ofTag full)

def properties : Parse (Option String × Option (Option String × String)) := do
  match ← peek with
  | .anchor name =>
    next
    match ← peek with
    | .tag handle suffix =>
      next
      return (some name, some (handle, suffix))
    | _ => return (some name, none)
  | .tag handle suffix =>
    next
    match ← peek with
    | .anchor name =>
      next
      return (some name, some (handle, suffix))
    | _ => return (none, some (handle, suffix))
  | _ => return (none, none)

def nameNode (anchor : Option String) (node : Option Node) : Parse Unit :=
  match anchor with
  | none => pure ()
  | some name => modify fun p => { p with anchors := Assoc.set name node p.anchors }

def aliased (name : String) : Parse Node := do
  match Assoc.get? name (← get).anchors with
  | some (some node) => return node
  | some none => return .enclosing name
  | none => throw ("found undefined alias " ++ Text.quoted name)

def markHere : Parse Nat := do
  return (← get).tokens.length

def seqNode (kind : Option Kind) (items : Parse (List Node)) : Parse Node := do
  let mark ← markHere
  return .seq (kind.getD .seq) (← items) mark

def mapNode (kind : Option Kind) (entries : Parse (List (Node × Node))) : Parse Node := do
  let mark ← markHere
  return .map (kind.getD .map) (← entries) mark

/-- What stands between commas: a value by itself, or a name with a value. -/
inductive FlowPart where
  | one (node : Node)
  | pair (mark : Nat) (both : Node × Node)

def FlowPart.item : FlowPart → Node
  | .one node => node
  | .pair mark both => .map .map [both] mark

def FlowPart.entry : FlowPart → Node × Node
  | .one node => (node, emptyNode)
  | .pair _ both => both

def unfinished (last : Token) : String :=
  "expected ',' or " ++ if last == .flowSequenceEnd then "']'" else "closing brace"

mutual

/-- A value. In a block its parts may stand on lines of their own; where `dashes` is set, a sequence
may stand at the indentation of its name. The first argument bounds the nesting of calls. -/
def parseNode : Nat → Bool → Bool → Parse Node
  | 0, _, _ => throw "expected the node content"
  | bound + 1, block, dashes => do
    match ← peek with
    | .alias name =>
      next
      aliased name
    | _ =>
      let (anchor, tag) ← properties
      let kind ← tagKind tag
      if let some name := anchor then
        if Assoc.has name (← get).anchors then throw ("found duplicate anchor " ++ Text.quoted name)
      nameNode anchor none
      let node ←
        match ← peek, block, dashes with
        | .blockEntry, _, true => seqNode kind (parseItems bound false)
        | .scalar text plain, _, _ =>
          next
          let untagged := if plain || tag.isSome then kindOf text else .str
          pure (.scalar (kind.getD untagged) text (← markHere))
        | .flowSequenceStart, _, _ =>
          next
          seqNode kind do return (← parseFlow bound .flowSequenceEnd true).map FlowPart.item
        | .flowMappingStart, _, _ =>
          next
          mapNode kind do return (← parseFlow bound .flowMappingEnd true).map FlowPart.entry
        | .blockSequenceStart, true, _ =>
          next
          seqNode kind (parseItems bound true)
        | .blockMappingStart, true, _ =>
          next
          mapNode kind (parseEntries bound)
        | _, _, _ =>
          if anchor.isSome || tag.isSome then pure (.scalar (kind.getD .null) "" (← markHere))
          else throw "expected the node content"
      nameNode anchor (some node)
      return node

/-- The items of a block, which ends with its indentation or, at the indentation of a name, with the
dashes. -/
def parseItems : Nat → Bool → Parse (List Node)
  | 0, _ => throw "expected <block end>"
  | bound + 1, indented => do
    match ← peek with
    | .blockEntry =>
      next
      let ends := if indented then [.blockEntry, .blockEnd] else [.blockEntry, .key, .value, .blockEnd]
      let item ← nodeBefore ends (parseNode bound true false)
      return item :: (← parseItems bound indented)
    | t =>
      if indented then
        if t == .blockEnd then next else throw "expected <block end>"
      return []

def parseEntries : Nat → Parse (List (Node × Node))
  | 0 => throw "expected <block end>"
  | bound + 1 => do
    match ← peek with
    | .key =>
      next
      return (← nodePair (parsePart bound) (parsePart bound)) :: (← parseEntries bound)
    | .blockEnd =>
      next
      return []
    | _ => throw "expected <block end>"

def parsePart : Nat → Parse Node
  | 0 => throw "expected the node content"
  | bound + 1 => nodeBefore [.key, .value, .blockEnd] (parseNode bound true true)

def parseFlow : Nat → Token → Bool → Parse (List FlowPart)
  | 0, last, _ => throw (unfinished last)
  | bound + 1, last, first => do
    if (← peek) != last && !first then
      if (← peek) == .flowEntry then next else throw (unfinished last)
    if (← peek) == last then
      next
      return []
    let part ←
      if (← peek) == .key then
        next
        pure (.pair (← markHere) (← flowPair last (parseNode bound false false)))
      else pure (.one (← parseNode bound false false))
    return part :: (← parseFlow bound last false)

end

def parseDirectives : Nat → Bool → Assoc String → Parse Unit
  | 0, _, _ => pure ()
  | bound + 1, versioned, handles => do
    match ← peek with
    | .directive d =>
      next
      match d with
      | .version major =>
        if versioned then throw "found duplicate YAML directive"
        else if major != 1 then throw "found incompatible YAML document (version 1.* is required)"
        else parseDirectives bound true handles
      | .handle name expansion =>
        if Assoc.has name handles then throw ("duplicate tag handle " ++ Text.quoted name)
        else parseDirectives bound versioned (Assoc.set name expansion handles)
      | .other => parseDirectives bound versioned handles
    | _ =>
      let missing := defaultHandles.filter fun (name, _) => !Assoc.has name handles
      modify fun p => { p with handles := handles ++ missing }

def skipDocumentEnds : Nat → Parse Unit
  | 0 => pure ()
  | bound + 1 => do
    if (← peek) == .documentEnd then
      next
      skipDocumentEnds bound

def parseStream (bound : Nat) : Parse (Option Node) := do
  let node ←
    match ← peek with
    | .streamEnd => pure none
    | .directive _ | .documentStart =>
      parseDirectives bound false []
      if (← peek) != .documentStart then throw "expected '<document start>'"
      next
      match ← peek with
      | .directive _ | .documentStart | .documentEnd | .streamEnd => pure (some emptyNode)
      | _ => pure (some (← parseNode bound true false))
    | _ => pure (some (← parseNode bound true false))
  skipDocumentEnds bound
  if (← peek) == .streamEnd then return node else throw "expected a single document in the stream"

def parse (text : String) : Except String Document := do
  let ts ← tokens text
  let (root, p) ← (parseStream (2 * ts.length + 4)).run ⟨ts, [], defaultHandles⟩
  return ⟨root, p.anchors.filterMap fun (name, node) => node.map fun node => (name, node)⟩

end TagScript.Yaml

import TagScript.Format.Toml.Value

/-!
TOML documents: statements on lines, which put values at paths and open tables.
-/

namespace TagScript.Toml

/-- A document under construction. -/
structure Document where
  root : Assoc Datum
  /-- The table that plain statements write to. -/
  current : Path
  /-- Paths of tables that cannot be opened again. -/
  declared : List Path
  /-- Paths that will be declared when the next table is opened. -/
  pending : List Path
  /-- Paths of values that are closed for good, with all below them. -/
  closed : List Path

def Document.empty : Document := ⟨[], [], [], [], []⟩

def Document.isClosed (d : Document) (path : Path) : Bool :=
  d.closed.any (·.isPrefixOf path)

def Document.openTable (d : Document) (path : Path) (rest : List Char) : Except Trouble Document :=
  if d.declared.contains path || d.isClosed path then
    trouble ("Cannot declare " ++ Path.shown path ++ " twice") rest
  else
    match changeAt true .ok path d.root with
    | .error message => trouble message rest
    | .ok root => .ok { d with root := root, current := path, declared := path :: d.declared }

def addTable (name : String) (table : Assoc Datum) : Except String (Assoc Datum) :=
  match Assoc.get? name table with
  | none => .ok (table ++ [(name, .seq [.map []])])
  | some (.seq items) => .ok (Assoc.set name (.seq (items ++ [.map []])) table)
  | some _ => .error "Cannot overwrite a value"

def Document.openItem (d : Document) (path : Path) (rest : List Char) : Except Trouble Document :=
  if d.isClosed path then trouble ("Cannot mutate immutable namespace " ++ Path.shown path) rest
  else
    match changeAt true (addTable (path.getLastD "")) path.dropLast d.root with
    | .error message => trouble message rest
    | .ok root =>
      .ok { d with
        root := root
        current := path
        declared := path :: d.declared.filter fun p => !path.isPrefixOf p
        closed := d.closed.filter fun p => !path.isPrefixOf p }

def Document.through (d : Document) (path : Path) : List Path :=
  (List.range (path.length - 1)).map fun i => d.current ++ path.take (i + 1)

def Document.put (d : Document) (path : Path) (value : Datum) (rest : List Char) :
    Except Trouble Document :=
  let tables := d.through path
  match tables.find? d.declared.contains with
  | some table => trouble ("Cannot redefine namespace " ++ Path.shown table) rest
  | none =>
    let parent := d.current ++ path.dropLast
    if d.isClosed parent then
      trouble ("Cannot mutate immutable namespace " ++ Path.shown parent) rest
    else
      let name := path.getLastD ""
      let add (table : Assoc Datum) : Except String (Assoc Datum) :=
        if Assoc.has name table then .error "Cannot overwrite a value" else .ok (table ++ [(name, value)])
      match changeAt true add parent d.root with
      | .error message => trouble message rest
      | .ok root =>
        .ok { d with
          root := root
          pending := tables ++ d.pending
          closed := if isNest value then (d.current ++ path) :: d.closed else d.closed }

def Document.takeHeading (d : Document) (rest : List Char) : Except Trouble (Document × List Char) :=
  let d := { d with declared := d.pending ++ d.declared, pending := [] }
  match rest with
  | '[' :: rest => do
    let (path, rest) ← readPath (rest.length + 1) (skipSpace rest)
    let d ← d.openItem path rest
    match rest with
    | ']' :: ']' :: rest => .ok (d, rest)
    | _ => trouble "Expected ']]' at the end of an array declaration" rest
  | _ => do
    let (path, rest) ← readPath (rest.length + 1) (skipSpace rest)
    let d ← d.openTable path rest
    match rest with
    | ']' :: rest => .ok (d, rest)
    | _ => trouble "Expected ']' at the end of a table declaration" rest

def Document.takeStatement (d : Document) (cs : List Char) : Except Trouble (Document × List Char) :=
  match cs with
  | '[' :: rest => do
    let (d, rest) ← d.takeHeading rest
    return (d, skipSpace rest)
  | c :: _ =>
    if isBare c || c == '"' || c == '\'' then do
      let (path, value, rest) ← readPair (2 * cs.length + 2) cs
      let d ← d.put path value rest
      return (d, skipSpace rest)
    else if c == '#' then .ok (d, cs)
    else trouble "Invalid statement" cs
  | [] => .ok (d, cs)

def Document.takeAll : Nat → Document → List Char → Except Trouble Document
  | 0, d, _ => .ok d
  | bound + 1, d, cs =>
    match skipSpace cs with
    | [] => .ok d
    | '\n' :: rest => takeAll bound d rest
    | cs => do
      let (d, rest) ← d.takeStatement cs
      match ← skipComment rest with
      | [] => return d
      | '\n' :: rest => takeAll bound d rest
      | rest => trouble "Expected newline or end of document after a statement" rest

def joinBreaks : List Char → List Char
  | '\r' :: '\n' :: rest => '\n' :: joinBreaks rest
  | c :: rest => c :: joinBreaks rest
  | [] => []

def placeText (text : List Char) (left : Nat) : String :=
  if left = 0 then "end of document"
  else
    let before := text.take (text.length - left)
    let column := (before.reverse.takeWhile (· != '\n')).length + 1
    "line " ++ Numeral.ofNat (before.count '\n' + 1) ++ ", column " ++ Numeral.ofNat column

def read (text : String) : Except String Datum :=
  let cs := joinBreaks text.toList
  match Document.takeAll (cs.length + 1) Document.empty cs with
  | .ok d => .ok (.map d.root)
  | .error t => .error (t.message ++ " (at " ++ placeText cs t.left ++ ")")

end TagScript.Toml

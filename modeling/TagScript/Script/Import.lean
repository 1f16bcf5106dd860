import TagScript.Markup.Build
import TagScript.Script.Outside

/-!
Imports. A script is run as if it stood in the document, and markup also stays there. A module is
run once in a session of its own, and every import of it gets a copy of what it bound. An import
that fails is reported.
-/

namespace TagScript.Script

open Markup

abbrev RunDocument := NodeId → Run (Option String)

/-- What can be imported. -/
inductive ImportKind where
  | script
  | markup
  | module
  deriving DecidableEq, Repr

def ImportKind.names : Assoc ImportKind :=
  [("script", .script), ("html", .markup), ("module", .module)]

def parseSource (text : String) : Run NodeId := do
  let (root, forest) ← settle ((← get).forest.parse text)
  changeForest fun _ => forest
  return root

def resolved (locator : String) : Run String := do
  let m ← get
  return Locator.resolve m.world.files.places m.session.sourceDir locator

def fetch (locator : String) : Run (String × String) := do
  if Locator.isRemote locator then
    let options := { RequestOptions.standard with raw := true }
    let body ← sendRequest (Request.make "GET" locator options none)
    return (← textOf (← buildValue body), locator)
  else
    let path ← resolved locator
    return (← readFile path, path)

def rejectSignal : Option Signal → Run Unit
  | none => pure ()
  | some signal => raise (.straySignal signal)

def runFragment (walk : Walk) (fragment : NodeId) (location : String) : Run Unit := do
  let saved := (← get).session.sourceDir
  unless Locator.isRemote location do
    let directory := Locator.directory location
    unless directory.isEmpty do
      changeSession fun s => { s with sourceDir := some directory }
  let signal ← always (walk fragment) fun m => m.mapSession fun s => { s with sourceDir := saved }
  rejectSignal signal

def inNamespace (space name : String) : String :=
  space ++ "." ++ name

/-- One entry of a table under its name in a namespace. What had the name before has it again; an
entry that was there before stays. -/
def moved (before : Assoc FunctionId) (space : String) (table : Assoc FunctionId) (entry : String × FunctionId) :
    Assoc FunctionId :=
  let old := Assoc.get? entry.1 before
  if old = some entry.2 then table
  else
    let rest := Assoc.erase entry.1 table
    Assoc.set (inNamespace space entry.1) entry.2 (old.elim rest fun g => Assoc.set entry.1 g rest)

def namespaced (before after : Assoc FunctionId) (space : String) : Assoc FunctionId :=
  after.foldl (moved before space) after

def runFragmentIn (walk : Walk) (space : Option String) (fragment : NodeId) (location : String) :
    Run Unit := do
  match space with
  | none => runFragment walk fragment location
  | some space =>
    let before := (← get).session.functions
    let (_, scope) ← inScope (runFragment walk fragment location)
    bindName space (← newMapping ((← get).session.env.scope scope))
    changeSession fun s => { s with functions := namespaced before s.functions space }

def copyBindings (bindings : Bindings) : Run Bindings :=
  modifyGet fun m =>
    let (copies, store) := m.store.copyEntries bindings
    (copies, { m with store := store })

/-- Runs something in another session, and puts the session at hand back. The answer holds the other
session as it was left. -/
def inSession {α : Type} (session : Session) (body : Run α) : Run (α × Session) := do
  let saved := (← get).session
  changeSession fun _ => session
  always (do return (← body, (← get).session)) fun m => { m with session := saved }

def loaned (functions : Assoc FunctionId) (space : String) (table : Assoc FunctionId) : Assoc FunctionId :=
  functions.foldl (fun table (name, f) => Assoc.set (inNamespace space name) f table) table

/-- The key that a module is kept under. -/
def Machine.moduleKey (m : Machine) (src : String) : String :=
  if Locator.isRemote src then src else Locator.resolve m.world.files.places m.session.sourceDir src

/-- Runs the source of a module in a session of its own. The answer is that session as it was left.
-/
def executeModule (run : RunDocument) (key src : String) : Run Session := do
  let session := (← get).session
  if session.loading.contains key then raise (.importFailure ("Circular import of " ++ src))
  let (text, location) ← fetch src
  let directory := if Locator.isRemote location then none else some (Locator.directory location)
  let child := Session.new session.host directory (key :: session.loading)
  let (error, child) ← inSession child do run (← parseSource text)
  match error with
  | some message => raise (.importFailure message)
  | none => return child

def keepModule (key : String) (child : Session) : Run Module := do
  let module : Module := ⟨← copyBindings child.env.globals, child.functions⟩
  modify fun m => { m with modules := Assoc.set key module m.modules }
  return module

def moduleOf (run : RunDocument) (key src : String) : Run Module := do
  match Assoc.get? key (← get).modules with
  | some module => return module
  | none => keepModule key (← executeModule run key src)

def bindModule (space : String) (module : Module) : Run Unit := do
  bindName space (← newMapping (← copyBindings module.bindings))
  changeSession fun s => { s with functions := loaned module.functions space s.functions }

def importModule (run : RunDocument) (src space : String) : Run Unit := do
  moduleOf run ((← get).moduleKey src) src >>= bindModule space

def importSourceBy (importing : String → String → Run Unit) (walk : Walk) (node : Node) : Run (Option NodeId) := do
  match given? node "src" with
  | none => raise (.importFailure "<import> requires a 'src' attribute")
  | some src =>
    let kind := setting node "type" "script"
    let space := given? node "namespace"
    match Assoc.get? kind ImportKind.names with
    | none => raise (.importFailure ("Unknown import type '" ++ kind ++ "'"))
    | some .module =>
      importing src (space.getD "imported")
      return none
    | some kind =>
      let (text, location) ← fetch src
      let fragment ← parseSource text
      runFragmentIn walk space fragment location
      return if kind = .markup then some fragment else none

def importSource (walk : Walk) (run : RunDocument) (node : Node) : Run (Option NodeId) :=
  importSourceBy (importModule run) walk node

def importReport (src : Option String) (fault : Fault) : String :=
  let cause :=
    match fault with
    | .importFailure message => message
    | fault => fault.kind ++ ": " ++ fault.message
  "Import failed from " ++ src.getD "None" ++ ": " ++ cause

def runImportBy (importing : Node → Run (Option NodeId)) (id : NodeId) : Run Unit := do
  let node ← nodeOf id
  let outcome : Except Raised (Option NodeId) ← recover
    (do return .ok (← importing node)) fun raised => return .error raised
  match outcome with
  | .ok (some fragment) =>
    let children := (← nodeOf fragment).childList
    changeForest (·.replaceWith id children)
  | .ok none => removeNode id
  | .error raised =>
    emit .failure (importReport (node.attr? "src") raised.fault)
    removeNode id

def runImport (walk : Walk) (run : RunDocument) (id : NodeId) : Run Unit :=
  runImportBy (importSource walk run) id

end TagScript.Script

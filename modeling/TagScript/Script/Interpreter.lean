import TagScript.Script.Control
import TagScript.Script.Event
import TagScript.Script.Function

/-!
The walk through a document. Each element is run by what its tag does. The depth to which elements
lie within each other is limited, which is what makes every walk end.
-/

namespace TagScript.Script

open Markup

def recordWith (host : HostId) (value : Value) : Run Unit :=
  modify fun m =>
    { m with hosts := m.hosts.modify host fun h => { h with recorded := value :: h.recorded } }

def runHostAction (host : HostId) (action : HostAction) (id : NodeId) : Run (Option Signal) := do
  let node ← nodeOf id
  match action with
  | .capitalise =>
    showText id (Text.upper (← askForest (·.textContent id)))
    return none
  | .recordVariable =>
    let env := (← get).session.env
    recordWith host (((node.attr? "name").bind env.get?).getD .none)
    removeNode id
    return none
  | .fail otherwise => raise (.value ((node.attr? "message").getD otherwise))
  | .breakOut => return some .breakOut
  | .recordAttribute name shown =>
    recordWith host ((node.attr? name).elim .none .str)
    showText id shown
    return none

def withoutSignal (body : Run Unit) : Run (Option Signal) := do
  body
  return none

def runBuiltin (walk : Walk) (run : RunDocument) (tag : Builtin) (id : NodeId) : Run (Option Signal) :=
  match tag with
  | .store => withoutSignal (runStore id)
  | .man => withoutSignal (runMan id)
  | .calc => withoutSignal (runCalc id)
  | .output => withoutSignal (runOutput id)
  | .condition => runCondition walk id
  | .countedLoop => withoutSignal (runCountedLoop walk id)
  | .loop => withoutSignal (runLoop walk id)
  | .function => withoutSignal (runFunction id)
  | .call => runCall walk id
  | .scope => runScope walk id
  | .attempt => runAttempt walk id
  | .signal signal => return some signal
  | .input => withoutSignal (runInput id)
  | .debug => withoutSignal (runDebug id)
  | .request => withoutSignal (runRequest id)
  | .codec format => withoutSignal (runCodec format id)
  | .load => withoutSignal (runImport walk run id)
  | .listen => withoutSignal (runListen id)

/-- What is done for an element that means something by itself, given the walk through its children
and the way in which modules are run. -/
abbrev Deed := Walk → RunDocument → Builtin → NodeId → Run (Option Signal)

def elementBy (walk : Walk) (builtin : Builtin → NodeId → Run (Option Signal)) (tag : String)
    (id : NodeId) : Run (Option Signal) := do
  match Assoc.get? tag (← get).session.handlers with
  | none => walk id
  | some (.builtin b) => builtin b id
  | some (.host host action) => runHostAction host action id

def Machine.enter (m : Machine) (tag : String) : Machine :=
  m.mapSession fun s => { s with callStack := tag :: s.callStack }

def Machine.leave (m : Machine) : Machine :=
  m.mapSession fun s => { s with callStack := s.callStack.drop 1 }

/-- A fault that has not left an element yet is given the trail of the elements being run. -/
def blamed (tag : String) (raised : Raised) : Run Raised := do
  match raised.trail with
  | _ :: _ => return raised
  | [] =>
    let trail := (← get).session.trail
    diagnose ["Error processing node:", tag, raised.fault.diagnostic, "Stack:", trailText trail]
    return { raised with trail := trail }

/-- Runs something as part of an element. -/
def within (tag : String) (body : Run (Option Signal)) : Run (Option Signal) := do
  modify (·.enter tag)
  always (recover body fun raised => do throw (← blamed tag raised)) Machine.leave

def visitAll (visit : NodeId → Run (Option Signal)) (parent : NodeId) : List NodeId → Run (Option Signal)
  | [] => return none
  | child :: rest => do
    if (← nodeOf child).parent = some parent then
      match ← visit child with
      | some signal => return some signal
      | none => visitAll visit parent rest
    else visitAll visit parent rest

def visitChildren (visit : NodeId → Run (Option Signal)) (id : NodeId) : Run (Option Signal) := do
  visitAll visit id (← nodeOf id).childList

/-- Runs a node within which elements may lie so many deep, by the given deed. -/
def visitBy (deed : Deed) (run : RunDocument) : Nat → NodeId → Run (Option Signal)
  | 0, id => do
    let node ← nodeOf id
    if node.isElement then within node.tag (raise (.recursionLimit maxDepth node.tag)) else return none
  | depth + 1, id => do
    let node ← nodeOf id
    if node.isElement then
      let walk := visitChildren (visitBy deed run depth)
      within node.tag (elementBy walk (deed walk run) node.tag id)
    else return none

def visitNode : RunDocument → Nat → NodeId → Run (Option Signal) :=
  visitBy runBuiltin

def bindHostTags (hosts : Array Host) (s : Session) : Session :=
  let cleared := s.hostTags.foldl (fun table tag => Assoc.erase tag table) s.handlers
  match s.host with
  | none => { s with handlers := cleared, hostTags := [] }
  | some id =>
    let actions := (hosts.getD id default).actions
    { s with
      handlers := actions.foldl (fun table (tag, action) => Assoc.set tag (.host id action) table) cleared
      hostTags := actions.map Prod.fst }

def runDocumentBy (walk : Walk) (document : NodeId) : Run (Option String) := do
  modify fun m =>
    m.mapSession fun s =>
      { bindHostTags m.hosts { s with effects := [], callStack := [] } with document := some document }
  recover
    (do
      rejectSignal (← walk document)
      return none)
    fun raised => do
      emit .failure raised.report
      diagnose [raised.report]
      return some raised.report

/-- Runs a document in the session at hand by the given deed; modules may import each other so many
deep. -/
def documentBy (deed : Deed) : Nat → RunDocument
  | 0, _ => raise .exhausted
  | nesting + 1, document => runDocumentBy (visitChildren (visitBy deed (documentBy deed nesting) maxDepth)) document

def runDocument : Nat → RunDocument :=
  documentBy runBuiltin

def moduleNesting : Nat := Binary64.twoTo 62

def walkBy (deed : Deed) : Walk :=
  visitChildren (visitBy deed (documentBy deed moduleNesting) maxDepth)

def walkChildren : Walk :=
  walkBy runBuiltin

/-- What came of running a source: the report of a failure, and the document as it was left. -/
structure Report where
  error : Option String
  document : NodeId

def runSource (source : String) : Run Report := do
  let document ← parseSource source
  let error ← runDocument (moduleNesting + 1) document
  return ⟨error, document⟩

def runPart (source : String) : Run (Option Signal × NodeId) := do
  let root ← parseSource source
  return (← walkChildren root, root)

def dispatchTo (selector event : String) (detail : Datum) : Run Nat := do
  match (← get).session.document with
  | none => return 0
  | some document => dispatch walkChildren event detail (← askForest (·.select document selector))

def dispatchAt (target : NodeId) (event : String) (detail : Datum) : Run Nat :=
  dispatch walkChildren event detail [target]

def changeHost (actions : Option (List (String × HostAction))) : Run Unit := do
  match actions with
  | none => changeSession fun s => { s with host := none }
  | some actions =>
    modify fun m =>
      { m with
        hosts := m.hosts.push ⟨actions, []⟩
        session := { m.session with host := some m.hosts.size } }

end TagScript.Script

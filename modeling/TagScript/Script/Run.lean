import TagScript.Expr.Evaluate
import TagScript.Script.Machine
import TagScript.Typing

/-!
What runs on the machine. A run may fail; what it did to the state until then stays.
-/

namespace TagScript.Script

open Markup

/-- A fault on its way out, with the tags of the elements that were being run when it came up,
outermost first. There are none as long as it has not left an element. -/
structure Raised where
  fault : Fault
  trail : List String
  deriving DecidableEq, Repr

abbrev Run := ExceptT Raised (StateM Machine)

def raise {α : Type} (fault : Fault) : Run α :=
  throw ⟨fault, []⟩

def settle {α : Type} : Except Fault α → Run α
  | .ok a => pure a
  | .error fault => raise fault

def always {α : Type} (body : Run α) (after : Machine → Machine) : Run α :=
  fun m =>
    let (result, m) := body m
    (result, after m)

def recover {α : Type} (body : Run α) (handle : Raised → Run α) : Run α :=
  fun m =>
    match body m with
    | (.ok a, m) => (.ok a, m)
    | (.error raised, m) => handle raised m

def changeSession (f : Session → Session) : Run Unit :=
  modify fun m => m.mapSession f

def changeWorld (f : World → World) : Run Unit :=
  modify fun m => { m with world := f m.world }

def changeForest (f : Forest → Forest) : Run Unit :=
  modify fun m => { m with forest := f m.forest }

def askForest {α : Type} (f : Forest → α) : Run α := do
  return f (← get).forest

def nodeOf (id : NodeId) : Run Node :=
  askForest (·.node id)

def cloneTree (id : NodeId) : Run NodeId :=
  modifyGet fun m =>
    let (copy, forest) := m.forest.clone id
    (copy, { m with forest := forest })

def buildValue (d : Datum) : Run Value :=
  modifyGet fun m =>
    let (value, store) := m.store.build d
    (value, { m with store := store })

def newMapping (entries : Assoc Value) : Run Value :=
  modifyGet fun m =>
    let (value, store) := m.store.newMap entries
    (value, { m with store := store })

def datumOf (v : Value) : Run Datum := do
  settle ((← get).store.datum v)

def wireOf (v : Value) : Run Datum := do
  settle ((← get).store.wire v)

def textOf (v : Value) : Run String := do
  settle ((← get).store.text v)

def isTrue (v : Value) : Run Bool := do
  return (← get).store.truthy v

def bindName (name : String) (value : Value) : Run Unit :=
  modify fun m => m.mapEnv fun env => env.bind name value

def inScope {α : Type} (body : Run α) : Run (α × ScopeId) := do
  let id := (← get).session.env.scopes.size
  modify fun m => m.mapEnv fun env => (env.push []).2
  let result ← always body fun m => m.mapEnv fun env => env.pop?.elim env Prod.snd
  return (result, id)

def emit (topic : Topic) (message : String) : Run Unit :=
  changeSession fun s => { s with effects := ⟨topic, message⟩ :: s.effects }

def trailText (tags : List String) : String :=
  Text.joined " > " tags

def writeDiagnostic (text : String) : Run Unit :=
  changeWorld (·.diagnose text)

def readFile (path : String) : Run String := do
  settle (← modifyGet fun m =>
    let (result, world) := m.world.readFile path
    (result, { m with world := world }))

def diagnose (parts : List String) : Run Unit := do
  if (← get).settings.debugging then
    writeDiagnostic (Text.joined " " ("[DBG]" :: parts) ++ "\n")

/-- What a report says of a fault: its kind and message, for faults beneath the language also that
they are, and the elements that were being run. -/
def Raised.report (r : Raised) : String :=
  let what :=
    match r.fault with
    | .endless _ => "RecursionLimitExceeded: " ++ r.fault.message
    | f => (if f.isScript then "" else "InternalError: ") ++ f.kind ++ ": " ++ f.message
  match r.trail with
  | [] => what
  | trail => what ++ "\nHScript stacktrace: " ++ trailText trail

def Raised.record (r : Raised) : Value :=
  .error ⟨r.fault.kind, r.fault.message⟩

def compute (f : Environment → Store → Except Fault (Value × Store)) : Run Value := do
  let m ← get
  let (value, store) ← settle (f m.session.env m.store)
  set { m with store := store }
  return value

def evaluate (text : Option String) : Run Value :=
  compute fun env store => Expr.evaluate? env store text

def evaluateList (text : Option String) : Run Value :=
  compute fun env store => Expr.evaluateList env store text

def checkDeclared (value : Value) (declared : Option String) (what : String) : Run Unit :=
  settle (checkType value declared what)

def required (node : Node) (name : String) : Run String :=
  match node.attr? name with
  | none => raise (.missingAttribute node.tag name)
  | some value => if Text.allBlank value then raise (.missingAttribute node.tag name) else pure value

def given? (node : Node) (name : String) : Option String :=
  (node.attr? name).filter (!·.isEmpty)

/-- A setting: the value of an attribute, or another one if it is missing or empty, without blanks
at its ends and in small letters. -/
def setting (node : Node) (name otherwise : String) : String :=
  Text.lower (Text.trim ((given? node name).getD otherwise))

def spread? (store : Store) : Value → Option (List Value)
  | .seq r => some (store.items r)
  | .str s => some (s.toList.map fun c => .str c.toString)
  | .map r => some ((store.entries r).map fun entry => .str entry.1)
  | _ => none

abbrev Walk := NodeId → Run (Option Signal)

end TagScript.Script

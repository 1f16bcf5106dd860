import TagScript.Environment
import TagScript.Markup.Forest
import TagScript.Script.World

/-!
The machine that runs documents.
-/

namespace TagScript.Script

open Markup

def maxDepth : Nat := 50

def defaultLoopLimit : Nat := 100000

/-- What holds for all sessions: how often a loop may go round, if there is a limit, and whether
diagnostics are written. -/
structure Settings where
  loopLimit : Option Nat
  debugging : Bool
  deriving DecidableEq, Repr

def loopLimitOf (text : Option String) : Option Nat :=
  match text with
  | none => some defaultLoopLimit
  | some text =>
    match Reading.int? text with
    | none => some defaultLoopLimit
    | some n => if 0 < n then some n.toNat else none

abbrev FunctionId := Nat

/-- A function: its parameters, the element whose children are its body, and what was bound when it
was defined. -/
structure Function where
  name : String
  params : List String
  body : NodeId
  closure : Bindings
  deriving Inhabited

/-- Who a message is for. -/
inductive Topic where
  | debug
  | failure
  deriving DecidableEq, Repr

def Topic.word : Topic → String
  | .debug => "debug"
  | .failure => "stderr"

/-- A message of a run to whoever started it. -/
structure Effect where
  topic : Topic
  message : String
  deriving DecidableEq, Repr

/-- The elements that mean something by themselves. -/
inductive Builtin where
  | store
  | man
  | calc
  | output
  | condition
  | countedLoop
  | loop
  | function
  | call
  | scope
  | attempt
  | signal (signal : Signal)
  | input
  | debug
  | request
  | codec (format : Format)
  | load
  | listen
  deriving DecidableEq, Repr

def builtins : Assoc Builtin :=
  [("store", .store), ("man", .man), ("calc", .calc), ("output", .output), ("if", .condition),
    ("for", .countedLoop), ("while", .loop), ("func", .function), ("call", .call), ("scope", .scope),
    ("try", .attempt), ("break", .signal .breakOut), ("continue", .signal .goOn),
    ("csv", .codec .csv), ("debug", .debug), ("http", .request), ("import", .load),
    ("ini", .codec .ini), ("input", .input), ("json", .codec .json), ("on", .listen),
    ("toml", .codec .toml), ("xml", .codec .xml), ("yaml", .codec .yaml), ("yml", .codec .yaml)]

abbrev HostId := Nat

/-- What an element of the host does: put its text in capitals, record the value of the variable
that it names and go away, fail with its message, end the loop around it, or record an attribute and
show a text. -/
inductive HostAction where
  | capitalise
  | recordVariable
  | fail (otherwise : String)
  | breakOut
  | recordAttribute (name shown : String)
  deriving DecidableEq, Repr

/-- A host: the elements that it adds, and what they recorded, last first. -/
structure Host where
  actions : List (String × HostAction)
  recorded : List Value
  deriving Inhabited

/-- What an element does. -/
inductive Handler where
  | builtin (tag : Builtin)
  | host (id : HostId) (action : HostAction)
  deriving DecidableEq, Repr

def builtinHandlers : Assoc Handler :=
  builtins.map fun (tag, b) => (tag, .builtin b)

/-- A module that has been run: what it bound, and the functions it defined. -/
structure Module where
  bindings : Bindings
  functions : Assoc FunctionId

/-- What belongs to one session: its variables and functions, the tags of the elements being run
with the innermost first, the messages with the last first, and where it stands. -/
structure Session where
  env : Environment
  functions : Assoc FunctionId
  callStack : List String
  effects : List Effect
  document : Option NodeId
  handlers : Assoc Handler
  hostTags : List String
  host : Option HostId
  sourceDir : Option String
  loading : List String

def Session.new (host : Option HostId) (sourceDir : Option String) (loading : List String) : Session :=
  { env := .empty
    functions := []
    callStack := []
    effects := []
    document := none
    handlers := builtinHandlers
    hostTags := []
    host := host
    sourceDir := sourceDir
    loading := loading }

/-- The state of the machine. -/
structure Machine where
  settings : Settings
  store : Store
  forest : Forest
  functions : Array Function
  modules : Assoc Module
  hosts : Array Host
  world : World
  session : Session

def Machine.new (settings : Settings) (world : World) (sourceDir : Option String) : Machine :=
  { settings := settings
    store := .empty
    forest := .empty
    functions := #[]
    modules := []
    hosts := #[]
    world := world
    session := .new none sourceDir [] }

def Machine.mapSession (m : Machine) (f : Session → Session) : Machine :=
  { m with session := f m.session }

def Machine.mapEnv (m : Machine) (f : Environment → Environment) : Machine :=
  m.mapSession fun s => { s with env := f s.env }

def Session.trail (s : Session) : List String := s.callStack.reverse

end TagScript.Script

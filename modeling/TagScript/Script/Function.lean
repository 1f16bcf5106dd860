import TagScript.Script.Variables

/-!
Functions. A definition keeps a copy of the element and of all that is bound; a call runs a copy of the
body in a frame of its own that starts from what was bound then.
-/

namespace TagScript.Script

open Markup

def parameters (text : String) : List String :=
  ((text.toList.splitOn ',').map fun cs => Text.trim (String.ofList cs)).filter (!·.isEmpty)

def takeSnapshot : Run Bindings :=
  modifyGet fun m =>
    let (bindings, store) := m.session.env.snapshot m.store
    (bindings, { m with store := store })

def defineFunction (name : String) (f : Function) : Run Unit :=
  modify fun m =>
    { m with
      functions := m.functions.push f
      session := { m.session with functions := Assoc.set name m.functions.size m.session.functions } }

def runFunction (id : NodeId) : Run Unit := do
  let node ← nodeOf id
  let name ← required node "name"
  let body ← cloneTree id
  let closure ← takeSnapshot
  defineFunction name ⟨name, parameters ((node.attr? "params").getD ""), body, closure⟩
  removeNode id

def functionNamed (name : String) : Run Function := do
  let m ← get
  match Assoc.get? name m.session.functions with
  | none => raise (.functionNotFound name)
  | some id => return m.functions.getD id default

def arguments (text : Option String) : Run (List Value) := do
  let value ← evaluateList text
  match spread? (← get).store value with
  | some args => return args
  | none => raise (.wrongType ("object of type '" ++ value.leaf.qualifiedName ++ "' has no len()"))

def inFrame {α : Type} (closure : Bindings) (body : Run α) : Run α := do
  let stack := (← get).session.env.stack
  modify fun m =>
    let (_, env, store) := m.session.env.enterFrame m.store closure
    { m with store := store, session := { m.session with env := env } }
  always body fun m => m.mapEnv fun env => { env with stack := stack }

def returnValue (node : Node) : Run Value :=
  match given? node "expression" with
  | some expression => evaluate expression
  | none => pure .none

def returned (result : Value) : List NodeId → Run Value
  | [] => return result
  | id :: rest => do
    let value ← returnValue (← nodeOf id)
    removeNode id
    returned value rest

def frameBody (walk : Walk) (f : Function) (args : List Value) : Run (NodeId × Except Signal Value) := do
  (f.params.zip args).forM fun (param, arg) => bindName param arg
  let body ← cloneTree f.body
  match ← walk body with
  | some signal => return (body, .error signal)
  | none => return (body, .ok (← returned .none (← askForest (·.findAll body "return"))))

def applyFunction (walk : Walk) (f : Function) (args : List Value) : Run (NodeId × Except Signal Value) :=
  inFrame f.closure (frameBody walk f args)

/-- What a call does with the answer of the body: a signal goes on; a value goes into a variable, or
what the body shows stands in the place of the call. -/
def concludeCall (id : NodeId) (node : Node) : NodeId × Except Signal Value → Run (Option Signal)
  | (_, .error signal) => return some signal
  | (body, .ok value) => do
    match given? node "var" with
    | some var =>
      bindName var value
      removeNode id
    | none =>
      let children := (← nodeOf body).childList
      changeForest (·.replaceWith id children)
    return none

def runCallBy (apply : Function → List Value → Run (NodeId × Except Signal Value)) (id : NodeId) :
    Run (Option Signal) := do
  let node ← nodeOf id
  let name ← required node "func"
  let f ← functionNamed name
  let args ← arguments (node.attr? "args")
  if args.length ≠ f.params.length then raise (.argumentCount name f.params.length args.length)
  else apply f args >>= concludeCall id node

def runCall (walk : Walk) (id : NodeId) : Run (Option Signal) :=
  runCallBy (applyFunction walk) id

end TagScript.Script

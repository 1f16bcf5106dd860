import TagScript.Value

/-!
The environment: a stack of scopes, each binding names to values. Scopes have identities, so that a
stack can be set aside and put back.
-/

namespace TagScript

abbrev ScopeId := Nat

abbrev Bindings := Assoc Value

/-- All scopes made so far, which of them is the global one, and the stack in use, innermost first.
-/
structure Environment where
  scopes : Array Bindings
  globalId : ScopeId
  stack : List ScopeId

namespace Environment

def empty : Environment := ⟨#[[]], 0, [0]⟩

def scope (env : Environment) (id : ScopeId) : Bindings :=
  env.scopes.getD id []

def globals (env : Environment) : Bindings :=
  env.scope env.globalId

def currentId (env : Environment) : ScopeId :=
  env.stack.headD env.globalId

def current (env : Environment) : Bindings :=
  env.scope env.currentId

def depth (env : Environment) : Nat :=
  env.stack.length

def owner? (env : Environment) (name : String) : Option ScopeId :=
  env.stack.find? fun id => Assoc.has name (env.scope id)

def get? (env : Environment) (name : String) : Option Value :=
  (env.owner? name).bind fun id => Assoc.get? name (env.scope id)

def has (env : Environment) (name : String) : Bool :=
  (env.owner? name).isSome

def bindIn (env : Environment) (id : ScopeId) (name : String) (value : Value) : Environment :=
  { env with scopes := env.scopes.modify id (Assoc.set name value) }

def bind (env : Environment) (name : String) (value : Value) : Environment :=
  env.bindIn env.currentId name value

def bindGlobal (env : Environment) (name : String) (value : Value) : Environment :=
  env.bindIn env.globalId name value

def newScope (env : Environment) (bindings : Bindings) : ScopeId × Environment :=
  (env.scopes.size, { env with scopes := env.scopes.push bindings })

def push (env : Environment) (bindings : Bindings) : ScopeId × Environment :=
  let (id, env) := env.newScope bindings
  (id, { env with stack := id :: env.stack })

def pop? (env : Environment) : Option (ScopeId × Environment) :=
  match env.stack with
  | id :: below :: rest => some (id, { env with stack := below :: rest })
  | _ => none

def visible (env : Environment) : Bindings :=
  env.stack.reverse.foldl (fun merged id => Assoc.merge merged (env.scope id)) []

def snapshot (env : Environment) (store : Store) : Bindings × Store :=
  store.copyEntries env.visible

def enterFrame (env : Environment) (store : Store) (closure : Bindings) :
    ScopeId × Environment × Store :=
  let (bindings, store) := store.copyEntries closure
  let (id, env) := env.newScope bindings
  (id, { env with stack := [id] }, store)

end Environment

end TagScript

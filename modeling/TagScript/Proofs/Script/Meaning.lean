import TagScript.Proofs.Markup.Hedge
import TagScript.Script.Interpreter

/-!
# What documents mean

An evaluator that changes no trees. A text stands for itself, and each element for the trees that it
shows; it may also settle what stands for the element behind it, as a condition does for its
alternative. Signals and faults end an evaluation.

The evaluator knows the elements of the core; any other element is walked through. Depth and rounds
are limited as they are for the machine.
-/

namespace TagScript.Script

open Markup

/-- A function whose body is a row of trees. -/
structure Definition where
  params : List String
  body : Trees
  closure : Bindings
  deriving Inhabited

/-- The state of a machine that has no nodes, and the functions. -/
structure Scene where
  machine : Machine
  definitions : Array Definition

abbrev Act := ExceptT Signal (ExceptT Raised (StateM Scene))

/-- The trees that stand for an element, and those that stand for the next element if it is settled
too. -/
structure Shown where
  here : Trees
  next : Option Trees

def Shown.nothing : Shown := ⟨.nil, none⟩

namespace Meaning

variable {α : Type}

def play (c : Run α) : Act α := fun s =>
  let (result, machine) := c s.machine
  (result.map .ok, { s with machine := machine })

/-- Evaluates something, and then, whether it came to an end or not, changes the machine. -/
def always (body : Act α) (after : Machine → Machine) : Act α := fun s =>
  let (result, s) := body s
  (result, { s with machine := after s.machine })

def recover (body : Act α) (handle : Raised → Act α) : Act α := fun s =>
  match body s with
  | (.error raised, s) => handle raised s
  | (result, s) => (result, s)

def signalled (body : Act α) : Act (Except Signal α) := fun s =>
  let (result, s) := body s
  (result.map .ok, s)

def header (tag : String) (attrs : Assoc String) : Node :=
  { tag := tag, attrs := attrs, children := #[], parent := none, text := "", listeners := [] }

def within (tag : String) (body : Act α) : Act α := do
  play (modify (·.enter tag))
  always (recover body fun raised => play (do throw (← blamed tag raised))) Machine.leave

def inScope (body : Act α) : Act α := do
  play (modify fun m => m.mapEnv fun env => (env.push []).2)
  always body fun m => m.mapEnv fun env => env.pop?.elim env Prod.snd

def inFrame (closure : Bindings) (body : Act α) : Act α := do
  let stack := (← get).machine.session.env.stack
  play (modify fun m =>
    let (_, env, store) := m.session.env.enterFrame m.store closure
    { m with store := store, session := { m.session with env := env } })
  always body fun m => m.mapEnv fun env => { env with stack := stack }

/-! ## What expressions come to -/

def holds (condition : String) : Act Bool := do
  let value ← play (evaluate condition)
  return (← get).machine.store.truthy value

def textOf (value : Value) : Act String := do
  play (settle ((← get).machine.store.text value))

def calculated (node : Node) : Act String := do
  let value ← play (evaluate (node.attr? "expression"))
  play (checkDeclared value (node.attr? "type") "calc")
  textOf value

/-- The text of an expression, or a template that is filled in with all that is visible. -/
def filledIn (node : Node) : Act String := do
  match node.attr? "template" with
  | none => textOf (← play (evaluate (node.attr? "expression")))
  | some template =>
    let m := (← get).machine
    let data ← play (settle (m.session.env.visible.mapM fun entry => do
      return (entry.1, ← m.store.wire entry.2)))
    play (settle (Template.render template (.map data)))

/-! ## Rows of trees -/

/-- Evaluates a row of trees from left to right. What is due stands for the first element, which is
then not evaluated. -/
def row (element : String → Assoc String → Trees → Trees → Act Shown) : Option Trees → Trees → Act Trees
  | _, .nil => return .nil
  | due, .text _ content rest => do
    let shown ← row element due rest
    return .text () content shown
  | some due, .element _ _ _ _ rest => do
    let shown ← row element none rest
    return due ++ shown
  | none, .element _ tag attrs kids rest => do
    let first ← element tag attrs kids rest
    let shown ← row element first.next rest
    return first.here ++ shown

section Elements

variable (walk : Trees → Act Trees)

def container (tag : String) (attrs : Assoc String) (kids : Trees) : Act Shown := do
  let shown ← walk kids
  return ⟨.element () tag attrs shown .nil, none⟩

def display (tag : String) (attrs : Assoc String) (content : Node → Act String) : Act Shown := do
  let text ← content (header tag attrs)
  return ⟨.element () tag attrs (.ofText () text) .nil, none⟩

def condition (node : Node) (kids rest : Trees) : Act Shown := do
  let alternative := rest.partner "else"
  let condition ← play (required node "condition")
  if ← holds condition then
    let shown ← walk kids
    return ⟨shown, alternative.map fun _ => .nil⟩
  else
    match alternative with
    | none => return .nothing
    | some (_, _, other) =>
      let shown ← walk other
      return ⟨.nil, some shown⟩

def kept : Except Signal Trees → Option Trees
  | .ok shown => some shown
  | .error .goOn => some .nil
  | .error .breakOut => none

def oneRound (body : Act Trees) (step : Option String) : Act (Option Trees) := do
  match kept (← signalled body) with
  | none => return none
  | some shown =>
    play (step.forM fun text => do
      let _ ← runStatement text)
    return some shown

def rounds (body : Act Trees) (condition : String) (step : Option String) (limit : Option Nat) :
    Nat → Act Trees
  | 0 => do
    if ← holds condition then play (raise (limit.elim .exhausted .loopLimit))
    return .nil
  | n + 1 => do
    if ← holds condition then
      match ← oneRound body step with
      | none => return .nil
      | some shown =>
        let more ← rounds body condition step limit n
        return shown ++ more
    else return .nil

def loop (body : Act Trees) (condition : String) (step : Option String) : Act Shown := do
  let limit := (← get).machine.settings.loopLimit
  let shown ← rounds body condition step limit (limit.getD unlimitedRounds)
  return ⟨shown, none⟩

def countedLoop (node : Node) (kids : Trees) : Act Shown := do
  let condition ← play (required node "condition")
  play (((node.attr? "init").filter fun text => !Text.allBlank text).forM fun text => do
    let _ ← runStatement text)
  loop (walk kids) condition (given? node "increment")

def plainLoop (node : Node) (kids : Trees) : Act Shown := do
  let condition ← play (required node "condition")
  loop (walk kids) condition none

def scope (kids : Trees) : Act Shown := do
  let shown ← inScope (walk kids)
  return ⟨shown, none⟩

def mention (raised : Raised) : Run Unit := do
  diagnose ["Caught", raised.fault.diagnostic, "in", trailText (← get).session.trail]

def attempt (kids rest : Trees) : Act Shown :=
  let handler := rest.partner "catch"
  recover
    (do
      let shown ← walk kids
      return ⟨shown, handler.map fun _ => .nil⟩)
    fun raised => do
      match handler with
      | none => play (throw raised)
      | some (_, attrs, other) =>
        play (mention raised)
        play (bindName ((given? (header "catch" attrs) "var").getD "e") raised.record)
        let shown ← walk other
        return ⟨.nil, some shown⟩

def define (node : Node) (kids : Trees) : Act Shown := do
  let name ← play (required node "name")
  let closure ← play takeSnapshot
  modify fun s =>
    { machine := s.machine.mapSession fun session =>
        { session with functions := Assoc.set name s.definitions.size session.functions }
      definitions := s.definitions.push ⟨parameters ((node.attr? "params").getD ""), kids, closure⟩ }
  return .nothing

def definitionNamed (name : String) : Act Definition := do
  let s ← get
  match Assoc.get? name s.machine.session.functions with
  | none => play (raise (.functionNotFound name))
  | some id => return s.definitions.getD id default

def results (result : Value) : List (Assoc String) → Act Value
  | [] => return result
  | attrs :: rest => do
    let value ← play (returnValue (header "return" attrs))
    results value rest

def apply (f : Definition) (args : List Value) : Act (Trees × Value) :=
  inFrame f.closure do
    play ((f.params.zip args).forM fun (param, arg) => bindName param arg)
    let shown ← walk f.body
    let value ← results .none ((shown.tagged "return").map Prod.snd)
    return (shown.prune "return", value)

def call (node : Node) : Act Shown := do
  let name ← play (required node "func")
  let f ← definitionNamed name
  let args ← play (arguments (node.attr? "args"))
  if args.length ≠ f.params.length then
    play (raise (.argumentCount name f.params.length args.length))
  let (shown, value) ← apply walk f args
  match given? node "var" with
  | some var =>
    play (bindName var value)
    return .nothing
  | none => return ⟨shown, none⟩

def builtin (b : Builtin) (tag : String) (attrs : Assoc String) (kids rest : Trees) : Act Shown :=
  match b with
  | .store => do
    play (storeVariable (header tag attrs))
    return .nothing
  | .man => do
    play (changeVariable (header tag attrs))
    return .nothing
  | .calc => display tag attrs calculated
  | .output => display tag attrs filledIn
  | .condition => condition walk (header tag attrs) kids rest
  | .countedLoop => countedLoop walk (header tag attrs) kids
  | .loop => plainLoop walk (header tag attrs) kids
  | .function => define (header tag attrs) kids
  | .call => call walk (header tag attrs)
  | .scope => scope walk kids
  | .attempt => attempt walk kids rest
  | .signal signal => throw signal
  | _ => container walk tag attrs kids

def handled (tag : String) (attrs : Assoc String) (kids rest : Trees) : Act Shown := do
  match Assoc.get? tag (← get).machine.session.handlers with
  | some (.builtin b) => builtin walk b tag attrs kids rest
  | _ => container walk tag attrs kids

end Elements

def element : Nat → String → Assoc String → Trees → Trees → Act Shown
  | 0, tag, _, _, _ => within tag (play (raise (.recursionLimit maxDepth tag)))
  | depth + 1, tag, attrs, kids, rest => within tag (handled (row (element depth) none) tag attrs kids rest)

/-- What a row of trees shows. -/
def trees (depth : Nat) : Trees → Act Trees :=
  row (element depth) none

end Meaning

end TagScript.Script

import TagScript.Script.Method
import TagScript.Script.Run
import TagScript.Template

/-!
Elements that bind, change and show variables, and the statements that loops are driven by.
-/

namespace TagScript.Script

open Markup

def removeNode (id : NodeId) : Run Unit :=
  changeForest (·.remove id)

def showText (id : NodeId) (text : String) : Run Unit :=
  changeForest (·.setText id text)

def assignment? (text : String) : Option (String × String) :=
  match Text.trimLeft text.toList with
  | [] => none
  | first :: rest =>
    if !Datum.isNameStart first then none
    else
      let name := rest.takeWhile Datum.isNameChar
      match Text.trimLeft (rest.drop name.length) with
      | '=' :: '=' :: _ => none
      | '=' :: expression => some (String.ofList (first :: name), String.ofList expression)
      | _ => none

def runStatement (text : String) : Run Value :=
  match assignment? text with
  | some (name, expression) => do
    bindName name (← evaluate expression)
    return .none
  | none => evaluate text

def storeVariable (node : Node) : Run Unit := do
  let name ← required node "name"
  let value ← evaluate (node.attr? "value")
  checkDeclared value (node.attr? "type") name
  if setting node "local" "true" != "false" then bindName name value
  else modify fun m => m.mapEnv fun env => env.bindGlobal name value

def runStore (id : NodeId) : Run Unit := do
  storeVariable (← nodeOf id)
  removeNode id

def methodCall? (operation : String) : Option (String × Option String) :=
  match operation.toList with
  | '.' :: first :: rest =>
    if !Datum.isNameStart first then none
    else
      let name := rest.takeWhile Datum.isNameChar
      let call (args : Option String) := some (String.ofList (first :: name), args)
      match Text.trimChars (rest.drop name.length) with
      | [] => call none
      | '(' :: inside =>
        if inside.getLast? = some ')' then call (some (String.ofList inside.dropLast)) else none
      | _ => none
  | _ => none

def applyMethod (name : String) (value : Value) (operation : String) : Run Value := do
  match methodCall? operation with
  | none => raise (.operation (.malformed name operation))
  | some (method, argText) =>
    match Method.find? value method with
    | none => raise (.operation (.unsupported method value.className name))
    | some m =>
      let invalid := Fault.type (.invalidArguments method name)
      let args ← evaluateList argText
      match spread? (← get).store args with
      | none => raise invalid
      | some args =>
        let outcome ← modifyGet fun s =>
          let (outcome, store) := m.apply s.store value args
          (outcome, { s with store := store })
        match outcome with
        | .ok value => return value
        | .error .arguments => raise invalid
        | .error (.fault fault) => raise fault

def applyOperation (name : String) (value : Value) (operation : String) : Run Value := do
  let d ← datumOf value
  match d.literal? with
  | none => raise (.type (.noLiteral name d.className))
  | some literal => evaluate ("(" ++ literal ++ ")" ++ operation)

def changeVariable (node : Node) : Run Unit := do
  let name ← required node "name"
  let operation := Text.trim (← required node "operation")
  let env := (← get).session.env
  match env.owner? name with
  | none => raise (.undefined name)
  | some owner =>
    let value := (Assoc.get? name (env.scope owner)).getD .none
    let changed ←
      if operation.startsWith "." then applyMethod name value operation
      else applyOperation name value operation
    checkDeclared changed (node.attr? "type") name
    modify fun m => m.mapEnv fun env => env.bindIn owner name changed

def runMan (id : NodeId) : Run Unit := do
  changeVariable (← nodeOf id)
  removeNode id

def calcText (node : Node) : Run String := do
  let value ← evaluate (node.attr? "expression")
  checkDeclared value (node.attr? "type") "calc"
  textOf value

def runCalc (id : NodeId) : Run Unit := do
  showText id (← calcText (← nodeOf id))

def visibleData : Run Datum := do
  let m ← get
  let data ← settle (m.session.env.visible.mapM fun (name, value) => do
    return (name, ← m.store.wire value))
  return .map data

def outputText (node : Node) : Run String := do
  match node.attr? "template" with
  | some template => settle (Template.render template (← visibleData))
  | none => textOf (← evaluate (node.attr? "expression"))

def runOutput (id : NodeId) : Run Unit := do
  showText id (← outputText (← nodeOf id))

end TagScript.Script

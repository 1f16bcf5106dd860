import TagScript.Script.Variables

/-!
Elements that decide what runs: conditions, loops, scopes and attempts.
-/

namespace TagScript.Script

open Markup

def unwrapNode (id : NodeId) : Run Unit :=
  changeForest (·.unwrap id)

def runInPlace (walk : Walk) (id : NodeId) : Run (Option Signal) := do
  match ← walk id with
  | some signal => return some signal
  | none =>
    unwrapNode id
    return none

def holds (condition : String) : Run Bool := do
  isTrue (← evaluate condition)

def runCondition (walk : Walk) (id : NodeId) : Run (Option Signal) := do
  let node ← nodeOf id
  let alternative ← askForest (·.siblingTagged id "else")
  if ← holds (← required node "condition") then
    match ← runInPlace walk id with
    | some signal => return some signal
    | none =>
      alternative.forM removeNode
      return none
  else
    removeNode id
    match alternative with
    | none => return none
    | some other => runInPlace walk other

def appendAll (id : NodeId) (children : List NodeId) : Run Unit :=
  children.forM fun child => do
    if ← askForest (·.isWithin id child) then raise (← askForest (·.circular id child))
    changeForest (·.moveLast id child)

/-- Makes one round of a loop: a copy of the template is run, what it shows is added, and then the
step is made. The answer is whether the loop goes on. -/
def oneRound (walk : Walk) (id template : NodeId) (step : Option String) : Run Bool := do
  let round ← cloneTree template
  let signal ← walk round
  if signal = some .breakOut then return false
  if signal ≠ some .goOn then appendAll id (← nodeOf round).childList
  step.forM fun text => do
    let _ ← runStatement text
  return true

def goRound (walk : Walk) (id template : NodeId) (condition : String) (step : Option String)
    (limit : Option Nat) : Nat → Run Unit
  | 0 => do
    if ← holds condition then raise (limit.elim .exhausted .loopLimit)
  | rounds + 1 => do
    if ← holds condition then
      if ← oneRound walk id template step then
        goRound walk id template condition step limit rounds

def unlimitedRounds : Nat := Binary64.twoTo 62

def runRounds (walk : Walk) (id : NodeId) (condition : String) (step : Option String) : Run Unit := do
  let template ← cloneTree id
  changeForest (·.clearChildren id)
  let limit := (← get).settings.loopLimit
  goRound walk id template condition step limit (limit.getD unlimitedRounds)
  unwrapNode id

def runCountedLoop (walk : Walk) (id : NodeId) : Run Unit := do
  let node ← nodeOf id
  let condition ← required node "condition"
  ((node.attr? "init").filter fun text => !Text.allBlank text).forM fun text => do
    let _ ← runStatement text
  runRounds walk id condition (given? node "increment")

def runLoop (walk : Walk) (id : NodeId) : Run Unit := do
  let condition ← required (← nodeOf id) "condition"
  runRounds walk id condition none

def runScope (walk : Walk) (id : NodeId) : Run (Option Signal) := do
  return (← inScope (runInPlace walk id)).1

/-- Runs the children of a node and, if one of them fails, those of the handler behind it, to which
the failure is known by a name. Without a handler the failure goes on. -/
def runAttempt (walk : Walk) (id : NodeId) : Run (Option Signal) := do
  let handler ← askForest (·.siblingTagged id "catch")
  let outcome : Except Raised (Option Signal) ←
    recover (do return .ok (← walk id)) fun raised => return .error raised
  match outcome with
  | .ok (some signal) => return some signal
  | .ok none =>
    unwrapNode id
    handler.forM removeNode
    return none
  | .error raised =>
    removeNode id
    match handler with
    | none => throw raised
    | some handler =>
      diagnose ["Caught", raised.fault.diagnostic, "in", trailText (← get).session.trail]
      bindName ((given? (← nodeOf handler) "var").getD "e") raised.record
      runInPlace walk handler

end TagScript.Script

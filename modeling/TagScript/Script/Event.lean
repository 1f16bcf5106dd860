import TagScript.Markup.Selector
import TagScript.Script.Import

/-!
Events. When an event is dispatched, each registered body runs in a scope of its own; one that fails
is reported and does not keep the others from running.
-/

namespace TagScript.Script

open Markup

/-- Registers a copy of what an element holds, once it is checked. -/
def runListenBy (check : NodeId → Run Unit) (id : NodeId) : Run Unit := do
  let node ← nodeOf id
  match given? node "event", given? node "selector" with
  | none, _ => raise (.missingAttribute node.tag "event")
  | _, none => raise (.missingAttribute node.tag "selector")
  | some event, some selector =>
    let body ← cloneTree id
    check body
    removeNode id
    match (← get).session.document with
    | none => return
    | some document =>
      let targets ← askForest (·.select document selector)
      diagnose ["on", event, selector, "->", Numeral.ofNat targets.length, "targets"]
      targets.forM fun target => changeForest (·.listen target event ⟨event, body⟩)

def runListen : NodeId → Run Unit :=
  runListenBy fun _ => pure ()

def eventValue (target : NodeId) (event : String) (detail : Datum) : Run Value := do
  let node ← nodeOf target
  let detail ← normalised detail
  buildValue (.map
    [("type", .str event), ("target", .str node.tag), ("id", .str ((node.attr? "id").getD "")),
      ("detail", detail)])

def runListener (walk : Walk) (target : NodeId) (detail : Datum) (listener : Listener) : Run Unit := do
  let (signal, _) ← inScope do
    bindName "event" (← eventValue target listener.event detail)
    walk (← cloneTree listener.body)
  rejectSignal signal

def fire (walk : Walk) (target : NodeId) (event : String) (detail : Datum) (listener : Listener) :
    Run Unit :=
  recover (runListener walk target detail listener) fun raised =>
    emit .failure ("Event handler for '" ++ event ++ "' failed: " ++ raised.report)

def dispatch (walk : Walk) (event : String) (detail : Datum) : List NodeId → Run Nat
  | [] => return 0
  | target :: rest => do
    let listeners := (Assoc.get? event (← nodeOf target).listeners).getD []
    listeners.forM (fire walk target event detail)
    return listeners.length + (← dispatch walk event detail rest)

end TagScript.Script

import TagScript.Script.Variables

/-!
Elements that deal with the outside. What goes wrong with data or the network does not end the run;
it is kept in a variable or shown in the place of the result.
-/

namespace TagScript.Script

open Markup

def contain (id : NodeId) (label : String) (raised : Raised) : Run Unit := do
  emit .failure (label ++ ": " ++ raised.fault.message)
  match given? (← nodeOf id) "var" with
  | some var =>
    bindName var raised.record
    removeNode id
  | none => showText id ("Error: " ++ raised.fault.message)

def deliver (id : NodeId) (value : Value) (text : Value → Run String) : Run Unit := do
  match given? (← nodeOf id) "var" with
  | some var =>
    bindName var value
    removeNode id
  | none => showText id (← text value)

def runInput (id : NodeId) : Run Unit := do
  let node ← nodeOf id
  match given? node "var" with
  | none => raise (.missingAttribute node.tag "var")
  | some var =>
    let answer ← modifyGet fun m =>
      let (answer, world) := m.world.prompt ((node.attr? "prompt").getD "")
      (answer, { m with world := world })
    bindName var (.str answer)
    removeNode id

def runDebug (id : NodeId) : Run Unit := do
  let session := (← get).session
  let message ←
    match given? (← nodeOf id) "var" with
    | none => pure ("Debug point reached: " ++ trailText session.trail)
    | some var =>
      match session.env.get? var with
      | none => pure (var ++ " is undefined")
      | some value => pure (var ++ " = " ++ (← datumOf value).layout 2 0)
  emit .debug message
  removeNode id

def jsonText (value : Value) : Run String := do
  settle ((Json.write Json.spaced 0 (← wireOf value)).mapError fun c => .wrongType (Json.unwritable c))

def sendRequest (r : Request) : Run Datum := do
  settle (← modifyGet fun m =>
    let (result, network) := r.send m.world.network
    (result, { m with world := { m.world with network := network } }))

def requestHeaders (node : Node) : Run (Assoc String) := do
  match given? node "headers" with
  | none => return []
  | some expression =>
    match ← evaluate expression with
    | .map r => (← get).store.entries r |>.mapM fun (name, value) => do return (name, ← textOf value)
    | _ => raise (.type .headersNotMapping)

def normalised (d : Datum) : Run Datum :=
  settle (d.normal?.elim (.error .tooLarge) .ok)

def requestResult (node : Node) (url : String) : Run Datum := do
  let method := Text.upper (Text.trim ((given? node "method").getD "GET"))
  let headers ← requestHeaders node
  let (headers, data) ←
    match (given? node "body").filter fun _ => !Request.bodiless.contains method with
    | none => pure (headers, none)
    | some expression => do
      let data ← jsonText (← evaluate expression)
      let typed := headers.any fun (name, _) => Text.lower name == "content-type"
      pure (if typed then headers else Assoc.set "Content-Type" "application/json" headers, some data)
  let timeout ← settle ((given? node "timeout").mapM fun text => (Datum.str text).toFloat)
  let retries ← settle ((given? node "retries").mapM fun text => (Datum.str text).toInt)
  diagnose ["http", method, url]
  let options :=
    { RequestOptions.standard with
      headers := headers
      timeout := timeout.getD RequestOptions.standard.timeout
      retries := retries.getD RequestOptions.standard.retries }
  normalised (← sendRequest (Request.make method url options data))

def runRequest (id : NodeId) : Run Unit := do
  let node ← nodeOf id
  let outcome : Except Raised Value ← recover
    (do
      match given? node "url" with
      | none => raise (.missingAttribute node.tag "url")
      | some url => return .ok (← buildValue (← requestResult node url)))
    fun raised => return .error raised
  match outcome with
  | .ok value => deliver id value jsonText
  | .error raised =>
    contain id ("HTTP request failed: " ++ (node.attr? "url").getD "None") raised

def codecSource (id : NodeId) (format : Format) : Run String := do
  let node ← nodeOf id
  match node.attr? "source" with
  | some source => return source
  | none =>
    askForest fun f =>
      if format = .xml ∧ ¬ (f.elementChildren id).isEmpty then
        Text.trim (String.join (node.childList.map f.markup))
      else Text.trim (f.textContent id)

def codecResult (node : Node) (format : Format) (source : String) : Run Value := do
  match setting node "action" "parse" with
  | "parse" => buildValue (← settle ((← get).world.library.decode format source))
  | "stringify" =>
    let d ← wireOf (← evaluate source)
    return .str (← settle ((← get).world.library.encode format (setting node "pretty" "" == "true") d))
  | action => raise (.codec format.label ("Invalid action: " ++ action))

def runCodec (format : Format) (id : NodeId) : Run Unit := do
  let node ← nodeOf id
  let source ← codecSource id format
  let outcome : Except Raised Value ← recover
    (do return .ok (← codecResult node format source)) fun raised => return .error raised
  match outcome with
  | .ok value => deliver id value textOf
  | .error raised => contain id (format.label ++ " processing error") raised

end TagScript.Script

import TagScript.Datum.Order
import TagScript.Datum.Text
import TagScript.Format.JsonReader
import TagScript.Text.Case

/-!
Requests over the network: the list of replies that it will still give, and the log of what went
out. A request that meets no reply or a server error is repeated after a pause, which doubles each
time.
-/

namespace TagScript

/-- What the network gives back for a request. -/
inductive Reply where
  | response (status : Int) (body : String) (contentType : Option String)
  | unreachable (message : String)
  | broken (message : String)
  deriving DecidableEq, Repr

/-- What happens on the network. -/
inductive Transmission where
  | opened (timeout : Float)
  | request (method url : String) (headers : Assoc String) (body : Option String)
  | pause (seconds : Float)

/-- The replies to come, and what went out so far, last first. -/
structure Network where
  replies : List Reply
  sent : List Transmission

/-- How requests are made. -/
structure RequestOptions where
  timeout : Float
  retries : Int
  backoff : Float
  headers : Assoc String
  raw : Bool

/-- A request. -/
structure Request where
  method : String
  url : String
  options : RequestOptions
  body : Option String

namespace Network

def ofReplies (replies : List Reply) : Network := ⟨replies, []⟩

def log (net : Network) : List Transmission := net.sent.reverse

def note (net : Network) (t : Transmission) : Network :=
  { net with sent := t :: net.sent }

def take (net : Network) : Reply × Network :=
  match net.replies with
  | [] => (.unreachable "no response left", net)
  | reply :: rest => (reply, { net with replies := rest })

end Network

namespace RequestOptions

def parts? : Datum → Option (List Datum)
  | .seq items => some items
  | .str s => some (s.toList.map fun c => .str c.toString)
  | .map entries => some (entries.map fun entry => .str entry.1)
  | _ => none

def pairs (index : Nat) : List Datum → Except Fault (List (Datum × Datum))
  | [] => .ok []
  | item :: rest =>
    match parts? item with
    | none =>
      .error (.wrongType ("cannot convert dictionary update sequence element #" ++ Numeral.ofNat index ++
        " to a sequence"))
    | some [name, value] =>
      if name.canBeName then (pairs (index + 1) rest).map ((name, value) :: ·)
      else .error (.wrongType ("unhashable type: '" ++ name.qualifiedName ++ "'"))
    | some parts =>
      .error (.value ("dictionary update sequence element #" ++ Numeral.ofNat index ++ " has length " ++
        Numeral.ofNat parts.length ++ "; 2 is required"))

def entries (d : Datum) : Except Fault (List (Datum × Datum)) :=
  if !d.isPresent then .ok []
  else
    match d with
    | .map entries => .ok (entries.map fun (name, value) => (.str name, value))
    | d =>
      match parts? d with
      | none => .error (.wrongType ("'" ++ d.qualifiedName ++ "' object is not iterable"))
      | some items => (pairs 0 items).map Datum.distinctEntries

def standard : RequestOptions :=
  { timeout := 5.0
    retries := 2
    backoff := 0.2
    headers := []
    raw := false }

def ofConfig (config : Datum) : Except Fault RequestOptions := do
  let settings := (← entries config).map fun (name, value) => (name.plain, value)
  let setting (name : String) (otherwise : Datum) := (Assoc.get? name settings).getD otherwise
  let timeout ← (setting "timeout" (.num (Num.ofFloat standard.timeout))).toFloat
  let retries ← (setting "retries" (.int standard.retries)).toInt
  let backoff ← (setting "backoff" (.num (Num.ofFloat standard.backoff))).toFloat
  let headers ← entries (setting "headers" .none)
  .ok {
    timeout := timeout
    retries := retries
    backoff := backoff
    headers := Assoc.ofList (headers.map fun (name, value) => (name.plain, value.plain))
    raw := (setting "raw" (.bool standard.raw)).isPresent }

end RequestOptions

namespace Request

def bodiless : List String := ["GET", "HEAD"]

def make (method url : String) (options : RequestOptions) (data : Option String) : Request :=
  let method := Text.upper (if method.isEmpty then "GET" else method)
  { method := method
    url := url
    options := options
    body := if bodiless.contains method then none else data }

def mentions (part : List Char) : List Char → Bool
  | [] => part.isEmpty
  | c :: rest => part.isPrefixOf (c :: rest) || mentions part rest

def isJson (contentType : Option String) : Bool :=
  mentions "json".toList (Text.lower (contentType.getD "")).toList

def content (r : Request) (status : Int) (body : String) (contentType : Option String) :
    Except Fault Datum :=
  if !r.options.raw && isJson contentType then
    match Json.readBody body with
    | .ok d => .ok d
    | .error e => .error (.http ("Invalid JSON from " ++ r.url ++ ": " ++ e) (some status))
  else .ok (.str body)

def previewLength : Nat := 200

def refusal (r : Request) (status : Int) (body : String) : Fault :=
  .http ("HTTP " ++ Numeral.ofInt status ++ " for " ++ r.url ++ ": " ++
    String.ofList (body.toList.take previewLength)) (some status)

/-- What a reply comes to: an end, with a result or a fault, or a fault that a further try may mend.
-/
inductive Verdict where
  | done (result : Except Fault Datum)
  | again (fault : Fault)

def verdict (r : Request) : Reply → Verdict
  | .unreachable message => .again (.http ("Request to " ++ r.url ++ " failed: " ++ message) none)
  | .broken message => .done (.error (.runtime message))
  | .response status body contentType =>
    if 200 ≤ status && status < 300 then .done (r.content status body contentType)
    else if 500 ≤ status then .again (r.refusal status body)
    else .done (.error (r.refusal status body))

def pauseAfter (r : Request) (tries : Nat) : Except Fault Float :=
  if tries < 1024 then .ok (r.options.backoff * Float.ofNat (Binary64.twoTo tries)) else .error .tooLarge

def sendAgain (r : Request) : Nat → Nat → Network → Except Fault Datum × Network
  | left, tries, net =>
    let (reply, net) := (net.note (.request r.method r.url r.options.headers r.body)).take
    match r.verdict reply, left with
    | .done result, _ => (result, net)
    | .again fault, 0 => (.error fault, net)
    | .again _, left + 1 =>
      match r.pauseAfter tries with
      | .ok seconds => r.sendAgain left (tries + 1) (net.note (.pause seconds))
      | .error fault => (.error fault, net)

def obstacle? (body : String) : Option Fault :=
  let before := body.toList.takeWhile (!Text.isHalf ·)
  let halves := (body.toList.drop before.length).takeWhile Text.isHalf
  if halves.isEmpty then none
  else some (.unencodable body before.length (before.length + halves.length))

def send (r : Request) (net : Network) : Except Fault Datum × Network :=
  match r.body.bind obstacle? with
  | some fault => (.error fault, net)
  | none =>
    let net := net.note (.opened r.options.timeout)
    if r.options.retries < 0 then (.ok .none, net) else r.sendAgain r.options.retries.toNat 0 net

end Request

end TagScript

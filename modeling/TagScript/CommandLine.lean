import TagScript.Script.Interpreter

/-!
The command line: a document in a file is run and shown, or lines are read and run one after the other in
one session.
-/

namespace TagScript.CommandLine

open TagScript.Script

def file? : List String → Option String
  | [] => none
  | arg :: _ => if arg.startsWith "-" then none else some arg

def start (settings : Settings) (world : Prompting → World) (args : List String) : Machine :=
  match file? args with
  | some _ => Machine.new settings (world .input) none
  | none =>
    let world := world .console
    Machine.new settings world (some world.files.places.workingDir)

def write (text : String) : Run Unit :=
  changeWorld (·.write text)

def writeEffects (topics : List Topic) : Run Unit := do
  (← get).session.effects.reverse.forM fun effect => do
    if topics.contains effect.topic then writeDiagnostic (effect.message ++ "\n")

def showDocument (path source : String) : Run Nat := do
  let files := (← get).world.files
  changeSession fun s => { s with sourceDir := some (Locator.directory (files.absolute path)) }
  let report ← runSource source
  writeEffects [.debug]
  match report.error with
  | some message =>
    writeDiagnostic (message ++ "\n")
    return 1
  | none =>
    write ((← askForest (·.markup report.document)) ++ "\n")
    return 0

def runFile (path : String) : Run Nat := do
  let source ← recover (do return some (← readFile path)) fun raised => do
    match raised.fault with
    | .fileNotFound _ =>
      writeDiagnostic ("Error: file not found: " ++ path ++ "\n")
      return none
    | _ => throw raised
  match source with
  | some source => showDocument path source
  | none => return 1

def greeting : String := "HScript REPL v0.1\nType 'exit' or press Ctrl+D to quit.\n"

def promptMark : String := ">> "

def runLine (line : String) : Run Unit := do
  let report ← runSource line
  match report.error with
  | some message => writeDiagnostic (message ++ "\n")
  | none =>
    writeEffects [.debug, .failure]
    let shown ← askForest (·.markup report.document)
    unless shown.isEmpty do write (shown ++ "\n")

def converseOnce : Run Bool := do
  let raw ← modifyGet fun m =>
    let (line, world) := (m.world.write promptMark).readLine
    (String.ofList line, { m with world := world })
  let line := Text.trim raw
  if raw.isEmpty then
    write "\nExiting.\n"
    return false
  else if line.isEmpty then return true
  else if line == "exit" then return false
  else
    recover (runLine line) fun raised => writeDiagnostic ("Error: " ++ raised.fault.message ++ "\n")
    return true

def converse : Nat → Run Unit
  | 0 => return
  | rounds + 1 => do
    if ← converseOnce then converse rounds

/-- Does what the arguments ask for. The answer is the exit code. Every line that is read is part of
the input, so there are no more of them than it has characters. -/
def run (args : List String) : Run Nat := do
  match file? args with
  | some path => runFile path
  | none =>
    write greeting
    converse ((← get).world.input.length + 1)
    return 0

end TagScript.CommandLine

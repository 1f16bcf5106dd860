import TagScript.CommandLine

/-!
The program. The machine is pure: when it asks for a file or a line of input that it does not have,
the step is made again with it.
-/

namespace TagScript.Main

open TagScript.Script

def unwritten (texts : List String) (written upTo : Nat) : String :=
  String.join ((texts.reverse.take upTo).drop written)

def flush (w : World) (written upTo : Nat × Nat) : IO Unit := do
  (← IO.getStdout).putStr (unwritten w.output written.1 upTo.1)
  (← IO.getStdout).flush
  (← IO.getStderr).putStr (unwritten w.diagnostics written.2 upTo.2)
  (← IO.getStderr).flush

def supplyFile (files : Files) (path : String) : IO Files := do
  let place := (← IO.currentDir) / files.absolute path
  if ← place.isDir then return files.addDirectory path
  else if ← place.pathExists then
    return files.add path (← IO.FS.readBinFile place).toList
  else return files.exclude path

/-- Makes a step, again and again until it lacks nothing, and writes what it writes. -/
partial def supplied {α : Type} (body : Run α) (m : Machine) (written : Nat × Nat) :
    IO (Except Raised α × Machine) := do
  let (result, after) := body m
  let w := after.world
  let again (world : World) (written : Nat × Nat) := supplied body { m with world := world } written
  match w.lacking with
  | some (.file path) =>
    again { m.world with files := ← supplyFile m.world.files path } written
  | some (.line output diagnostics) =>
    flush w written (output, diagnostics)
    let line ← (← IO.getStdin).getLine
    again
      { m.world with input := m.world.input ++ line.toList, inputEnded := line.isEmpty }
      (output, diagnostics)
  | none =>
    flush w written (w.output.length, w.diagnostics.length)
    return (result, { after with world := { w with output := [], diagnostics := [] } })

/-- Reads and runs lines until there are no more. -/
partial def converse (m : Machine) : IO Unit := do
  match ← supplied CommandLine.converseOnce m (0, 0) with
  | (.ok true, m) => converse m
  | _ => return

def settings : IO Settings := do
  return {
    loopLimit := loopLimitOf (← IO.getEnv "HSCRIPT_MAX_LOOP_ITERS")
    debugging := ((← IO.getEnv "HSCRIPT_DEBUG").getD "") != "" }

def start (args : List String) : IO Machine := do
  let places : Places := ⟨(← IO.currentDir).toString, (← IO.getEnv "HOME").getD "/"⟩
  let world (prompting : Prompting) := World.new (.ofList places []) (.ofReplies []) prompting [] false
  return CommandLine.start (← settings) world args

/-- Runs the document in the file that is named, or reads and runs lines. The answer is the exit
code. -/
def run (args : List String) : IO UInt32 := do
  let m ← start args
  match CommandLine.file? args with
  | some path =>
    match ← supplied (CommandLine.runFile path) m (0, 0) with
    | (.ok code, _) => return code.toUInt32
    | (.error raised, _) =>
      (← IO.getStderr).putStrLn raised.report
      return 1
  | none =>
    let (_, m) ← supplied (CommandLine.write CommandLine.greeting) m (0, 0)
    converse m
    return 0

end TagScript.Main

def main (args : List String) : IO UInt32 :=
  TagScript.Main.run args

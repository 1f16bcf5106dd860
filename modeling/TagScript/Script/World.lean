import TagScript.Files
import TagScript.Format.Codec
import TagScript.Network

/-!
The world around a run. It is a value like any other; what it lacks and may still be supplied is
noted in it.
-/

namespace TagScript.Script

def withoutLineEnd (cs : List Char) : String :=
  String.ofList (cs.reverse.dropWhile (· == '\n')).reverse

/-- Where answers to prompts come from: a list of answers given beforehand, the input with prompts
on the diagnostic output, or the input with prompts on the output. -/
inductive Prompting where
  | answers (given : List Datum)
  | input
  | console
  deriving Inhabited

/-- What was asked of the outside and not there yet: a file, or a line of input, with how many texts
had been written to either output by then. -/
inductive Lack where
  | file (path : String)
  | line (output diagnostics : Nat)
  deriving DecidableEq, Repr

/-- The outside: files, the network, the library of data formats, the input still to be read and
whether more may follow, what was written and asked with the last first, and the first thing that
may be supplied still. -/
structure World where
  files : Files
  network : Network
  library : Library
  prompting : Prompting
  input : List Char
  inputEnded : Bool
  asked : List String
  output : List String
  diagnostics : List String
  lacking : Option Lack

namespace World

def new (files : Files) (network : Network) (prompting : Prompting) (input : List Char)
    (inputEnded : Bool) : World :=
  { files := files
    network := network
    library := .standard
    prompting := prompting
    input := input
    inputEnded := inputEnded
    asked := []
    output := []
    diagnostics := []
    lacking := none }

def note (w : World) (lack : Lack) : World :=
  { w with lacking := w.lacking.or (some lack) }

def write (w : World) (text : String) : World :=
  { w with output := text :: w.output }

def diagnose (w : World) (text : String) : World :=
  { w with diagnostics := text :: w.diagnostics }

def readFile (w : World) (path : String) : Except Fault String × World :=
  match w.files.text path with
  | .error (.fileNotFound path) =>
    (.error (.fileNotFound path), if w.files.isAbsent path then w else w.note (.file path))
  | result => (result, w)

def readLine (w : World) : List Char × World :=
  let line := w.input.takeWhile (· != '\n')
  let behind := w.input.drop line.length
  let w := if w.input.isEmpty && !w.inputEnded then w.note (.line w.output.length w.diagnostics.length) else w
  (line ++ behind.take 1, { w with input := behind.drop 1 })

def prompt (w : World) (text : String) : String × World :=
  match w.prompting with
  | .answers given =>
    let w := { w with asked := text :: w.asked }
    match given with
    | [] => ("", w)
    | answer :: rest =>
      let answer :=
        match answer with
        | .none => ""
        | d => withoutLineEnd d.plain.toList
      (answer, { w with prompting := .answers rest })
  | .input =>
    let w := if text.isEmpty then w else w.diagnose text
    let (line, w) := w.readLine
    (withoutLineEnd line, w)
  | .console =>
    let (line, w) := (w.write text).readLine
    (withoutLineEnd line, w)

end World

end TagScript.Script

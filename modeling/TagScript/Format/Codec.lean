import TagScript.Format.Csv
import TagScript.Format.Ini
import TagScript.Format.JsonReader
import TagScript.Format.Toml.Document
import TagScript.Format.Toml.Writer
import TagScript.Format.Xml.Event
import TagScript.Format.Xml.Writer
import TagScript.Format.Yaml.Reader
import TagScript.Format.Yaml.Writer

/-!
Data formats by name. Whatever goes wrong in the library of readers and writers is a fault of the
format.
-/

namespace TagScript

/-- The data formats. -/
inductive Format where
  | json
  | csv
  | ini
  | xml
  | yaml
  | toml
  deriving DecidableEq, Repr

namespace Format

def names : List (String × Format) :=
  [("json", .json), ("csv", .csv), ("ini", .ini), ("xml", .xml), ("yaml", .yaml), ("yml", .yaml),
    ("toml", .toml)]

def label : Format → String
  | .json => "JSON"
  | .csv => "CSV"
  | .ini => "INI"
  | .xml => "XML"
  | .yaml => "YAML"
  | .toml => "TOML"

def ofName (name : Option String) : Except Fault Format :=
  let given := name.getD ""
  match names.find? (·.1 == Text.lower (Text.trim given)) with
  | some (_, f) => .ok f
  | none =>
    let label := if given.isEmpty then "codec" else given
    .error (.codec (Text.upper label) ("Unsupported format: " ++ name.elim "None" Text.quoted))

def write (f : Format) (indented : Bool) (d : Datum) : Except String String :=
  match f with
  | .json => (Json.write (if indented then Json.indented else Json.spaced) 0 d).mapError Json.unwritable
  | .csv => Csv.writeDatum d
  | .ini => Ini.writeDatum d
  | .xml => Xml.writeDatum indented d
  | .yaml => Yaml.writeDatum d
  | .toml => Toml.writeDatum d

def read (f : Format) (text : String) : Except String Graph :=
  match f with
  | .json => (Json.read text).map .ofDatum
  | .csv => (Csv.read text).map fun rows => .ofDatum (.seq (rows.map fun row => .seq (row.map .str)))
  | .ini => (Ini.read text).map .ofDatum
  | .xml => (Xml.read text).map .ofDatum
  | .yaml => Yaml.read text
  | .toml => (Toml.read text).map .ofDatum

end Format

/-- A library of the formats: readers and writers, which may fail with a message. -/
structure Library where
  read : Format → String → Except String Graph
  write : Format → Bool → Datum → Except String String

namespace Library

def standard : Library := ⟨Format.read, Format.write⟩

/-- A failure of the reader is a fault of the format. What it has read is made ready only then. -/
def decode (library : Library) (f : Format) (text : String) : Except Fault Datum :=
  match library.read f text with
  | .error e => .error (.codec f.label e)
  | .ok g => g.normal

def encode (library : Library) (f : Format) (indented : Bool) (d : Datum) : Except Fault String :=
  (library.write f indented d.wire).mapError (.codec f.label)

end Library

namespace Format

def decode : Format → String → Except Fault Datum := Library.standard.decode

def encode : Format → Bool → Datum → Except Fault String := Library.standard.encode

end Format

end TagScript

import TagScript.Datum.Text
import TagScript.Fault
import TagScript.Number.Reading

/-!
Data as a reader of documents hands it over: a graph, since a collection may stand in several
places, and inside itself. The datum is read off it, if it is finite, its whole numbers are
within the doubles and its names can be written.
-/

namespace TagScript.Graph

/-- What stands in a collection: a datum, or the collection of a mark. -/
inductive Part where
  | datum (d : Datum)
  | whole (mark : Nat)

/-- What a mark stands for: items of a list or a tuple, pairs, entries under different names, or an
object with nothing in it that the language could see. -/
inductive Contents where
  | items (parts : List Part)
  | pairs (parts : List (Part × Part))
  | entries (parts : List (Datum × Part))
  | object (object : Foreign)

/-- A whole number with too many digits to be written is in a datum. -/
def vast : Datum → Bool :=
  Datum.fold (fun | .int i => Reading.maxDigits < (Numeral.ofNat i.natAbs).length | _ => false) (·.any id) (·.any Prod.snd)

def nameText (name : Datum) : Except Fault String :=
  if vast name then .error (.value (Reading.beyondLimit "")) else .ok name.plain

/-- The datum of a part. All names become text and all numbers doubles. -/
def Part.normal (contents : List (Nat × Contents)) : Nat → Part → Except Fault Datum
  | _, .datum d => d.normal?.elim (.error .tooLarge) .ok
  | 0, .whole _ => .error (.endless false)
  | depth + 1, .whole mark => do
    match contents.lookup mark with
    | none => return .none
    | some (.items parts) => return .seq (← parts.mapM (normal contents depth))
    | some (.pairs parts) =>
      return .seq (← parts.mapM fun (name, value) => do
        return .seq [← normal contents depth name, ← normal contents depth value])
    | some (.entries parts) =>
      return .map (Assoc.ofList (← parts.mapM fun (name, value) => do
        return (← nameText name, ← normal contents depth value)))
    | some (.object o) => return .stamp (.other o) mark

end TagScript.Graph

namespace TagScript

/-- Data that a reader has made of a document. -/
structure Graph where
  root : Graph.Part
  contents : List (Nat × Graph.Contents)

namespace Graph

/-- Data in which every collection stands once. -/
def ofDatum (d : Datum) : Graph := ⟨.datum d, []⟩

/-- A path through more collections than there are goes through one of them twice. -/
def normal (g : Graph) : Except Fault Datum :=
  g.root.normal g.contents (g.contents.length + 1)

end TagScript.Graph

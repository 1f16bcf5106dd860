import TagScript.Text.Case
import TagScript.Value

/-!
Declared types. A tag may declare the type of the value that it takes; some types have several names.
-/

namespace TagScript

def typeNamed? (name : String) : Option String :=
  match name with
  | "number" => some "number"
  | "string" => some "string"
  | "boolean" | "bool" => some "boolean"
  | "sequence" | "array" | "list" => some "sequence"
  | "mapping" | "object" | "dict" => some "mapping"
  | "error" => some "error"
  | _ => none

def checkType (value : Value) (declared : Option String) (what : String) : Except Fault Unit :=
  match declared with
  | none => .ok ()
  | some declared =>
    if declared.isEmpty then .ok ()
    else
      match typeNamed? (Text.lower (Text.trim declared)) with
      | none => .error (.type (.unknownType declared what))
      | some expected =>
        if value.typeTag = expected then .ok ()
        else .error (.type (.mismatch what expected value.typeTag))

end TagScript

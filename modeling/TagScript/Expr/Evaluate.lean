import TagScript.Expr.Operator
import TagScript.Environment

/-!
Evaluation of expressions: a postfix form is run on a stack of values. Evaluation reads the environment
and makes new containers for literals; it changes none that exist.
-/

namespace TagScript.Expr

def follow (store : Store) (path : String) : Value → List String → Except Fault Value
  | value, [] => .ok value
  | value, segment :: rest => do
    let next ← member store value segment path
    follow store path next rest

def lookup (env : Environment) (store : Store) (path : String) : Except Fault Value :=
  match (path.toList.splitOn '.').map String.ofList with
  | [] => .error (.undefined path)
  | head :: rest =>
    match env.get? head with
    | none => .error (.undefined head)
    | some value => follow store path value rest

def oneValue : Except Fault (List Value × Store) → Except Fault (Value × Store)
  | .error fault => .error fault
  | .ok ([value], store) => .ok (value, store)
  | .ok ([], _) => .error (.lex .empty)
  | .ok (_ :: _ :: _, _) => .error (.lex .malformed)

mutual

def runItems (env : Environment) (store : Store) (stack : List Value) :
    List Item → Except Fault (List Value × Store)
  | [] => .ok (stack, store)
  | item :: rest => do
    let (stack, store) ← runItem env store stack item
    runItems env store stack rest

def runItem (env : Environment) (store : Store) (stack : List Value) :
    Item → Except Fault (List Value × Store)
  | .number x _ => .ok (.ofFloat x :: stack, store)
  | .string s _ => .ok (.str s :: stack, store)
  | .boolean b _ => .ok (.bool b :: stack, store)
  | .identifier path _ => (lookup env store path).map fun value => (value :: stack, store)
  | .unary sign _ =>
    match stack with
    | [] => .error (.lex (.missingPrefixOperand sign.name))
    | a :: rest => (applyUnary store sign a).map fun (value, store) => (value :: rest, store)
  | .binary symbol pos =>
    match stack with
    | b :: a :: rest => (applyBinary store symbol a b).map fun (value, store) => (value :: rest, store)
    | _ => .error (.lex (.missingOperand symbol.text pos))
  | .sequence elements _ =>
    (runElements env store elements).map fun (values, store) =>
      let (value, store) := store.newSeq values
      (value :: stack, store)
  | .mapping entries _ =>
    (runEntries env store entries).map fun (bindings, store) =>
      let (value, store) := store.newMap (Assoc.ofList bindings)
      (value :: stack, store)

def runElements (env : Environment) (store : Store) :
    List (List Item) → Except Fault (List Value × Store)
  | [] => .ok ([], store)
  | element :: rest => do
    let (value, store) ← oneValue (runItems env store [] element)
    (runElements env store rest).map fun (values, store) => (value :: values, store)

def runEntries (env : Environment) (store : Store) :
    List (String × List Item) → Except Fault (List (String × Value) × Store)
  | [] => .ok ([], store)
  | entry :: rest => do
    let (binding, store) ← runEntry env store entry
    (runEntries env store rest).map fun (bindings, store) => (binding :: bindings, store)

def runEntry (env : Environment) (store : Store) :
    String × List Item → Except Fault ((String × Value) × Store)
  | (key, items) => (oneValue (runItems env store [] items)).map fun (value, store) => ((key, value), store)

end

def runWhole (env : Environment) (store : Store) (items : List Item) :
    Except Fault (Value × Store) :=
  oneValue (runItems env store [] items)

def evaluate (env : Environment) (store : Store) (text : String) : Except Fault (Value × Store) :=
  if Text.allBlank text then .error (.lex .empty)
  else
    match tokenize text with
    | .error fault => .error (.lex fault)
    | .ok tokens =>
      match toPostfix tokens with
      | .error fault => .error fault
      | .ok items => runWhole env store items

def evaluate? (env : Environment) (store : Store) (text : Option String) :
    Except Fault (Value × Store) :=
  text.elim (.error (.lex .empty)) (evaluate env store)

def evaluateList (env : Environment) (store : Store) (text : Option String) :
    Except Fault (Value × Store) :=
  let text := text.getD ""
  if Text.allBlank text then .ok (store.newSeq [])
  else evaluate env store ("[" ++ text ++ "]")

end TagScript.Expr

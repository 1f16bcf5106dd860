import TagScript.Datum.Cast
import TagScript.Sorting
import TagScript.Text.Case
import TagScript.Value.Comparison

/-!
Methods: the named operations on sequences, mappings and texts. Those on containers change the
container itself.
-/

namespace TagScript.Script

/-- The operations. -/
inductive Method where
  | push
  | pop
  | shift
  | unshift
  | reverse
  | sort
  | slice
  | concat
  | remove
  | clear
  | put
  | delete
  | upper
  | lower
  | trim
  | replace
  deriving DecidableEq, Repr

namespace Method

variable {α : Type}

def ofSequences : Assoc Method :=
  [("push", .push), ("append", .push), ("pop", .pop), ("shift", .shift), ("unshift", .unshift),
    ("reverse", .reverse), ("sort", .sort), ("slice", .slice), ("concat", .concat), ("remove", .remove),
    ("clear", .clear)]

def ofMappings : Assoc Method :=
  [("set", .put), ("delete", .delete), ("clear", .clear)]

def ofTexts : Assoc Method :=
  [("upper", .upper), ("toUpperCase", .upper), ("lower", .lower), ("toLowerCase", .lower), ("trim", .trim),
    ("slice", .slice), ("concat", .concat), ("replace", .replace)]

def find? (value : Value) (name : String) : Option Method :=
  match value with
  | .seq _ => Assoc.get? name ofSequences
  | .map _ => Assoc.get? name ofMappings
  | .str _ => Assoc.get? name ofTexts
  | _ => none

/-- Why an operation fails: its arguments do not fit, or something else. -/
inductive Failure where
  | arguments
  | fault (fault : Fault)

abbrev Outcome := Except Failure Value × Store

/-- The place in a list of the given length that a bound of a slice means: a negative bound counts
from the end, and what lies outside is moved to the nearer end. -/
def bound (length : Nat) (index : Int) : Nat :=
  if index < 0 then (index + length).toNat else min index.toNat length

def sliceOf (xs : List α) (start : Int) (stop : Option Int) : List α :=
  let first := bound xs.length start
  let last := (stop.map (bound xs.length)).getD xs.length
  (xs.take last).drop first

def boundOf (v : Value) : Except Failure Int :=
  v.leaf.toInt.mapError fun _ => .arguments

def bounds : List Value → Except Failure (Int × Option Int)
  | [] => .ok (0, none)
  | [start] => do return (← boundOf start, none)
  | [start, .none] => do return (← boundOf start, none)
  | [start, stop] => do return (← boundOf start, some (← boundOf stop))
  | _ => .error .arguments

def sortItems (store : Store) (r : Ref) : Outcome :=
  let (failure, items) := Sorting.sorted (store.write r (.seq [])).before (store.items r)
  let result :=
    match failure with
    | none => .ok (.seq r)
    | some fault => .error (.fault fault)
  (result, store.write r (.seq items))

def without (store : Store) (item : Value) : List Value → Except Fault (List Value)
  | [] => .ok []
  | x :: rest => do
    if ← Store.sameItem store.equal x item then return rest else return x :: (← without store item rest)

def argumentText (store : Store) (v : Value) : Except Failure String :=
  match store.text v with
  | .ok s => .ok s
  | .error (.wrongType _) => .error .arguments
  | .error fault => .error (.fault fault)

/-- A text with every occurrence of another, from the left and apart from each other, replaced. With
the empty text to be replaced, the replacement goes between all characters and to both ends. The
fuel is the number of steps. -/
def replaceAll (old new : List Char) : Nat → List Char → List Char
  | 0, cs => cs
  | _ + 1, [] => if old.isEmpty then new else []
  | fuel + 1, c :: rest =>
    if old.isEmpty then new ++ c :: replaceAll old new fuel rest
    else if old.isPrefixOf (c :: rest) then new ++ replaceAll old new fuel ((c :: rest).drop old.length)
    else c :: replaceAll old new fuel rest

def stripped (chars cs : List Char) : List Char :=
  ((cs.dropWhile chars.contains).reverse.dropWhile chars.contains).reverse

def onSequence (store : Store) (r : Ref) (method : Method) (args : List Value) : Outcome :=
  let items := store.items r
  let changed (items : List Value) : Outcome := (.ok (.seq r), store.write r (.seq items))
  let failed (failure : Failure) : Outcome := (.error failure, store)
  match method, args with
  | .push, args => changed (items ++ args)
  | .pop, [] => changed items.dropLast
  | .shift, [] => changed (items.drop 1)
  | .unshift, args => changed (args ++ items)
  | .reverse, [] => changed items.reverse
  | .sort, [] => sortItems store r
  | .slice, args =>
    match bounds args with
    | .error failure => failed failure
    | .ok (start, stop) =>
      let (value, store) := store.newSeq (sliceOf items start stop)
      (.ok value, store)
  | .concat, [.seq other] => changed (items ++ store.items other)
  | .concat, [_] => failed (.fault (.type .concatNeedsSequence))
  | .remove, [item] =>
    match without store item items with
    | .error fault => failed (.fault fault)
    | .ok items => changed items
  | .clear, [] => changed []
  | _, _ => failed .arguments

def onMapping (store : Store) (r : Ref) (method : Method) (args : List Value) : Outcome :=
  let entries := store.entries r
  let changed (entries : Assoc Value) : Outcome := (.ok (.map r), store.write r (.map entries))
  let failed (failure : Failure) : Outcome := (.error failure, store)
  match method, args with
  | .put, [key, value] =>
    match argumentText store key with
    | .error failure => failed failure
    | .ok name => changed (Assoc.set name value entries)
  | .delete, [key] =>
    match argumentText store key with
    | .error failure => failed failure
    | .ok name => changed (Assoc.erase name entries)
  | .clear, [] => changed []
  | _, _ => failed .arguments

def onText (store : Store) (s : String) (method : Method) (args : List Value) : Except Failure String :=
  match method, args with
  | .upper, [] => .ok (Text.upper s)
  | .lower, [] => .ok (Text.lower s)
  | .trim, [] => .ok (Text.trim s)
  | .trim, [.none] => .ok (Text.trim s)
  | .trim, [.str chars] => .ok (String.ofList (stripped chars.toList s.toList))
  | .slice, args => do
    let (start, stop) ← bounds args
    return String.ofList (sliceOf s.toList start stop)
  | .concat, args => do
    let texts ← args.mapM (argumentText store)
    return s ++ String.join texts
  | .replace, [old, new] => do
    let old ← argumentText store old
    let new ← argumentText store new
    return String.ofList (replaceAll old.toList new.toList (s.length + 1) s.toList)
  | _, _ => .error .arguments

def apply (store : Store) (value : Value) (method : Method) (args : List Value) : Outcome :=
  match value with
  | .seq r => onSequence store r method args
  | .map r => onMapping store r method args
  | .str s => ((onText store s method args).map .str, store)
  | _ => (.error .arguments, store)

end Method

end TagScript.Script

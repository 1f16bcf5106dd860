import TagScript.Assoc
import TagScript.Stamp

/-!
Data: the finite trees that values of the language stand for, that documents in the data formats
hold, and that all printers work on.
-/

namespace TagScript

/-- A double; `mark` tells results that are not numbers apart and is zero for all others. -/
structure Num where
  val : Float
  mark : Nat
  deriving Inhabited

/-- A failure as data: what kind it was and what it said. -/
structure ErrorRecord where
  kind : String
  message : String
  deriving DecidableEq, Repr

/-- A finite tree of data. Whole numbers are those of the host; the language itself makes doubles.
-/
inductive Datum where
  | none
  | bool (b : Bool)
  | num (n : Num)
  | int (i : Int)
  | str (s : String)
  | seq (items : List Datum)
  | map (entries : List (String × Datum))
  | error (record : ErrorRecord)
  | func (name : String) (params : List String) (mark : Nat)
  | stamp (stamp : Stamp) (mark : Nat)
  deriving Inhabited

namespace Num

def ofFloat (x : Float) : Num := ⟨x, 0⟩

def constantMark : Nat := 0

def jsonMark : Nat := 1

def yamlMark : Nat := 2

def unmarked : Nat := 3

def firstFreshMark : Nat := 4

def ofOutside (x : Float) : Num := ⟨x, if x.isNaN then unmarked else 0⟩

def identical (a b : Num) : Bool :=
  a.val.isNaN && b.val.isNaN && a.mark = b.mark

end Num

namespace Datum

def className : Datum → String
  | .none => "NoneType"
  | .bool _ => "bool"
  | .num _ => "float"
  | .int _ => "int"
  | .str _ => "str"
  | .seq _ => "list"
  | .map _ => "dict"
  | .error _ => "ErrorRecord"
  | .func _ _ _ => "FunctionDef"
  | .stamp s _ => s.className

def qualifiedName : Datum → String
  | .stamp s _ => s.qualifiedName
  | d => d.className

def typeTag : Datum → String
  | .none => "none"
  | .bool _ => "boolean"
  | .num _ => "number"
  | .int _ => "number"
  | .str _ => "string"
  | .seq _ => "sequence"
  | .map _ => "mapping"
  | .error _ => "error"
  | d => d.className

def truthy : Datum → Bool
  | .none => false
  | .bool b => b
  | .num n => !n.val.isNaN && n.val != 0
  | .int i => i != 0
  | .str s => !s.isEmpty
  | .seq items => !items.isEmpty
  | .map entries => !entries.isEmpty
  | .error _ => true
  | .func _ _ _ => true
  | .stamp s _ => s.truthy

section

variable {α : Type} (flat : Datum → α) (seq : List α → α) (map : List (String × α) → α)

mutual

/-- What a datum comes to, if it is known for data without parts, and for containers from what their
parts come to. -/
def fold : Datum → α
  | .seq items => seq (foldItems items)
  | .map entries => map (foldEntries entries)
  | d => flat d

def foldItems : List Datum → List α
  | [] => []
  | d :: rest => fold d :: foldItems rest

def foldEntries : List (String × Datum) → List (String × α)
  | [] => []
  | entry :: rest => foldEntry entry :: foldEntries rest

def foldEntry : String × Datum → String × α
  | (name, d) => (name, fold d)

end

theorem fold_seq (items : List Datum) : fold flat seq map (.seq items) = seq (items.map (fold flat seq map)) := by
  have each : foldItems flat seq map items = items.map (fold flat seq map) := by
    induction items with
    | nil => rfl
    | cons d rest ih => rw [foldItems, ih, List.map_cons]
  rw [fold, each]

theorem fold_map (entries : List (String × Datum)) :
    fold flat seq map (.map entries) = map (entries.map fun entry => (entry.1, fold flat seq map entry.2)) := by
  have each : foldEntries flat seq map entries = entries.map fun entry => (entry.1, fold flat seq map entry.2) := by
    induction entries with
    | nil => rfl
    | cons entry rest ih => rw [foldEntries, ih, List.map_cons, foldEntry]
  rw [fold, each]

end

def stampMarks : Datum → List Nat :=
  fold (fun | .stamp _ mark => [mark] | _ => []) List.flatten (List.flatMap Prod.snd)

theorem stampMarks_seq (items : List Datum) : stampMarks (.seq items) = items.flatMap stampMarks :=
  fold_seq _ _ _ items

theorem stampMarks_map (entries : List (String × Datum)) :
    stampMarks (.map entries) = entries.flatMap fun entry => entry.2.stampMarks := by
  rw [stampMarks, fold_map, List.flatMap_map]

end Datum

end TagScript

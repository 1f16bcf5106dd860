import TagScript.Datum.Order
import TagScript.Datum.Literal
import TagScript.Fault

/-!
Values and the store of containers. Sequences and mappings are shared, so a value holds a reference
to a cell, and the store holds the cells. Functions and stamps never change but are told apart, so
they have cells without contents.
-/

namespace TagScript

abbrev Ref := Nat

/-- A value of the language. -/
inductive Value where
  | none
  | bool (b : Bool)
  | num (n : Num)
  | int (i : Int)
  | str (s : String)
  | seq (ref : Ref)
  | map (ref : Ref)
  | error (record : ErrorRecord)
  | func (name : String) (params : List String) (ref : Ref)
  | stamp (stamp : Stamp) (ref : Ref)
  deriving Inhabited

/-- The contents of a container; a function or a stamp has none. -/
inductive Cell where
  | seq (items : List Value)
  | map (entries : Assoc Value)
  | hollow

/-- The containers made so far, and the next mark for a result that is not a number. -/
structure Store where
  cells : Array Cell
  nextMark : Nat

namespace Value

def ofFloat (x : Float) : Value := .num (Num.ofFloat x)

def leaf : Value → Datum
  | .none => .none
  | .bool b => .bool b
  | .num n => .num n
  | .int i => .int i
  | .str s => .str s
  | .seq _ => .seq []
  | .map _ => .map []
  | .error r => .error r
  | .func name params r => .func name params r
  | .stamp t r => .stamp t r

def className (v : Value) : String := v.leaf.className

def typeTag (v : Value) : String := v.leaf.typeTag

def ref? : Value → Option Ref
  | .seq r => some r
  | .map r => some r
  | .func _ _ r => some r
  | .stamp _ r => some r
  | _ => Option.none

def mapRef (f : Ref → Ref) : Value → Value
  | .seq r => .seq (f r)
  | .map r => .map (f r)
  | .func name params r => .func name params (f r)
  | .stamp t r => .stamp t (f r)
  | v => v

end Value

namespace Cell

def values : Cell → List Value
  | .seq items => items
  | .map entries => entries.map Prod.snd
  | .hollow => []

def refs (c : Cell) : List Ref :=
  c.values.filterMap Value.ref?

def mapRefs (f : Ref → Ref) : Cell → Cell
  | .seq items => .seq (items.map (Value.mapRef f))
  | .map entries => .map (entries.map fun entry => (entry.1, entry.2.mapRef f))
  | .hollow => .hollow

end Cell

namespace Store

def empty : Store := ⟨#[], Num.firstFreshMark⟩

def cell (s : Store) (r : Ref) : Cell :=
  s.cells.getD r (.seq [])

def items (s : Store) (r : Ref) : List Value :=
  match s.cell r with
  | .seq items => items
  | _ => []

def entries (s : Store) (r : Ref) : Assoc Value :=
  match s.cell r with
  | .map entries => entries
  | _ => []

def alloc (s : Store) (c : Cell) : Ref × Store :=
  (s.cells.size, { s with cells := s.cells.push c })

def newSeq (s : Store) (items : List Value) : Value × Store :=
  let (r, s) := s.alloc (.seq items)
  (.seq r, s)

def newMap (s : Store) (entries : Assoc Value) : Value × Store :=
  let (r, s) := s.alloc (.map entries)
  (.map r, s)

def write (s : Store) (r : Ref) (c : Cell) : Store :=
  { s with cells := s.cells.setIfInBounds r c }

def number (s : Store) (x : Float) : Value × Store :=
  if x.isNaN then (.num ⟨x, s.nextMark⟩, { s with nextMark := s.nextMark + 1 })
  else (.num ⟨x, 0⟩, s)

def read (s : Store) : Nat → Value → Except Value Datum
  | _, .none => .ok .none
  | _, .bool b => .ok (.bool b)
  | _, .num n => .ok (.num n)
  | _, .int i => .ok (.int i)
  | _, .str t => .ok (.str t)
  | _, .error r => .ok (.error r)
  | _, .func name params r => .ok (.func name params r)
  | _, .stamp t r => .ok (.stamp t r)
  | 0, .seq r => .error (.seq r)
  | 0, .map r => .error (.map r)
  | depth + 1, .seq r => ((s.items r).mapM (s.read depth)).map .seq
  | depth + 1, .map r =>
    ((s.entries r).mapM fun entry => (s.read depth entry.2).map fun d => (entry.1, d)).map .map

def depth (s : Store) : Nat := s.cells.size + 1

def datum? (s : Store) (v : Value) : Option Datum :=
  (s.read s.depth v).toOption

def datum (s : Store) (v : Value) : Except Fault Datum :=
  (s.read s.depth v).mapError fun _ => .endless false

/-- The plain form of the tree that a value stands for, or a fault. It takes a comparison to tell a
mapping from other things. -/
def wire (s : Store) (v : Value) : Except Fault Datum :=
  match s.read s.depth v, v with
  | .ok d, _ => .ok d.wire
  | .error _, .map _ => .error (.endless true)
  | .error _, _ => .error (.endless false)

mutual

def buildAt (place : Nat → Ref) (s : Store) : Datum → Value × Store
  | .none => (.none, s)
  | .bool b => (.bool b, s)
  | .num n => if n.mark = Num.unmarked then s.number n.val else (.num n, s)
  | .int i => (.int i, s)
  | .str t => (.str t, s)
  | .error r => (.error r, s)
  | .func name params _ =>
    let (r, s) := s.alloc .hollow
    (.func name params r, s)
  | .stamp t mark => (.stamp t (place mark), s)
  | .seq items =>
    let (vs, s) := s.buildItemsAt place items
    s.newSeq vs
  | .map entries =>
    let (vs, s) := s.buildEntriesAt place entries
    s.newMap vs

def buildItemsAt (place : Nat → Ref) (s : Store) : List Datum → List Value × Store
  | [] => ([], s)
  | d :: rest =>
    let (v, s) := s.buildAt place d
    let (vs, s) := s.buildItemsAt place rest
    (v :: vs, s)

def buildEntriesAt (place : Nat → Ref) (s : Store) : List (String × Datum) → Assoc Value × Store
  | [] => ([], s)
  | entry :: rest =>
    let (e, s) := s.buildEntryAt place entry
    let (es, s) := s.buildEntriesAt place rest
    (e :: es, s)

def buildEntryAt (place : Nat → Ref) (s : Store) : String × Datum → (String × Value) × Store
  | (name, d) =>
    let (v, s) := s.buildAt place d
    ((name, v), s)

end

def allocMarks (s : Store) (marks : List Nat) : (Nat → Ref) × Store :=
  let base := s.cells.size
  (fun mark => base + (marks.findIdx? (· == mark)).getD 0,
    { s with cells := s.cells ++ (marks.map fun _ => Cell.hollow).toArray })

def build (s : Store) (d : Datum) : Value × Store :=
  let (place, s) := s.allocMarks d.stampMarks.eraseDups
  s.buildAt place d

def buildEntries (s : Store) (entries : List (String × Datum)) : Assoc Value × Store :=
  let (place, s) := s.allocMarks (Datum.map entries).stampMarks.eraseDups
  s.buildEntriesAt place entries

def visit (s : Store) : Nat → List Ref → Ref → List Ref
  | 0, seen, _ => seen
  | depth + 1, seen, r =>
    if seen.contains r then seen else (s.cell r).refs.foldl (s.visit depth) (r :: seen)

def reachable (s : Store) (vs : List Value) : List Ref :=
  (vs.filterMap Value.ref?).foldl (s.visit (s.cells.size + 1)) []

def renamed (copied : List Ref) (base : Nat) (r : Ref) : Ref :=
  match copied.findIdx? (· == r) with
  | some i => base + i
  | Option.none => r

def copyEntries (s : Store) (entries : Assoc Value) : Assoc Value × Store :=
  let copied := s.reachable (entries.map Prod.snd)
  let rename := renamed copied s.cells.size
  (entries.map fun entry => (entry.1, entry.2.mapRef rename),
    { s with cells := s.cells ++ (copied.map fun r => (s.cell r).mapRefs rename).toArray })

def truthy (s : Store) : Value → Bool
  | .none => false
  | .bool b => b
  | .num n => !n.val.isNaN && n.val != 0
  | .int i => i != 0
  | .str t => !t.isEmpty
  | .seq r => !(s.items r).isEmpty
  | .map r => !(s.entries r).isEmpty
  | .error _ => true
  | .func _ _ _ => true
  | .stamp t _ => t.truthy

def textWithin (s : Store) : Nat → Value → Except Fault String
  | 0, .seq _ => .error (.endless false)
  | depth + 1, .seq r => ((s.items r).mapM (s.textWithin depth)).map (Text.joined ",")
  | _, .map r => do (Json.write Json.compact 0 (← s.wire (.map r))).mapError unwritable
  | _, v => v.leaf.text.mapError unwritable
where
  /-- The fault of a value of a class that has no text inside a mapping. -/
  unwritable (className : String) : Fault := .wrongType (Json.unwritable className)

def text (s : Store) (v : Value) : Except Fault String :=
  s.textWithin s.depth v

end Store

end TagScript

import TagScript.Datum.Basic

/-!
Equality and order of data. Truth values count as zero and one, mappings are equal in any order of
their names, and sequences are ordered by their first difference.
-/

namespace TagScript.Datum

def whole? : Datum → Option Int
  | .bool b => some (if b then 1 else 0)
  | .int i => some i
  | _ => Option.none

def compareFloats (a b : Float) : Option Ordering :=
  if a < b then some .lt
  else if a > b then some .gt
  else if a == b then some .eq
  else Option.none

def compareWhole (i : Int) (x : Float) : Option Ordering :=
  if x.isNaN then Option.none else some (Binary64.compareInt i x)

def compareNumbers? (a b : Datum) : Option (Option Ordering) :=
  match a, b with
  | .num x, .num y => some (compareFloats x.val y.val)
  | .num x, b => b.whole?.map fun i => (compareWhole i x.val).map Ordering.swap
  | a, .num y => a.whole?.map fun i => compareWhole i y.val
  | a, b =>
    match a.whole?, b.whole? with
    | some i, some j => some (some (compare i j))
    | _, _ => Option.none

mutual

def equal : Datum → Datum → Bool
  | .none, .none => true
  | .str a, .str b => a = b
  | .seq a, .seq b => equalItems a b
  | .map a, .map b => a.length = b.length && equalEntries a b
  | .error a, .error b => a = b
  | .func _ _ a, .func _ _ b => a = b
  | .stamp a _, .stamp b _ => a.same b
  | a, b =>
    match compareNumbers? a b with
    | some (some .eq) => true
    | _ => false

def equalItems : List Datum → List Datum → Bool
  | [], [] => true
  | a :: as, b :: bs => sameItem a b && equalItems as bs
  | _, _ => false

def equalEntries : List (String × Datum) → List (String × Datum) → Bool
  | [], _ => true
  | entry :: rest, others => entryIn entry others && equalEntries rest others

def entryIn : String × Datum → List (String × Datum) → Bool
  | (name, a), others =>
    match Assoc.get? name others with
    | some b => sameItem a b
    | Option.none => false

def sameItem : Datum → Datum → Bool
  | .num a, .num b => a.identical b || a.val == b.val
  | a, b => equal a b

end

def canBeName : Datum → Bool
  | .seq _ => false
  | .map _ => false
  | .error _ => false
  | .func _ _ _ => false
  | _ => true

def setEntry {α : Type} (name : Datum) (value : α) : List (Datum × α) → List (Datum × α)
  | [] => [(name, value)]
  | (other, old) :: rest =>
    if sameItem other name then (other, value) :: rest else (other, old) :: setEntry name value rest

/-- Entries without repeated names: each keeps its first place and takes its last value. -/
def distinctEntries {α : Type} (entries : List (Datum × α)) : List (Datum × α) :=
  entries.foldl (fun done (name, value) => setEntry name value done) []

mutual

def before? : Datum → Datum → Option Bool
  | .str a, .str b => some (a < b)
  | .seq a, .seq b => itemsBefore? a b
  | .stamp a _, .stamp b _ => if a.comparable b then some (a.instant < b.instant) else Option.none
  | a, b => (compareNumbers? a b).map (· == some .lt)

def itemsBefore? : List Datum → List Datum → Option Bool
  | [], bs => some (!bs.isEmpty)
  | _ :: _, [] => some false
  | a :: as, b :: bs => if sameItem a b then itemsBefore? as bs else before? a b

end

end TagScript.Datum

import TagScript.Value

/-!
Equality and order of values. An item is equal to itself without a look inside it. So values that
contain themselves can be compared as long as a difference, or a container met with itself, ends the
comparison; otherwise that is a fault.
-/

namespace TagScript

def Value.identical : Value → Value → Bool
  | .num a, .num b => a.identical b
  | .seq r, .seq q => r == q
  | .map r, .map q => r == q
  | _, _ => false

namespace Store

def sameItem (test : Value → Value → Except Fault Bool) (a b : Value) : Except Fault Bool :=
  if a.identical b then .ok true else test a b

def sameItems (test : Value → Value → Except Fault Bool) : List Value → List Value → Except Fault Bool
  | [], [] => .ok true
  | a :: as, b :: bs => do if ← sameItem test a b then sameItems test as bs else return false
  | _, _ => .ok false

def sameEntries (test : Value → Value → Except Fault Bool) (others : Assoc Value) :
    Assoc Value → Except Fault Bool
  | [] => .ok true
  | (name, a) :: rest => do
    match Assoc.get? name others with
    | none => return false
    | some b => if ← sameItem test a b then sameEntries test others rest else return false

/-- Whether two values are equal, by a comparison down to the given depth. The containers that are
being compared are given with the innermost first; two that are met again in the same places go down
without end. -/
def equalWithin (s : Store) : Nat → List (Ref × Ref) → Value → Value → Except Fault Bool
  | depth, above, .seq r, .seq q =>
    if (s.items r).length ≠ (s.items q).length then .ok false
    else if above.contains (r, q) then .error (.endless true)
    else
      match depth with
      | 0 => .error (.endless true)
      | depth + 1 => sameItems (s.equalWithin depth ((r, q) :: above)) (s.items r) (s.items q)
  | depth, above, .map r, .map q =>
    if (s.entries r).length ≠ (s.entries q).length then .ok false
    else if above.contains (r, q) then .error (.endless true)
    else
      match depth with
      | 0 => .error (.endless true)
      | depth + 1 => sameEntries (s.equalWithin depth ((r, q) :: above)) (s.entries q) (s.entries r)
  | _, _, a, b => .ok (a.leaf.equal b.leaf)

def comparisonDepth (s : Store) : Nat := s.depth * s.depth

def equal (s : Store) (a b : Value) : Except Fault Bool :=
  s.equalWithin s.comparisonDepth [] a b

def itemsBefore (equal before : Value → Value → Except Fault Bool) :
    List Value → List Value → Except Fault Bool
  | [], bs => .ok (!bs.isEmpty)
  | _ :: _, [] => .ok false
  | a :: as, b :: bs => do if ← sameItem equal a b then itemsBefore equal before as bs else before a b

def beforeWithin (s : Store) : Nat → Value → Value → Except Fault Bool
  | 0, .seq _, .seq _ => .error (.endless true)
  | depth + 1, .seq r, .seq q => itemsBefore s.equal (s.beforeWithin depth) (s.items r) (s.items q)
  | _, a, b => (Datum.before? a.leaf b.leaf).elim (.error (.type .unorderedItems)) .ok

def before (s : Store) (a b : Value) : Except Fault Bool :=
  s.beforeWithin s.comparisonDepth a b

end Store

end TagScript

/-!
Sorting by merging runs, by a comparison that may fail. Short runs are filled up by insertion. While
one of two runs keeps giving the next item, the merge looks for the end of its lead in strides that
double. Equal items keep their order. If a comparison fails, the list is left as far as it got.
-/

namespace TagScript.Sorting

variable {ε α : Type}

/-! ### Runs and insertion -/

def runLength (before : α → α → Except ε Bool) : List α → Except ε (Nat × Bool)
  | first :: second :: rest => do
    let falling ← before second first
    let rec go (last : α) (count : Nat) : List α → Except ε Nat
      | [] => .ok count
      | x :: xs => do
        if (← before x last) == falling then go x (count + 1) xs else .ok count
    return (← go second 2 rest, falling)
  | xs => .ok (xs.length, false)

def place (before : α → α → Except ε Bool) (sorted : Array α) (x : α) :
    Nat → Nat → Nat → Except ε Nat
  | 0, low, _ => .ok low
  | fuel + 1, low, high =>
    if low < high then
      let middle := low + (high - low) / 2
      match sorted[middle]? with
      | none => .ok low
      | some y => do
        if ← before x y then place before sorted x fuel low middle
        else place before sorted x fuel (middle + 1) high
    else .ok low

/-- Puts items into a list in order, one after the other. If a comparison fails, those put in stay
and the others follow as they are. -/
def insertAll (before : α → α → Except ε Bool) (sorted : Array α) : List α → Option ε × List α
  | [] => (none, sorted.toList)
  | x :: rest =>
    match place before sorted x (sorted.size + 1) 0 sorted.size with
    | .error e => (some e, sorted.toList ++ x :: rest)
    | .ok i => insertAll before (sorted.insertIdxIfInBounds i x) rest

/-! ### Leads -/

/-- The end of a lead between two places, by halving. The middle is rounded towards the front of the
whole list, which `fromBack` says is given in reverse. -/
def halve (leads : α → Except ε Bool) (fromBack : Bool) (xs : Array α) : Nat → Nat → Nat → Except ε Nat
  | 0, low, _ => .ok low
  | fuel + 1, low, high =>
    if low < high then
      let middle := if fromBack then high - 1 - (high - low) / 2 else low + (high - low) / 2
      match xs[middle]? with
      | none => .ok low
      | some x => do
        if ← leads x then halve leads fromBack xs fuel (middle + 1) high
        else halve leads fromBack xs fuel low middle
    else .ok low

def stride (leads : α → Except ε Bool) (xs : Array α) : Nat → Nat → Nat → Except ε (Nat × Nat)
  | 0, last, next => .ok (last, next)
  | fuel + 1, last, next =>
    match xs[next]? with
    | none => .ok (last, xs.size)
    | some x => do
      if ← leads x then stride leads xs fuel next (2 * next + 1) else .ok (last, next)

def leadLength (leads : α → Except ε Bool) (fromBack : Bool) (xs : List α) : Except ε Nat :=
  match xs with
  | [] => .ok 0
  | x :: _ => do
    if ← leads x then
      let xs := xs.toArray
      let (last, next) ← stride leads xs xs.size 0 1
      halve leads fromBack xs xs.size (last + 1) next
    else .ok 0

/-! ### Merging two runs -/

/-- A merge under way. Ties go to the run `held`, `moved` is the other one, and `out` is what has been merged,
last first. A run that wins `patience` times in a row is gone through in strides. -/
structure Merge (α : Type) where
  held : List α
  moved : List α
  out : List α
  patience : Nat

/-- How a merge goes on: item by item after so many wins in a row of each run, or in strides. -/
inductive Pace where
  | items (heldWins movedWins : Nat)
  | strides

/-- Where a step leaves a merge: with items of both runs left, or with the order of all settled, or
at a comparison that failed. -/
inductive Progress (ε α : Type) where
  | onward (merge : Merge α)
  | settled (merge : Merge α)
  | stuck (failure : ε) (merge : Merge α)

/-- What a merge comes to: the comparison that failed, if one did, the items, and the patience for
the next. -/
structure Merged (ε α : Type) where
  failure : Option ε
  items : List α
  patience : Nat

def longLead : Nat := 7

namespace Merge

def close (m : Merge α) (failure : Option ε) : Merged ε α :=
  ⟨failure, m.out.reverse ++ m.held ++ m.moved, m.patience⟩

def putHeld (m : Merge α) (n : Nat) : Merge α :=
  { m with held := m.held.drop n, out := (m.held.take n).reverse ++ m.out }

def putMoved (m : Merge α) (n : Nat) : Merge α :=
  { m with moved := m.moved.drop n, out := (m.moved.take n).reverse ++ m.out }

/-- Whether items of both runs are left. The last item of the held run is known to belong at the
end. -/
def progress (m : Merge α) : Progress ε α :=
  match m.held, m.moved with
  | [], _ | _, [] => .settled m
  | [_], moved => .settled { m with moved := [], out := moved.reverse ++ m.out }
  | _, _ => .onward m

def strideHeld (before : α → α → Except ε Bool) (fromBack : Bool) (m : Merge α) : Progress ε α × Nat :=
  match m.moved with
  | [] => (.settled m, 0)
  | key :: _ =>
    match leadLength (fun x => (before key x).map (!·)) fromBack m.held with
    | .error e => (.stuck e m, 0)
    | .ok lead =>
      match (m.putHeld lead).progress with
      | .onward m => ((m.putMoved 1).progress, lead)
      | ended => (ended, lead)

def strideMoved (before : α → α → Except ε Bool) (fromBack : Bool) (m : Merge α) : Progress ε α × Nat :=
  match m.held with
  | [] => (.settled m, 0)
  | key :: _ =>
    match leadLength (fun x => before x key) fromBack m.moved with
    | .error e => (.stuck e m, 0)
    | .ok lead =>
      match (m.putMoved lead).progress with
      | .onward m => ((m.putHeld 1).progress, lead)
      | ended => (ended, lead)

/-- Puts out the leads of both runs, that of the run at the front of the whole list first. The
Boolean says whether one of them was long. -/
def strideBoth (before : α → α → Except ε Bool) (fromBack : Bool) (m : Merge α) : Progress ε α × Bool :=
  let first := if fromBack then strideMoved else strideHeld
  let second := if fromBack then strideHeld else strideMoved
  match first before fromBack m with
  | (.onward m, lead) =>
    let (progress, other) := second before fromBack m
    (progress, longLead ≤ lead || longLead ≤ other)
  | (ended, _) => (ended, false)

/-- Carries a merge through. The first argument bounds the number of steps; each puts out an item at
least. -/
def run (before : α → α → Except ε Bool) (fromBack : Bool) : Nat → Pace → Merge α → Merged ε α
  | 0, _, m => m.close none
  | fuel + 1, .strides, m =>
    match ({ m with patience := if m.patience > 1 then m.patience - 1 else m.patience }).strideBoth
      before fromBack with
    | (.onward m, true) => m.run before fromBack fuel .strides
    | (.onward m, false) => { m with patience := m.patience + 1 }.run before fromBack fuel (.items 0 0)
    | (.settled m, _) => m.close none
    | (.stuck e m, _) => m.close (some e)
  | fuel + 1, .items heldWins movedWins, m =>
    match m.held, m.moved with
    | x :: _, y :: _ =>
      match before y x with
      | .error e => m.close (some e)
      | .ok movedFirst =>
        let (m, wins, pace) :=
          if movedFirst then (m.putMoved 1, movedWins + 1, Pace.items 0 (movedWins + 1))
          else (m.putHeld 1, heldWins + 1, Pace.items (heldWins + 1) 0)
        match m.progress with
        | .onward m =>
          if m.patience ≤ wins then { m with patience := m.patience + 1 }.run before fromBack fuel .strides
          else m.run before fromBack fuel pace
        | .settled m => m.close none
        | .stuck e m => m.close (some e)
    | _, _ => m.close none

def start (before : α → α → Except ε Bool) (fromBack : Bool) (patience : Nat) (held moved : List α) :
    Merged ε α :=
  match (Merge.mk held moved [] patience |>.putMoved 1).progress with
  | .onward m => m.run before fromBack (held.length + moved.length) (.items 0 0)
  | .settled m => m.close none
  | .stuck e m => m.close (some e)

end Merge

/-- Merges two runs side by side. What stands in place already, at the front of the first and at the
back of the second, is left out; of the rest the shorter run is held, and the merge goes from the
front or, on both runs in reverse, from the back. -/
def mergeRuns (before : α → α → Except ε Bool) (patience : Nat) (left right : List α) : Merged ε α :=
  let unchanged (failure : Option ε) : Merged ε α := ⟨failure, left ++ right, patience⟩
  match right.head? with
  | none => unchanged none
  | some first =>
    match leadLength (fun x => (before first x).map (!·)) false left with
    | .error e => unchanged (some e)
    | .ok inFront =>
      let inner := left.drop inFront
      match inner.getLast? with
      | none => unchanged none
      | some last =>
        match leadLength (fun x => (before x last).map (!·)) true right.reverse with
        | .error e => unchanged (some e)
        | .ok behind =>
          let outer := right.take (right.length - behind)
          if outer.isEmpty then unchanged none
          else
            let merged :=
              if inner.length ≤ outer.length then Merge.start before false patience inner outer
              else
                let merged := Merge.start (fun x y => before y x) true patience outer.reverse inner.reverse
                { merged with items := merged.items.reverse }
            { merged with items := left.take inFront ++ merged.items ++ right.drop outer.length }

/-! ### Which runs are merged -/

/-- A run, and how deep the boundary behind it lies in the halving of the whole list. -/
structure Run (α : Type) where
  items : List α
  depth : Nat

/-- The runs found so far, last first, and the patience of their merges. -/
structure Pile (α : Type) where
  runs : List (Run α)
  patience : Nat

def differingPlace (length : Nat) : Nat → Nat → Nat → Nat
  | 0, _, _ => 0
  | fuel + 1, a, b =>
    if length ≤ a then differingPlace length fuel (2 * (a - length)) (2 * (b - length)) + 1
    else if length ≤ b then 1
    else differingPlace length fuel (2 * a) (2 * b) + 1

def boundaryDepth (length start left right : Nat) : Nat :=
  differingPlace length (length + 1) (2 * start + left) (2 * start + 2 * left + right)

/-- The length that runs are filled up to: that of the whole list if it is short, otherwise from 32
to 64, so that the number of runs is a power of two or a little less. -/
def leastRun (n : Nat) : Nat :=
  let rec go : Nat → Nat → Nat → Nat
    | 0, n, odd => n + odd
    | fuel + 1, n, odd => if n < 64 then n + odd else go fuel (n / 2) (if n % 2 = 1 then 1 else odd)
  go n n 0

namespace Pile

def items (p : Pile α) : List α :=
  (p.runs.reverse.map Run.items).flatten

def mergeDeeper (before : α → α → Except ε Bool) (depth patience : Nat) (last : List α) :
    List (Run α) → Option ε × Pile α
  | [] => (none, ⟨[⟨last, depth⟩], patience⟩)
  | run :: runs =>
    if depth < run.depth then
      let merged := mergeRuns before patience run.items last
      if merged.failure.isNone then mergeDeeper before depth merged.patience merged.items runs
      else (merged.failure, ⟨⟨merged.items, depth⟩ :: runs, merged.patience⟩)
    else (none, ⟨⟨last, depth⟩ :: run :: runs, patience⟩)

def push (before : α → α → Except ε Bool) (length : Nat) (p : Pile α) (items : List α) :
    Option ε × Pile α :=
  match p.runs with
  | [] => (none, { p with runs := [⟨items, 0⟩] })
  | last :: runs =>
    let start := { p with runs := runs }.items.length
    let depth := boundaryDepth length start last.items.length items.length
    let (failure, p) := mergeDeeper before depth p.patience last.items runs
    (failure, { p with runs := ⟨items, 0⟩ :: p.runs })

def mergeAll (before : α → α → Except ε Bool) : Nat → Pile α → Option ε × List α
  | fuel + 1, ⟨third :: second :: first :: runs, patience⟩ =>
    if first.items.length < third.items.length then
      let merged := mergeRuns before patience first.items second.items
      let p : Pile α := ⟨third :: ⟨merged.items, 0⟩ :: runs, merged.patience⟩
      if merged.failure.isNone then mergeAll before fuel p else (merged.failure, p.items)
    else
      let merged := mergeRuns before patience second.items third.items
      let p : Pile α := ⟨⟨merged.items, 0⟩ :: first :: runs, merged.patience⟩
      if merged.failure.isNone then mergeAll before fuel p else (merged.failure, p.items)
  | _ + 1, ⟨[second, first], patience⟩ =>
    let merged := mergeRuns before patience first.items second.items
    (merged.failure, merged.items)
  | _, p => (none, p.items)

end Pile

/-! ### Sorting -/

def sortRest (before : α → α → Except ε Bool) (length : Nat) : Nat → Pile α → List α → Option ε × List α
  | _, p, [] => p.mergeAll before p.runs.length
  | 0, p, xs => (none, p.items ++ xs)
  | fuel + 1, p, xs =>
    match runLength before xs with
    | .error e => (some e, p.items ++ xs)
    | .ok (count, falling) =>
      let front := xs.take count
      let filled := max count (min (leastRun length) xs.length)
      let (failure, run) := insertAll before (if falling then front.reverse else front).toArray
        ((xs.take filled).drop count)
      let rest := xs.drop filled
      if failure.isSome then (failure, p.items ++ run ++ rest)
      else
        let (failure, p) := p.push before length run
        if failure.isSome then (failure, p.items ++ rest) else sortRest before length fuel p rest

/-- Sorts a list, equal items in their order. If a comparison fails, the answer has its failure and
the list is left as far as it got. -/
def sorted (before : α → α → Except ε Bool) (xs : List α) : Option ε × List α :=
  sortRest before xs.length xs.length ⟨[], longLead⟩ xs

end TagScript.Sorting

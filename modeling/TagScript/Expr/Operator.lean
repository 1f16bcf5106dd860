import TagScript.Expr.Postfix
import TagScript.Value.Comparison

/-!
What the operators do. Arithmetic is that of doubles; plus also joins texts and sequences.
-/

namespace TagScript.Expr

/-- A value that arithmetic takes. -/
inductive Numeric where
  | whole (i : Int)
  | real (n : Num)

def Numeric.of? : Value → Option Numeric
  | .bool b => some (.whole (if b then 1 else 0))
  | .int i => some (.whole i)
  | .num n => some (.real n)
  | _ => none

def Numeric.float : Numeric → Except Fault Float
  | .whole i => (Binary64.ofInt? i).elim (.error .tooLarge) .ok
  | .real n => .ok n.val

def Numeric.isZero : Numeric → Bool
  | .whole i => i == 0
  | .real n => n.val == 0

def notANumber : Value := .num ⟨Binary64.notANumber, Num.constantMark⟩

def requireNumbers (symbol : Symbol) (a b : Value) : Except Fault (Numeric × Numeric) :=
  match Numeric.of? a, Numeric.of? b with
  | some x, some y => .ok (x, y)
  | _, _ => .error (.type (.expectsNumbers symbol.text a.className b.className))

/-- Sum, difference or product. Whole numbers are computed exactly before they become a double. -/
def arithmetic (store : Store) (whole : Int → Int → Int) (real : Float → Float → Float)
    (x y : Numeric) : Except Fault (Value × Store) :=
  match x, y with
  | .whole i, .whole j => do
    let z ← (Numeric.whole (whole i j)).float
    return store.number z
  | x, y => do
    let a ← x.float
    let b ← y.float
    return store.number (real a b)

def divide (store : Store) (a b : Float) : Value × Store :=
  if b == 0 then
    if a == 0 || a.isNaN then (notANumber, store)
    else if Binary64.isNegative a != Binary64.isNegative b then (.ofFloat (-Binary64.infinity), store)
    else (.ofFloat Binary64.infinity, store)
  else store.number (a / b)

def remainder (store : Store) (a b : Float) : Except Fault (Value × Store) :=
  if a.isNaN || b.isNaN then .ok (store.number (a + b))
  else if !Binary64.isFinite a then .error .domain
  else if !Binary64.isFinite b then .ok (store.number a)
  else .ok (store.number (Binary64.remainder a b))

def isOdd (x : Float) : Bool :=
  Binary64.isFinite x && Binary64.isWhole x && Binary64.truncate x % 2 != 0

def powerOfZero (store : Store) (zero b : Float) : Value × Store :=
  if b.isNaN then store.number b
  else if b == 0 then (.ofFloat 1, store)
  else if Binary64.isNegative b then (.ofFloat Binary64.infinity, store)
  else (.ofFloat (if isOdd b then zero else 0), store)

def power (store : Store) (a b : Float) : Value × Store :=
  let r := Float.pow a b
  if a == 0 then powerOfZero store a b
  else if Binary64.isFinite a && Binary64.isFinite b then
    if r.isNaN then (notANumber, store)
    else if !Binary64.isFinite r then (.ofFloat Binary64.infinity, store)
    else (.ofFloat r, store)
  else store.number r

def plus (store : Store) (a b : Value) : Except Fault (Value × Store) :=
  let joinTexts : Except Fault (Value × Store) := do
    let s ← store.text a
    let t ← store.text b
    return (.str (s ++ t), store)
  match a, b with
  | .str _, _ => joinTexts
  | _, .str _ => joinTexts
  | .seq r, .seq q => .ok (store.newSeq (store.items r ++ store.items q))
  | a, b => do
    let (x, y) ← requireNumbers .add a b
    arithmetic store (· + ·) (· + ·) x y

def ordered (symbol : Symbol) (a b : Value) : Except Fault Bool :=
  let holds (o : Option Ordering) : Bool :=
    match symbol, o with
    | .lt, some .lt => true
    | .le, some .lt => true
    | .le, some .eq => true
    | .gt, some .gt => true
    | .ge, some .gt => true
    | .ge, some .eq => true
    | _, _ => false
  let order : Option (Option Ordering) :=
    match a, b with
    | .str s, .str t => some (some (compare s t))
    | a, b => Datum.compareNumbers? a.leaf b.leaf
  match order with
  | some o => .ok (holds o)
  | none => .error (.type (.incomparable a.className b.className symbol.text))

def applyBinary (store : Store) (symbol : Symbol) (a b : Value) : Except Fault (Value × Store) :=
  match symbol with
  | .add => plus store a b
  | .sub => do
    let (x, y) ← requireNumbers symbol a b
    arithmetic store (· - ·) (· - ·) x y
  | .mul => do
    let (x, y) ← requireNumbers symbol a b
    arithmetic store (· * ·) (· * ·) x y
  | .div => do
    let (x, y) ← requireNumbers symbol a b
    return divide store (← x.float) (← y.float)
  | .rem => do
    let (x, y) ← requireNumbers symbol a b
    if y.isZero then return (notANumber, store)
    remainder store (← x.float) (← y.float)
  | .pow => do
    let (x, y) ← requireNumbers symbol a b
    return power store (← x.float) (← y.float)
  | .eq => return (.bool (← store.equal a b), store)
  | .ne => return (.bool !(← store.equal a b), store)
  | .lt | .le | .gt | .ge => return (.bool (← ordered symbol a b), store)
  | .and => .ok (if store.truthy a then b else a, store)
  | .or => .ok (if store.truthy a then a else b, store)
  | .bang => .error (.lex (.invalidOperator symbol.text))

def applyUnary (store : Store) (sign : Sign) (a : Value) : Except Fault (Value × Store) :=
  match sign, Numeric.of? a with
  | .not, _ => .ok (.bool !(store.truthy a), store)
  | .neg, some x => do return store.number (-(← x.float))
  | .pos, some (.real n) => .ok (.num n, store)
  | .pos, some x => do return store.number (← x.float)
  | .neg, none => .error (.type (.expectsNumber '-' a.className))
  | .pos, none => .error (.type (.expectsNumber '+' a.className))

def applyNamed (store : Store) (operator : String) (a b : Value) : Except Fault (Value × Store) :=
  match Symbol.ofText? operator with
  | some symbol => applyBinary store symbol a b
  | none => .error (.lex (.invalidOperator operator))

/-- One step along a dotted path: an entry of a mapping, an item or the length of a sequence, the
length of a text, or a part of a failure. -/
def member (store : Store) (value : Value) (segment path : String) : Except Fault Value :=
  match value with
  | .map r => (Assoc.get? segment (store.entries r)).elim (.error (.undefined path)) .ok
  | .seq r =>
    let items := store.items r
    if Text.allDigits segment then
      match Reading.int segment with
      | .error message => .error (.value message)
      | .ok i => items[i.toNat]?.elim (.error (.undefined path)) .ok
    else if segment == "length" then .ok (.ofFloat items.length.toFloat)
    else .error (.undefined path)
  | .str s =>
    if segment == "length" then .ok (.ofFloat s.length.toFloat) else .error (.undefined path)
  | .error r =>
    if segment == "message" then .ok (.str r.message)
    else if segment == "kind" then .ok (.str r.kind)
    else .error (.undefined path)
  | _ => .error (.undefined path)

end TagScript.Expr

/-!
Doubles as whole numbers times powers of two. A ratio of whole numbers is rounded to the nearest
double, a tie going to the even mantissa.
-/

namespace TagScript.Binary64

/-- The finite double `± mantissa * 2 ^ exponent`. -/
structure Parts where
  negative : Bool
  mantissa : Nat
  exponent : Int
  deriving DecidableEq, Repr

def twoTo (n : Nat) : Nat := Nat.pow 2 n

def tenTo (n : Nat) : Nat := Nat.pow 10 n

def parts (x : Float) : Parts :=
  let bits : Nat := x.toBits.toNat
  let fraction : Nat := bits % twoTo 52
  let field : Nat := bits / twoTo 52 % twoTo 11
  if field = 0 then ⟨bits / twoTo 63 = 1, fraction, -1074⟩
  else ⟨bits / twoTo 63 = 1, twoTo 52 + fraction, (field : Int) - 1075⟩

def isNegative (x : Float) : Bool :=
  x.toBits.toNat / twoTo 63 = 1

def isFinite (x : Float) : Bool :=
  x.toBits.toNat / twoTo 52 % twoTo 11 ≠ 2047

def isWhole (x : Float) : Bool :=
  let p := parts x
  0 ≤ p.exponent || p.mantissa % twoTo p.exponent.natAbs = 0

def truncate (x : Float) : Int :=
  let p := parts x
  let size : Nat :=
    if 0 ≤ p.exponent then p.mantissa * twoTo p.exponent.toNat
    else p.mantissa / twoTo p.exponent.natAbs
  if p.negative then -(size : Int) else size

def divideNearest (num den : Nat) : Nat :=
  let quotient := num / den
  let twice := 2 * (num % den)
  if twice > den || (twice = den && quotient % 2 = 1) then quotient + 1 else quotient

def scaled (num den : Nat) (exponent : Int) : Nat × Nat :=
  if 0 ≤ exponent then (num, den * twoTo exponent.toNat) else (num * twoTo exponent.natAbs, den)

def exponentFor (num den : Nat) : Int :=
  let guess := max ((num.log2 : Int) - den.log2 - 52) (-1074)
  let (n, d) := scaled num den guess
  if n / d < twoTo 52 && guess > -1074 then guess - 1 else guess

/-- The bits of the double nearest to the quotient of two positive numbers. Rounding up to the next
power of two carries into the exponent field, and what is too large becomes infinity. -/
def nearestBits (num den : Nat) : Nat :=
  let exponent := exponentFor num den
  let (n, d) := scaled num den exponent
  min ((exponent + 1074).toNat * twoTo 52 + divideNearest n d) (2047 * twoTo 52)

def ofRatio (negative : Bool) (num den : Nat) : Float :=
  let size := if num = 0 then 0 else nearestBits num den
  Float.ofBits (UInt64.ofNat (if negative then twoTo 63 + size else size))

def ofInt? (i : Int) : Option Float :=
  let x := ofRatio (i < 0) i.natAbs 1
  if isFinite x then some x else none

def ofDecimal (negative : Bool) (digits : Nat) (exponent : Int) : Float :=
  if digits = 0 then ofRatio negative 0 1
  -- Beyond these bounds the answer is infinity or zero, however many digits there are.
  else if exponent > 400 then ofRatio negative (tenTo 400) 1
  else if exponent + (digits.log2 : Int) < -1200 then ofRatio negative 0 1
  else if 0 ≤ exponent then ofRatio negative (digits * tenTo exponent.toNat) 1
  else ofRatio negative digits (tenTo exponent.natAbs)

def remainder (x y : Float) : Float :=
  let p := parts x
  let q := parts y
  let low := min p.exponent q.exponent
  let rest := p.mantissa * twoTo (p.exponent - low).toNat % (q.mantissa * twoTo (q.exponent - low).toNat)
  let (n, d) := scaled rest 1 (-low)
  ofRatio p.negative n d

def compareInt (i : Int) (x : Float) : Ordering :=
  if isFinite x then
    let p := parts x
    let size : Int := if p.negative then -(p.mantissa : Int) else p.mantissa
    if 0 ≤ p.exponent then compare i (size * twoTo p.exponent.toNat)
    else compare (i * twoTo p.exponent.natAbs) size
  else if isNegative x then .gt else .lt

def infinity : Float := Float.ofBits 0x7ff0000000000000

def notANumber : Float := Float.ofBits 0x7ff8000000000000

end TagScript.Binary64

import TagScript.Number.Binary64

/-!
Numbers as text. A numeral shows the fewest digits that read back as the double: for a growing number
of digits the two decimals next to it are tried.
-/

namespace TagScript.Binary64

/-- The decimal `digits * 10 ^ exponent`. -/
structure Decimal where
  digits : Nat
  exponent : Int
  deriving DecidableEq, Repr

def powerAtMost (power : Int) (num den : Nat) : Bool :=
  if 0 ≤ power then tenTo power.toNat * den ≤ num else den ≤ num * tenTo power.natAbs

def decimalExponent (num den : Nat) : Int :=
  let guess := ((num.log2 : Int) - den.log2) * 30103 / 100000
  if powerAtMost (guess + 1) num den then guess + 1
  else if powerAtMost guess num den then guess
  else guess - 1

/-- The interval of the reals that round to a double, in units of a quarter of its last place. -/
structure Interval where
  low : Nat
  middle : Nat
  high : Nat
  closed : Bool

def interval (p : Parts) : Interval :=
  let narrow := p.mantissa = twoTo 52 && p.exponent > -1074
  { low := 4 * p.mantissa - (if narrow then 1 else 2)
    middle := 4 * p.mantissa
    high := 4 * p.mantissa + 2
    closed := p.mantissa % 2 = 0 }

def Interval.holds (i : Interval) (num den units : Nat) : Bool :=
  if i.closed then i.low * num ≤ units * den && units * den ≤ i.high * num
  else i.low * num < units * den && units * den < i.high * num

/-- Tries the grid of multiples of `10 ^ grid`: of the two neighbours of the double that lie in the
interval, the nearer. A quarter unit of the last place is `num / den` grid steps. -/
def onGrid (i : Interval) (num den : Nat) : Option Nat :=
  let below := i.middle * num / den
  let above := below + 1
  let holdsBelow := below > 0 && i.holds num den below
  let holdsAbove := i.holds num den above
  if holdsBelow && holdsAbove then
    let toBelow := i.middle * num - below * den
    let toAbove := above * den - i.middle * num
    if toBelow < toAbove || (toBelow = toAbove && below % 2 = 0) then some below else some above
  else if holdsBelow then some below
  else if holdsAbove then some above
  else none

def quarterIn (exponent grid : Int) : Nat × Nat :=
  let (n, d) := scaled 1 1 (2 - exponent)
  if 0 ≤ grid then (n, d * tenTo grid.toNat) else (n * tenTo grid.natAbs, d)

def searchDigits (i : Interval) (exponent : Int) : Nat → Int → Decimal
  | 0, grid => ⟨0, grid⟩
  | tries + 1, grid =>
    let (n, d) := quarterIn exponent grid
    match onGrid i n d with
    | some digits => ⟨digits, grid⟩
    | none => searchDigits i exponent tries (grid - 1)

def Decimal.stripZeros : Nat → Decimal → Decimal
  | 0, d => d
  | bound + 1, d =>
    if d.digits ≠ 0 && d.digits % 10 = 0 then Decimal.stripZeros bound ⟨d.digits / 10, d.exponent + 1⟩
    else d

/-- The shortest decimal that reads back as a positive finite double. Seventeen digits always do. -/
def shortest (p : Parts) : Decimal :=
  let (n, d) := scaled p.mantissa 1 (-p.exponent)
  (searchDigits (interval p) p.exponent 17 (decimalExponent n d)).stripZeros 20

end TagScript.Binary64

namespace TagScript.Numeral

def ofNat (n : Nat) : String :=
  String.ofList (Nat.toDigits 10 n)

def ofInt (i : Int) : String :=
  if i < 0 then "-" ++ ofNat i.natAbs else ofNat i.natAbs

def zeros (n : Nat) : String :=
  String.ofList (List.replicate n '0')

def positional (digits : List Char) (whole : Int) : String :=
  if whole ≤ 0 then "0." ++ zeros whole.natAbs ++ String.ofList digits
  else if digits.length ≤ whole.toNat then
    String.ofList digits ++ zeros (whole.toNat - digits.length) ++ ".0"
  else
    String.ofList (digits.take whole.toNat) ++ "." ++ String.ofList (digits.drop whole.toNat)

def scientific (digits : List Char) (exponent : Int) : String :=
  let head := String.ofList (digits.take 1)
  let tail := if digits.length ≤ 1 then "" else "." ++ String.ofList (digits.drop 1)
  let size := ofNat exponent.natAbs
  let padded := if size.length < 2 then "0" ++ size else size
  head ++ tail ++ "e" ++ (if exponent < 0 then "-" else "+") ++ padded

def ofPositive (p : Binary64.Parts) : String :=
  let d := Binary64.shortest p
  let digits := Nat.toDigits 10 d.digits
  let exponent := d.exponent + digits.length - 1
  if -4 ≤ exponent && exponent < 16 then positional digits (exponent + 1)
  else scientific digits exponent

def ofFloat (x : Float) : String :=
  if x.isNaN then "nan"
  else
    let sign := if Binary64.isNegative x then "-" else ""
    if !Binary64.isFinite x then sign ++ "inf"
    else
      let p := Binary64.parts x
      if p.mantissa = 0 then sign ++ "0.0" else sign ++ ofPositive p

def hasExponent (x : Float) : Bool :=
  (ofFloat x).toList.contains 'e'

/-- All digits of the shortest decimal of a finite double, without an exponent: no point if the
exponent was positive, otherwise a point and the zeros that it stood for. -/
def spelledOut (x : Float) : String :=
  let p := Binary64.parts x
  let sign := if p.negative then "-" else ""
  if p.mantissa = 0 then sign ++ "0.0"
  else
    let d := Binary64.shortest p
    let digits := Nat.toDigits 10 d.digits
    if 0 ≤ d.exponent then sign ++ String.ofList digits ++ zeros d.exponent.toNat
    else
      sign ++ positional digits (d.exponent + digits.length)

end TagScript.Numeral

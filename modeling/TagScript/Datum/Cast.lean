import TagScript.Datum.Basic
import TagScript.Fault
import TagScript.Number.Reading

/-!
Data read as numbers. Texts are read as numerals, and truth values count as one and zero.
-/

namespace TagScript.Datum

/-- A number in decimal notation after its sign, and what follows it. Digits are split off as the
first argument says. Too many of them in a whole number are an error. -/
def decimal? (split : List Char → List Char × List Char) (negative : Bool) (cs : List Char) :
    Option (Except Nat Datum × List Char) :=
  match Reading.splitWhole split cs with
  | ([], _) => Option.none
  | (whole, rest) =>
    let (fraction, rest) := Reading.splitFraction split rest
    let (power, rest) := Reading.splitExponent split rest
    let n := Text.decimalNumber (whole ++ fraction)
    if !fraction.isEmpty || power.isSome then
      some (.ok (.num (Num.ofFloat (Binary64.ofDecimal negative n (power.getD 0 - fraction.length)))), rest)
    else if whole.length > Reading.maxDigits then some (.error whole.length, rest)
    else some (.ok (.int (if negative then -(n : Int) else n)), rest)

def toFloat : Datum → Except Fault Float
  | .num n => .ok n.val
  | .int i => (Binary64.ofInt? i).elim (.error .tooLarge) .ok
  | .bool b => .ok (if b then 1 else 0)
  | .str s =>
    (Reading.float? s).elim (.error (.value ("could not convert string to float: " ++ Text.quoted s))) .ok
  | d =>
    .error (.wrongType ("float() argument must be a string or a real number, not '" ++ d.qualifiedName ++ "'"))

def toInt : Datum → Except Fault Int
  | .num n =>
    if n.val.isNaN then .error (.value "cannot convert float NaN to integer")
    else if !Binary64.isFinite n.val then .error (.overflow "cannot convert float infinity to integer")
    else .ok (Binary64.truncate n.val)
  | .int i => .ok i
  | .bool b => .ok (if b then 1 else 0)
  | .str s => (Reading.int s).mapError .value
  | d =>
    .error (.wrongType
      ("int() argument must be a string, a bytes-like object or a real number, not '" ++ d.qualifiedName ++ "'"))

def isPresent : Datum → Bool
  | .num n => n.val != 0
  | d => d.truthy

end TagScript.Datum



/-!
Sets of characters as ranges of code points, and the compact texts in which the larger sets are
written down: blanks, digits, the characters of words, and those that a quoted text shows as
themselves. Some characters only look like digits: they count when a text is scanned, but have no
value.
-/

namespace TagScript.Text

abbrev Ranges := List (Nat × Nat)

def Ranges.has : Ranges → Nat → Bool
  | [], _ => false
  | (first, last) :: rest, c => if c ≤ last then first ≤ c else Ranges.has rest c

/-- The numbers that a text holds. Small letters are leading digits, and a digit or a capital ends a
number. -/
def readNumbers (text : String) : List Nat :=
  let rec go (leading : Nat) : List Char → List Nat
    | [] => []
    | c :: rest =>
      if c.isLower then go (26 * leading + (c.toNat - 97)) rest
      else (36 * leading + (c.toNat - if c.isDigit then 48 else 55)) :: go 0 rest
  go 0 text.toList

def Ranges.ofPairs : Nat → List Nat → Ranges
  | previous, gap :: extent :: rest =>
    let first := previous + gap
    let last := first + extent
    (first, last) :: Ranges.ofPairs last rest
  | _, _ => []

def Ranges.ofGaps (text : String) : Ranges :=
  Ranges.ofPairs 0 (readNumbers text)

/-- The blank code points: the controls from tab to carriage return and from file separator to unit
separator, the space, and the wider blanks of the character standard. -/
def blankRanges : Ranges :=
  [(9, 13), (28, 32), (133, 133), (160, 160), (5760, 5760), (8192, 8202), (8232, 8233), (8239,
   8239), (8287, 8287), (12288, 12288)]

def isBlank (c : Char) : Bool :=
  blankRanges.has c.toNat

def trimLeft (cs : List Char) : List Char :=
  cs.dropWhile isBlank

def trimRight (cs : List Char) : List Char :=
  (cs.reverse.dropWhile isBlank).reverse

def trimChars (cs : List Char) : List Char :=
  trimRight (trimLeft cs)

def trim (s : String) : String :=
  String.ofList (trimChars s.toList)

def allBlank (s : String) : Bool :=
  s.toList.all isBlank

def words (s : String) : List String :=
  let rec go : List Char → List Char → List String
    | [], [] => []
    | [], run => [String.ofList run.reverse]
    | c :: rest, run =>
      if isBlank c then
        if run.isEmpty then go rest [] else String.ofList run.reverse :: go rest []
      else
        go rest (c :: run)
  go s.toList []

def digitText : String :=
  "60bo79dR9fJ9lH9dB9dB9dB9dB9dB9dB9dB9dB9dB9cP9dB9bZ9hR9bZ9u08bfJ9b39iD9dLAeM979f39cF9dR979bd304579bbB8C8C8cI0" ++
    "B820rJ82828bipY9sV9b39fJ9N9cF9lB9wsV9bnB9bnR3uT9i78nM8C9dL9bP9e19hR9jJ9dB9kF9cV9cV9lR9cV9v39gV9bZ9uzJ9cF9dR9" ++
    "bdr9bDcnT9lR9bt39ccFAczI9"

def digitRanges : Ranges :=
  (48, 57) :: (178, 179) :: Ranges.ofPairs 179 (readNumbers digitText)

def isDigit (c : Char) : Bool :=
  digitRanges.has c.toNat

/-- The digits that are zero. Each of them stands before the nine others; in two ranges of ten or
eleven none does. -/
def decimalZeros : List Nat :=
  48 :: digitRanges.tail.flatMap fun (first, last) =>
    if first = 8320 ∨ first = 127232 then [] else (List.range ((last + 1 - first) / 10)).map (first + 10 * ·)

def decimalValue? (c : Char) : Option Nat :=
  (decimalZeros.find? fun base => base ≤ c.toNat && c.toNat < base + 10).map (c.toNat - ·)

def allDigits (s : String) : Bool :=
  !s.isEmpty && s.toList.all isDigit

def decimalNumber (cs : List Char) : Nat :=
  cs.foldl (fun n c => 10 * n + (c.toNat - '0'.toNat)) 0

def hexValue? (c : Char) : Option Nat :=
  if '0' ≤ c ∧ c ≤ '9' then some (c.toNat - '0'.toNat)
  else if 'a' ≤ c ∧ c ≤ 'f' then some (c.toNat - 'a'.toNat + 10)
  else if 'A' ≤ c ∧ c ≤ 'F' then some (c.toNat - 'A'.toNat + 10)
  else none

def hexNumber? (cs : List Char) : Option Nat :=
  cs.foldlM (fun n c => (hexValue? c).map (16 * n + ·)) 0

def alphanumericText : String :=
  "bC98P7PbC0812041222M2U2mP5BF48020dM42133207022202J2cA2dU9eL2b1307b4c0Q53bAb6M9512cQ20G18E30H02TUcGC0Fb6A1506" ++
    "L50A040OO8A6N25Ib5bNbH40J089592F57313L26204340H0E1225B353095513L26212121W3208932H8222L26212440J0G159A0C731" ++
    "3L26212440V1225926C025422341202141424BN0MCJ7222M2F40R2303159962057222M292440W1215921I8222b430H062295I256H4" ++
    "N282036W9IbB21D6A9b4120242N202921A03420A933X0WJD72ZS4d8b6LA75534041825CD0297b120603b62j8233620233b4233W233" ++
    "620233E2bK233bUFJ4FHcD354r73G2P6c24A8HEIFHFC22GbFb00504979N97cG843X206bXBUb4b334Cb75P7Ab2MAbGb8979E0cMbAI7" ++
    "49b6TEbJRZT94bC388b632b632521406fBbThP353b135372020202U3bG2620422643355C6226d81356A7CcU050392044702020232A" ++
    "3364502bLu7bNc7LrJTbfHgC7341A03b120603bJ80HMA626262626262626c90n22Q884345cD722cH236b62cL43BVbDFX9V72EX9b4E" ++
    "iXhb3bTxrGbWb93hG4RLbAHU3c7b483cU3bR612024PF22232ME5BbFFbDT9P540212b1BMQS8bATA742O2b4O227597M404bD20413430" ++
    "20P23A82D53535A6262b62D7d6E97lyBDM5bCjaTk53cXb36D460292C242021212cZYk2JbR3bHb5Bd942dQK98P7PCcG45353532b0B2" ++
    "P2I212E3DZdEDb8DbKI1gTS4bCHQ5ZAT6b1BT3Z5724b7eD397Z5Z5b39bFDA2E26212A2E2621bWiMALB7P52b528bY5302b721403M3U" ++
    "3b198bDI216W5PbZbJ5J3bAG3222SB8OU2VX72R74HbHBL3Q6PO6c9c0bKbEEbE8b5D9i7U2b571c7b39LC3SHbBRLMDbGRT2130Eb8XO8" ++
    "9AZG950309Y40DbBF3CA205JCH2OcD620232E298bAI9C7313L26212440J0D4eFbGJ36962VbBL12099eNbAb63b1bBL0C9b3b6E089bJ" ++
    "QMB56f6b7d9cAD73037212NG020F9bZ73b2H020T0Bb380M0Cb9K0Jc0hC82b0I0GS6Td56212b1M0A975212VF089iNIfA0GKb8zLcVd2" ++
    "IfFcv9cOGbdQeiIq6jfUpS8U297c6297TJbBH3D9262K6It5cEcYc260bVCbT120TgoF9biDb78jo8326212i2bA2I39kZcm5cY6C4889g" ++
    "cFJd1OdScC2bY213031332B20262bS2337262R232420462jF3O2O2U2O2U2O2U2O2U2O273bDbxTUnEb8B63950iYTJb759biV623212E" ++
    "2fG38bDbV8059w0bM2223c5b82EfF32Q2120302923202070502020222120302020202021203326232320292G62242Gq5CczG9bcNbt" ++
    "qNXelC8g53ge1FhzKdi8p1bpVfh6"

def alphanumericRanges : Ranges :=
  Ranges.ofGaps alphanumericText

def isWordChar (c : Char) : Bool :=
  c == '_' || alphanumericRanges.has c.toNat

def printableText : String :=
  "WcMZB2tT3556202J2l02b13bD322bI9Q55IL2fB2bB3bM3cSFbM3bC3E2R302A6UAc12eG27313L2620433831339051243O3225513L2621" ++
    "2121302451324083208GB228222L26212439222230G33B862227313L2621243831328251243HB125422341202141424B5442233070" ++
    "FK6C222M2F38222381223033398L222M29243822238171233921EC222bE22255F3P222H4N282036405520277932DbL5Sb2120242N2" ++
    "02M3420253933XbZ2Z5b22Z2E2Cb2fH20603kG233620233b4233W233620233E2bK233bU3V4P7cD353rR2R4cG8LANAJDC2221DcL397" ++
    "97D2A7cG8b66bXBU2B5B504b534Cb75P7A4bP3bS2S3A797D3UbEc44bA2d79bN4E4bN8b63A9b66oT353b135372020202U3bG2E2D352" ++
    "I3228IN9bAI13Q2C4WGWGdV5sEQAMbyB3V2jO6b820603bJ81FNA6262626262626262dHZP2cGDfXRB6bQ2cD3cU6b62cL2cBDbA2bfhO" ++
    "4bIAjNLf39fM612024PbM497bJ9bX9B7d7CT4c52A5W2bIAD393cUPRB53535A6262bN5dH397lyBDM5bCjaTk53cXb36D46P242021212" ++
    "dGHmC3bH80Xb57bE2I23542dQ5f9453535324626E13B2P2I212E3DZdE625b84cF2C40bCb9dNS4bCGR5ZAT6b66T2b05Db7eD397Z5Z5" ++
    "b39bFCB2E26212A2E2621bWiMALB7P52b528bY5302b721403M2bZ98bDI216W4Q60bTbJ5J3bD2167222S3259888bRXb25BAbH4S3Q6P" ++
    "83D6c9c0bKbEEbE8b999i7U2b52231c7b39b5NPb3RLMAc55ZAbP24EO897bG2H9b2AcN2JCH2b7bU620232E2A7bM697327313L262124" ++
    "2931323070663644dWcJ24VbZ99eNbH3b1ZbWC97CKbL79bJQ3E5Mf6bNcTcAD73037212T213BA9bZ73b93ASbZ9cAEc0hC82b82DBS4V" ++
    "3L2Dc26212b74021289975212b0212589iNOf40GbDEzMcVd224CfFcv9cQEbdQeiIq6jfUpS8U295c8297T35BbXB9262K6It5cIcUc25" ++
    "bK8GbT4C1FgoF9biDb78jo8326212i2bA2I39kZcm5cY6C488933faPb93MAd7bPgTBb23c19d3MbXeBJDcEAOdScC2bY213031332B202" ++
    "62bS2337262R232420462jF3i33tHG42EbePUgA62G362124fYb84D3951iXUIbL60biP623212E2fG3Fb6c35951vUbVc5bOfF32Q2120" ++
    "302923202070502020222120302020202021203326232320292G62242GbH1hJb75cRDE3E2E2b0BeTbLSEb75881F5eBbbB6F4C4d7Dc" ++
    "G8B50GB5bJ997b39T31c7jFDD344446AS4A65B97796Ae22bIb29bcNbtqNXelC8g53ge1FhzKdi8p1bpVfh6bdleUgN"

def printableRanges : Ranges :=
  Ranges.ofGaps printableText

def isPrintable (c : Char) : Bool :=
  printableRanges.has c.toNat

end TagScript.Text

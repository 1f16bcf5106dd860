import TagScript.Text.Ranges

/-!
Upper and lower case. The maps are kept as runs of equal distance; some upper case forms are longer
than the character.
-/

namespace TagScript.Text

/-- A run of characters, each as far apart from the one before as `step` says, that all go to the
character `shift` further on. -/
structure CaseRun where
  first : Nat
  count : Nat
  step : Nat
  shift : Int

/-- The runs that are written down. An odd number stands for a shift back. -/
def CaseRun.ofNumbers : Nat → List Nat → List CaseRun
  | previous, gap :: count :: step :: shift :: rest =>
    let first := previous + gap
    ⟨first, count, step, if shift % 2 = 0 then shift / 2 else -((shift + 1) / 2)⟩ :: CaseRun.ofNumbers first rest
  | _, _ => []

def CaseRun.find? : List CaseRun → Nat → Option Nat
  | [], _ => none
  | run :: rest, c =>
    if c < run.first then none
    else
      let away := c - run.first
      if away % run.step == 0 && away / run.step < run.count then
        some (c + run.shift).toNat
      else
        CaseRun.find? rest c

/-- The first character that is taken to `c`. -/
def CaseRun.back? : List CaseRun → Nat → Option Nat
  | [], _ => none
  | run :: rest, c =>
    let away := c - (run.first + run.shift)
    if 0 ≤ away && away % run.step == 0 && away / run.step < run.count then some (run.first + away.toNat)
    else CaseRun.back? rest c

def readExpansions : Nat → Nat → List Nat → List (Nat × List Char)
  | bound + 1, previous, gap :: count :: rest =>
    (previous + gap, (rest.take count).map Char.ofNat) :: readExpansions bound (previous + gap) (rest.drop count)
  | _, _, _ => []

def upperRunsText : String :=
  "cPQ1bRcC11bpAb7N1bRO71bR711gQ2O21bC11mV23217821HN21bB321511qN111kU3221511141116111311fE4111111j2411h83321711" ++
    "151113111422151114111211d46111111321111113211111132821F11eD2921J111111321114K21b6921P111321xcU31115521911x" ++
    "b2111xaW111xb0111lN111lF221lD311l7211l9111dml2411lD111dmkU211lH211dmiW111dmkG211lL111lP111dmkG111wyU111dmk" ++
    "A311lP211wz6111lT311lV811wxY311m3211dmkE111m3411dmj0111m3111dT121m1211dX611m5B11dmhU111dmhOeN11eOb82216111" ++
    "431h8bD11c3131c14H1bRH11bP191bR911dJ121dH311dF111d5411cL111cZ111F2C21N11eR111eF111E111gF211fB31113111bHW1b" ++
    "RWG1eFHH21b6R21bJ721D11T2bC21e0b21cNddBb71gl4b931gl4v761FciO11njF111njD111niV121niR211niT111niF111nfD111cx" ++
    "j8gP11cxmW411idWH11cxpSd7c321eA11d96bC21cN81GG61GG81GG81GG61GH42GF81GG21e4241eS421fK221h4221g8221h0bG21GE1" ++
    "1pk9I21GG21G511Ek111bJYG1VK111xGQ1bFcaGbC1cNbD111411xbP111xbJ2321B1113111BbE21cZ2217111Db21pnJb311pnJ611pn" ++
    "Jbhd0N21bSE21eI721GV21bZ2215521D1115221311cO3A21U821J22191116221V111xX11bzJTc81dfb3wy1Q1bRbiVb41c7eWb01c7f" ++
    "BB1c5CF1c5G71c5821c5bxXbF1dJdhCW1bRxkWW1bRbhoYY1bV"

def upperExpansionsText : String :=
  "g72cBcBcY2tGc6eN2c2vOlK3zLvKvDW3zXvKvDn32bl1blUgw72c0wP12cCvK12cFvM12cHvM12bTtIf22zXvV23zXvVvC23zXvVvD23zXvV" ++
    "x6b62imOzL12imPzL12imQzL12imRzL12imSzL12imTzL12imUzL12imVzL12imOzL12imPzL12imQzL12imRzL12imSzL12imTzL12imU" ++
    "zL12imVzL12inKzL12inLzL12inMzL12inNzL12inOzL12inPzL12inQzL12inRzL12inKzL12inLzL12inMzL12inNzL12inOzL12inPz" ++
    "L12inQzL12inRzL12ipCzL12ipDzL12ipEzL12ipFzL12ipGzL12ipHzL12ipIzL12ipJzL12ipCzL12ipDzL12ipEzL12ipFzL12ipGzL" ++
    "12ipHzL12ipIzL12ipJzL32irMzL12zDzL12z2zL22zDx613zDx6zL52zDzL62is2zL12zJzL12z5zL22zJx613zJx6zL52zJzL63zLvKv" ++
    "C13zLvKvD32zLx613zLvKx6B3zXvKvC13zXvKvD12zTvV22zXx613zXvKx6B2itEzL12ba1zL12zBzL22ba1x613ba1x6zL52ba1zLchxG" ++
    "2bYbY12bYc112bYc413bYbYc113bYbYc412cBcC12cBcCD2blGblI12blGbl112blGbl712blQblI12blGbl9"

/-- The small letters that the runs of the upper case do not lead back to. -/
def lowerRunsText : String :=
  "mK11411122114111221141112b21141112lR11bS311bS711bSc911dBhhM11qh1gI81FG81FG81FK11HG11HbC11HiA11qbL411rxP111rq" ++
    "ZbkkN112"

def lowerExpansionsText : String :=
  "iG2cXvJ"

def casedText : String :=
  "bTP7PbC0B0506M2U2fE235fR2QfD33142207022202J2cA2dU9eL2b1Ab4daWb120603b632sPcD35ciJ88b632bTb7bSC2XcUhP353b1353" ++
    "72020202U3bG2620422643355C6226hA050392044702020232550336450IV41wQbFbyFdF3cU7341Db12060bhcZb9JRdRc52M432bM6" ++
    "12024S140wUb6688c7vrL6D4bcQP7Pbh2c7cPZ5Zd9A2E26212A2E2621bw4bEEbEdf2bRxj5bRbbtTcC2bY213031332B20262bS23372" ++
    "62R232420462jF3O2O2U2O2U2O2U2O2U2O27bz992JcsAbVceDP7P7P"

def caseIgnorableText : String :=
  "b3070C0b0020c0050205031o0fB5150A120h06fS060bEb820212120b90C5BA20b00BKH0cU72923Y020VQcKAbNA5030PNb82b908177b6" ++
    "bLbK020575046B1E0G0bN05390L1R031bM051513240V140C1bM0542150L1N520bN030239081C1V0bQ0D0bF040bK022622381C1U0bN" ++
    "0307061L1T1bM15390L1U0c108220cJ036C8cR038A025c31S02020bKD24216A2ZA0cV3252131Q152H3E03170G0cN0qX2baB2U1V1V1" ++
    "bT126903A4060bA4bG0bU1Z0dB251A072g4130bN0262020377930b409UbE3bD0242060b58D1X33122bL0214022bN731bT5cB22C265" ++
    "07041bFbQE0ZcSmE022C2E2E2E1D491B03034bE42920E0HCbGWde41d62dI0G0cPVbC0n20b134460cM5cM2bejZ0biR5hJ0cR32920T3" ++
    "c91FXc70O2cW241904050Q160e81RHE0b37QAbB2bD03331I0M1bV53131D090b00C0bG022316120S0F16120cT4A2dE03050vr50e4Gp" ++
    "YF40DFZ030eQ08070C0b0020bC0bA1bW0M2oA0gB0e64bcM52b528q722163b5250eM1pY3kS1eAAbE3dG0bJEb6031B2bE3313050B0bF" ++
    "2b1427bR0D1bH8B330cO2302170eH047M1bM140b2644fG73220O0cD5205121gN37121S1cE73021cZ0203520cU23324h8821h512050" ++
    "e133150X9b553390A532bBC21lB62520cBL362121dF540212620c114020jO1fv08oz44bO6A3bcS0bSGbT121rnG32621dlR123faLb9" ++
    "3Mp52AF36V3e52cd0bI5bD90F0N42EblT62G362124hADk90bQ3bpT6d27cy04bglmQ0VcNdLgN"

def upperRuns : List CaseRun := CaseRun.ofNumbers 0 (readNumbers upperRunsText)

def upperExpansions : List (Nat × List Char) := readExpansions 2000 0 (readNumbers upperExpansionsText)

def lowerRuns : List CaseRun := CaseRun.ofNumbers 0 (readNumbers lowerRunsText)

def lowerExpansions : List (Nat × List Char) := readExpansions 2000 0 (readNumbers lowerExpansionsText)

def casedRanges : Ranges := Ranges.ofGaps casedText

def caseIgnorableRanges : Ranges := Ranges.ofGaps caseIgnorableText

def upperChar (c : Char) : List Char :=
  if c.toNat < 128 then [c.toUpper]
  else match upperExpansions.lookup c.toNat with
    | some cs => cs
    | none => [(CaseRun.find? upperRuns c.toNat).elim c Char.ofNat]

def lowerChar (c : Char) : List Char :=
  if c.toNat < 128 then [c.toLower]
  else match lowerExpansions.lookup c.toNat with
    | some cs => cs
    | none => [(CaseRun.find? lowerRuns c.toNat <|> CaseRun.back? upperRuns c.toNat).elim c Char.ofNat]

def meetsCased (cs : List Char) : Bool :=
  match cs.dropWhile fun c => caseIgnorableRanges.has c.toNat with
  | [] => false
  | c :: _ => casedRanges.has c.toNat

def lowerFrom (before : List Char) : List Char → List Char
  | [] => []
  | c :: rest =>
    let here :=
      if c.toNat == 0x3a3 then
        if meetsCased before && !meetsCased rest then [Char.ofNat 0x3c2] else [Char.ofNat 0x3c3]
      else lowerChar c
    here ++ lowerFrom (c :: before) rest

def upper (s : String) : String :=
  String.ofList (s.toList.flatMap upperChar)

def lower (s : String) : String :=
  String.ofList (lowerFrom [] s.toList)

end TagScript.Text

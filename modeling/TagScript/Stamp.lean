import TagScript.Number.Numeral

/-!
Objects that come out of data documents and that the language does not know: dates and times of day, and all others.
-/

namespace TagScript

/-- A day of the calendar. -/
structure Date where
  year : Nat
  month : Nat
  day : Nat
  deriving DecidableEq, Repr

/-- A time of day, with an offset from universal time in seconds if one was given. -/
structure ClockTime where
  hour : Nat
  minute : Nat
  second : Nat
  micro : Nat
  offset : Option Int
  deriving DecidableEq, Repr

/-- An object of another class, such as a set or a text of bytes: its class, its text, whether it
counts as true, and the whole numbers in it. -/
structure Foreign where
  className : String
  text : String
  truthy : Bool
  wholes : List Int
  deriving DecidableEq, Repr

/-- A date, a time of day, or both; or an object of another class. -/
inductive Stamp where
  | date (date : Date)
  | time (time : ClockTime)
  | datetime (date : Date) (time : ClockTime)
  | other (object : Foreign)
  deriving DecidableEq, Repr

def padded (width n : Nat) : String :=
  let digits := Numeral.ofNat n
  Numeral.zeros (width - digits.length) ++ digits

namespace Date

def text (d : Date) : String :=
  padded 4 d.year ++ "-" ++ padded 2 d.month ++ "-" ++ padded 2 d.day

def isLeap (year : Nat) : Bool :=
  year % 4 = 0 && (year % 100 ≠ 0 || year % 400 = 0)

def daysInMonth (year month : Nat) : Nat :=
  if month = 2 then (if isLeap year then 29 else 28)
  else if month = 4 || month = 6 || month = 9 || month = 11 then 30
  else 31

def valid (d : Date) : Bool :=
  1 ≤ d.year && d.year ≤ 9999 && 1 ≤ d.month && d.month ≤ 12 && 1 ≤ d.day &&
    d.day ≤ daysInMonth d.year d.month

def ordinal (d : Date) : Nat :=
  let before := d.year - 1
  let months := (List.range (d.month - 1)).foldl (fun days m => days + daysInMonth d.year (m + 1)) 0
  365 * before + before / 4 - before / 100 + before / 400 + months + d.day

def weekday (d : Date) : Nat := (d.ordinal + 6) % 7

def first : Date := ⟨1, 1, 1⟩

def last : Date := ⟨9999, 12, 31⟩

def weekdayName (d : Date) : String :=
  ["Mon", "Tue", "Wed", "Thu", "Fri", "Sat", "Sun"].getD d.weekday ""

def monthName (d : Date) : String :=
  ["Jan", "Feb", "Mar", "Apr", "May", "Jun", "Jul", "Aug", "Sep", "Oct", "Nov", "Dec"].getD (d.month - 1) ""

end Date

namespace ClockTime

def offsetText (seconds : Int) : String :=
  let size := seconds.natAbs
  let rest := if size % 60 = 0 then "" else ":" ++ padded 2 (size % 60)
  (if seconds < 0 then "-" else "+") ++ padded 2 (size / 3600) ++ ":" ++ padded 2 (size / 60 % 60) ++
    rest

def text (t : ClockTime) : String :=
  padded 2 t.hour ++ ":" ++ padded 2 t.minute ++ ":" ++ padded 2 t.second ++
    (if t.micro = 0 then "" else "." ++ padded 6 t.micro) ++ (t.offset.elim "" offsetText)

def valid (t : ClockTime) : Bool :=
  t.hour < 24 && t.minute < 60 && t.second < 60 && t.micro < 1000000

def first : ClockTime := ⟨0, 0, 0, 0, none⟩

def last : ClockTime := ⟨23, 59, 59, 999999, none⟩

def zone? (t : ClockTime) : Option String :=
  t.offset.map fun o => if o = 0 then "UTC" else "UTC" ++ offsetText o

def micros (t : ClockTime) : Int :=
  ((t.hour * 60 + t.minute) * 60 + t.second : Nat) * 1000000 + t.micro -
    t.offset.getD 0 * 1000000

def fields (t : ClockTime) : List Nat :=
  if t.micro ≠ 0 then [t.hour, t.minute, t.second, t.micro]
  else if t.second ≠ 0 then [t.hour, t.minute, t.second]
  else [t.hour, t.minute]

end ClockTime

namespace Stamp

def className : Stamp → String
  | .date _ => "date"
  | .time _ => "time"
  | .datetime _ _ => "datetime"
  | .other o => o.className

def qualifiedName : Stamp → String
  | .other o => o.className
  | s => "datetime." ++ s.className

def truthy : Stamp → Bool
  | .other o => o.truthy
  | _ => true

def text : Stamp → String
  | .date d => d.text
  | .time t => t.text
  | .datetime d t => d.text ++ " " ++ t.text
  | .other o => o.text

def iso (between : String) : Stamp → String
  | .date d => d.text
  | .time t => t.text
  | .datetime d t => d.text ++ between ++ t.text
  | .other o => o.text

def offsetDiagnostic (seconds : Int) : String :=
  if seconds = 0 then "datetime.timezone.utc"
  else
    let days := seconds.fdiv 86400
    let rest := seconds.fmod 86400
    let parts :=
      (if days = 0 then [] else ["days=" ++ Numeral.ofInt days]) ++
        (if rest = 0 then [] else ["seconds=" ++ Numeral.ofInt rest])
    "datetime.timezone(datetime.timedelta(" ++ ", ".intercalate parts ++ "))"

def diagnostic (s : Stamp) : String :=
  let numbers (ns : List Nat) := ns.map Numeral.ofNat
  let zone (t : ClockTime) := t.offset.elim [] fun o => ["tzinfo=" ++ offsetDiagnostic o]
  let made (parts : List String) := s.qualifiedName ++ "(" ++ ", ".intercalate parts ++ ")"
  match s with
  | .date d => made (numbers [d.year, d.month, d.day])
  | .time t => made (numbers t.fields ++ zone t)
  | .datetime d t => made (numbers ([d.year, d.month, d.day] ++ t.fields) ++ zone t)
  | .other o => o.text

def date? : Stamp → Option Date
  | .date d => some d
  | .datetime d _ => some d
  | _ => none

def clock? : Stamp → Option ClockTime
  | .time t => some t
  | .datetime _ t => some t
  | _ => none

def dateNumbers (d : Date) : List (String × Nat) :=
  [("year", d.year), ("month", d.month), ("day", d.day), ("weekday", d.weekday),
    ("isoweekday", d.weekday + 1), ("toordinal", d.ordinal)]

def clockNumbers (t : ClockTime) : List (String × Nat) :=
  [("hour", t.hour), ("minute", t.minute), ("second", t.second), ("microsecond", t.micro), ("fold", 0)]

def numbers (s : Stamp) : List (String × Nat) :=
  s.date?.elim [] dateNumbers ++ s.clock?.elim [] clockNumbers

def calendarText (d : Date) (t : ClockTime) : String :=
  let day := Numeral.ofNat d.day
  d.weekdayName ++ " " ++ d.monthName ++ " " ++ (if d.day < 10 then " " ++ day else day) ++ " " ++
    padded 2 t.hour ++ ":" ++ padded 2 t.minute ++ ":" ++ padded 2 t.second ++ " " ++ padded 4 d.year

def texts (s : Stamp) : List (String × String) :=
  let iso := ("isoformat", s.iso "T")
  match s with
  | .date d => [iso, ("ctime", calendarText d .first), ("resolution", "1 day, 0:00:00")]
  | .time _ => [iso, ("resolution", "0:00:00.000001")]
  | .datetime d t => [iso, ("ctime", calendarText d t), ("resolution", "0:00:00.000001")]
  | .other _ => []

def stamps (s : Stamp) : List (String × Stamp) :=
  match s with
  | .date _ => [("replace", s), ("min", .date .first), ("max", .date .last)]
  | .time _ => [("replace", s), ("min", .time .first), ("max", .time .last)]
  | .datetime d t =>
    [("replace", s), ("min", .datetime .first .first), ("max", .datetime .last .last), ("date", .date d),
      ("time", .time { t with offset := none }), ("timetz", .time t)]
  | .other _ => []

def zones (s : Stamp) : List (String × Option String) :=
  s.clock?.elim [] fun t => [("tzinfo", t.zone?), ("tzname", t.zone?), ("dst", none)]

def instant : Stamp → Int
  | .date d => d.ordinal
  | .time t => t.micros
  | .datetime d t => d.ordinal * 86400000000 + t.micros
  | .other _ => 0

def comparable : Stamp → Stamp → Bool
  | .date _, .date _ => true
  | .time s, .time t => s.offset.isSome == t.offset.isSome
  | .datetime _ s, .datetime _ t => s.offset.isSome == t.offset.isSome
  | _, _ => false

def same : Stamp → Stamp → Bool
  | .other a, .other b => a = b
  | s, t => s.comparable t && s.instant = t.instant

end Stamp

end TagScript

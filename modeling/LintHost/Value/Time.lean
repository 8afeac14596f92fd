import LintHost.Text.Quoted

/-!
# Dates and times

Configuration formats have dates, times of day and moments with an optional offset from UTC.
They are kept as fields; nothing is ever computed with them, they are only checked and shown.

* `Date.valid?`, `Clock.valid?` and `offset?` say which fields make a date, a time or an offset;
* `Date.text`, `Clock.text` and `Moment.text` show them.
-/

namespace LintHost

/-- A day of the calendar. -/
structure Date where
  year : Nat
  month : Nat
  day : Nat
deriving DecidableEq

/-- A time of day. -/
structure Clock where
  hour : Nat
  minute : Nat
  second : Nat
  micro : Nat
deriving DecidableEq

/-- A day, a time of day and, if known, the offset from UTC in seconds. -/
structure Moment where
  date : Date
  clock : Clock
  offset : Option Int
deriving DecidableEq

/-- Why fields make no date or time. -/
inductive CalendarFault
  | year (n : Nat)
  | month
  | day
  | hour
  | minute
  | second
  | offset (seconds : Int)
deriving DecidableEq

/-- A number with at least `width` digits. -/
def padded (width n : Nat) : String :=
  let digits := Nat.toDigits 10 n
  String.ofList (List.replicate (width - digits.length) '0' ++ digits)

/-! ## 1. Dates -/

/-- Whether February has 29 days. -/
def Date.isLeap (year : Nat) : Bool := year % 4 = 0 && (year % 100 ≠ 0 || year % 400 = 0)

/-- How many days a month has. -/
def Date.daysIn (year month : Nat) : Nat :=
  if month = 2 then (if isLeap year then 29 else 28)
  else if month ∈ [4, 6, 9, 11] then 30 else 31

/-- The date with these fields; years run from 1 to 9999. -/
def Date.valid? (year month day : Nat) : Except CalendarFault Date :=
  if year < 1 ∨ 9999 < year then .error (.year year)
  else if month < 1 ∨ 12 < month then .error .month
  else if day < 1 ∨ daysIn year month < day then .error .day
  else .ok ⟨year, month, day⟩

/-- A date as text. -/
def Date.text (d : Date) : String :=
  padded 4 d.year ++ "-" ++ padded 2 d.month ++ "-" ++ padded 2 d.day

/-! ## 2. Times -/

/-- The time of day with these fields. -/
def Clock.valid? (hour minute second micro : Nat) : Except CalendarFault Clock :=
  if 23 < hour then .error .hour
  else if 59 < minute then .error .minute
  else if 59 < second then .error .second
  else .ok ⟨hour, minute, second, micro⟩

/-- A time of day as text; millionths are shown if there are any. -/
def Clock.text (c : Clock) : String :=
  padded 2 c.hour ++ ":" ++ padded 2 c.minute ++ ":" ++ padded 2 c.second ++
    (if c.micro = 0 then "" else "." ++ padded 6 c.micro)

/-! ## 3. Moments -/

/-- An offset from UTC; it is shorter than a day. -/
def Moment.offset? (seconds : Int) : Except CalendarFault Int :=
  if seconds.natAbs < 86400 then .ok seconds else .error (.offset seconds)

/-- An offset as text. -/
def Moment.offsetText (seconds : Int) : String :=
  let n := seconds.natAbs
  (if seconds < 0 then "-" else "+") ++ padded 2 (n / 3600) ++ ":" ++ padded 2 (n / 60 % 60) ++
    (if n % 60 = 0 then "" else ":" ++ padded 2 (n % 60))

/-- A moment as text. -/
def Moment.text (m : Moment) : String :=
  m.date.text ++ " " ++ m.clock.text ++ (m.offset.map offsetText).getD ""

/-! ## 4. Fields in messages -/

/-- A time span of so many seconds as messages name it: whole days, then the seconds of a day. -/
def spanText (seconds : Int) : String :=
  let days := seconds / 86400
  let rest := seconds % 86400
  let parts := (if days = 0 then [] else ["days=" ++ toString days]) ++
    (if rest = 0 then [] else ["seconds=" ++ toString rest])
  "datetime.timedelta(" ++ (if parts.isEmpty then "0" else ", ".intercalate parts) ++ ")"

/-- Numbers without the zeros at their end, at most `n` of them dropped. -/
def dropLastZeros : Nat → List Nat → List Nat
  | 0, xs => xs
  | n + 1, xs => if xs.getLast? = some 0 then dropLastZeros n xs.dropLast else xs

/-- Numbers between commas. -/
def commaNumbers (xs : List Nat) : String := ", ".intercalate (xs.map toString)

/-- A date, spelled with its fields. -/
def Date.literal (d : Date) : String :=
  "datetime.date(" ++ commaNumbers [d.year, d.month, d.day] ++ ")"

/-- A time of day, spelled with its fields. -/
def Clock.literal (c : Clock) : String :=
  "datetime.time(" ++ commaNumbers (dropLastZeros 2 [c.hour, c.minute, c.second, c.micro]) ++ ")"

/-- An offset, spelled as a time zone. -/
def Moment.zoneLiteral (seconds : Int) : String :=
  if seconds = 0 then "datetime.timezone.utc"
  else "datetime.timezone(" ++ spanText seconds ++ ")"

/-- A moment, spelled with its fields. -/
def Moment.literal (m : Moment) : String :=
  let fields := [m.date.year, m.date.month, m.date.day, m.clock.hour, m.clock.minute,
    m.clock.second, m.clock.micro]
  "datetime.datetime(" ++ commaNumbers (dropLastZeros 2 fields) ++
    (m.offset.map fun z => ", tzinfo=" ++ zoneLiteral z).getD "" ++ ")"

/-- What is wrong with the fields. -/
def CalendarFault.message : CalendarFault → String
  | .year n => "year " ++ toString n ++ " is out of range"
  | .month => "month must be in 1..12"
  | .day => "day is out of range for month"
  | .hour => "hour must be in 0..23"
  | .minute => "minute must be in 0..59"
  | .second => "second must be in 0..59"
  | .offset seconds =>
    "offset must be a timedelta strictly between -timedelta(hours=24) and timedelta(hours=24), " ++
      "not " ++ spanText seconds ++ "."

end LintHost

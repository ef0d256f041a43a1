/-
Dates and moments.

Documents may hold dates and timestamps.  A moment with an offset names one
instant; a moment without one names none, so the two kinds never compare.
-/

namespace ApiSchema

/-- A calendar date, by the Gregorian rules. -/
structure Date where
  /-- The year. -/
  year : Nat
  /-- The month, from one. -/
  month : Nat
  /-- The day of the month, from one. -/
  day : Nat
deriving DecidableEq, Repr

namespace Date

/-- The year has a 29th of February. -/
def isLeap (year : Nat) : Bool := year % 4 = 0 && (year % 100 != 0 || year % 400 = 0)

/-- The number of days of a month; zero for a number that names none. -/
def daysIn (year month : Nat) : Nat :=
  match month with
  | 2 => if isLeap year then 29 else 28
  | 4 | 6 | 9 | 11 => 30
  | 1 | 3 | 5 | 7 | 8 | 10 | 12 => 31
  | _ => 0

/-- The date exists, in a year from 1 to 9999. -/
def Valid (d : Date) : Prop :=
  1 ≤ d.year ∧ d.year ≤ 9999 ∧ 1 ≤ d.day ∧ d.day ≤ daysIn d.year d.month

instance (d : Date) : Decidable d.Valid :=
  inferInstanceAs (Decidable
    (1 ≤ d.year ∧ d.year ≤ 9999 ∧ 1 ≤ d.day ∧ d.day ≤ daysIn d.year d.month))

/-- The number of days up to the date, the first of January of year 1 being day 1. -/
def ordinal (d : Date) : Nat :=
  let y := d.year - 1
  let months := (List.range (d.month - 1)).foldl (fun days m => days + daysIn d.year (m + 1)) 0
  365 * y + y / 4 - y / 100 + y / 400 + months + d.day

end Date

/-- A date with a time of day, and possibly the distance of that clock from universal time. -/
structure Moment where
  /-- The date. -/
  date : Date
  /-- The hour. -/
  hour : Nat
  /-- The minute. -/
  minute : Nat
  /-- The second. -/
  second : Nat
  /-- The millionths of a second. -/
  microsecond : Nat
  /-- Seconds east of universal time, if known. -/
  offset : Option Int
deriving DecidableEq, Repr

namespace Moment

/-- The moment exists, and its offset is less than a day. -/
def Valid (t : Moment) : Prop :=
  t.date.Valid ∧ t.hour < 24 ∧ t.minute < 60 ∧ t.second < 60 ∧ t.microsecond < 1000000 ∧
    ∀ o ∈ t.offset, o.natAbs < 86400

instance (t : Moment) : Decidable t.Valid :=
  inferInstanceAs (Decidable (t.date.Valid ∧ t.hour < 24 ∧ t.minute < 60 ∧ t.second < 60 ∧
    t.microsecond < 1000000 ∧ ∀ o ∈ t.offset, o.natAbs < 86400))

/-- The millionths of a second that the clock shows, counted from the day before year 1. -/
def clock (t : Moment) : Nat :=
  (((t.date.ordinal * 24 + t.hour) * 60 + t.minute) * 60 + t.second) * 1000000 + t.microsecond

/-- The instant in universal time, for a moment with an offset. -/
def instant? (t : Moment) : Option Int :=
  t.offset.map fun o => (t.clock : Int) - o * 1000000

end Moment

/-! ### Texts -/

/-- The digits of `n`, filled with zeros in front up to `width`. -/
def padded (width n : Nat) : String :=
  let digits := Nat.toDigits 10 n
  String.ofList (List.replicate (width - digits.length) '0' ++ digits)

/-- Year, month and day, as `2020-01-31`. -/
def Date.iso (d : Date) : String :=
  padded 4 d.year ++ "-" ++ padded 2 d.month ++ "-" ++ padded 2 d.day

/-- An offset from universal time, as `+05:30`; seconds are written only when there are some. -/
def isoOffset (offset : Int) : String :=
  let seconds := offset.natAbs
  let rest := seconds % 60
  (if offset < 0 then "-" else "+") ++ padded 2 (seconds / 3600) ++ ":" ++
    padded 2 (seconds / 60 % 60) ++ (if rest = 0 then "" else ":" ++ padded 2 rest)

/-- Date and time with a separator between them; a fraction is written only when there is one. -/
def Moment.iso (separator : String) (t : Moment) : String :=
  t.date.iso ++ separator ++ padded 2 t.hour ++ ":" ++ padded 2 t.minute ++ ":" ++
    padded 2 t.second ++ (if t.microsecond = 0 then "" else "." ++ padded 6 t.microsecond) ++
    (t.offset.map isoOffset).getD ""

/-- Arguments of a constructor call in a message. -/
def callText (constructor : String) (arguments : List String) : String :=
  constructor ++ "(" ++ ", ".intercalate arguments ++ ")"

/-- A date as messages show it inside other values. -/
def Date.literal (d : Date) : String :=
  callText "datetime.date" [toString d.year, toString d.month, toString d.day]

/-- An offset as messages show it; universal time has a name of its own.  A negative offset is shown
as whole days back and seconds forward. -/
def offsetLiteral (offset : Int) : String :=
  if offset = 0 then "datetime.timezone.utc"
  else
    let seconds := s!"seconds={offset % 86400}"
    let parts := if offset < 0 then [s!"days={offset / 86400}"] else []
    callText "datetime.timezone" [callText "datetime.timedelta"
      (parts ++ if offset % 86400 = 0 then [] else [seconds])]

/-- A moment as messages show it inside other values; seconds and their fraction are left out when
they are zero. -/
def Moment.literal (t : Moment) : String :=
  let fraction := if t.microsecond = 0 then [] else [t.microsecond]
  let seconds := if t.second = 0 ∧ t.microsecond = 0 then [] else t.second :: fraction
  let numbers := [t.date.year, t.date.month, t.date.day, t.hour, t.minute] ++ seconds
  let zone := (t.offset.map fun o => s!"tzinfo={offsetLiteral o}").toList
  callText "datetime.datetime" (numbers.map toString ++ zone)

example : (Date.mk 2024 2 30).Valid ↔ False := by decide

end ApiSchema

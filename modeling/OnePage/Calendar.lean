/-! # The Gregorian calendar

Dates count from 1 January 1970, the calendar running backwards without a break and through a
year 0. A cycle of 400 years has 146097 days and starts on 1 March, so that the day a leap year
adds is the last one of its year. -/

namespace OnePage

structure Date where
  year : Int
  /-- From 1 to 12. -/
  month : Nat
  /-- From 1 to 31. -/
  day : Nat
  deriving DecidableEq, Repr

namespace Date

def daysPerCycle : Nat := 146097

/-- Days from 1 March of year 0 to 1 January 1970. -/
def daysToEpoch : Nat := 719468

/-- The year of its cycle that a day lies in, years counted from March. -/
def yearOfDay (day : Nat) : Nat :=
  (day - day / 1460 + day / 36524 - day / 146096) / 365

/-- Days before a year of the cycle. -/
def daysBeforeYear (year : Nat) : Nat := 365 * year + year / 4 - year / 100

/-- Days before a month of the year, the months counted from March. -/
def daysBeforeMonth (month : Nat) : Nat := (153 * month + 2) / 5

/-- The month that a day of the year lies in, both counted from March. -/
def monthOfDay (day : Nat) : Nat := (5 * day + 2) / 153

/-- The date of the day that comes `days` days after 1 January 1970. -/
def ofDays (days : Int) : Date :=
  let shifted := days + daysToEpoch
  let cycle := shifted / daysPerCycle
  let day := (shifted % daysPerCycle).toNat
  let year := yearOfDay day
  let dayOfYear := day - daysBeforeYear year
  let month := monthOfDay dayOfYear
  let january := month ≥ 10
  { year := cycle * 400 + year + (if january then 1 else 0)
    month := if january then month - 9 else month + 3
    day := dayOfYear - daysBeforeMonth month + 1 }

/-- How many days a date comes after 1 January 1970. -/
def toDays (d : Date) : Int :=
  let january := d.month ≤ 2
  let year := d.year - (if january then 1 else 0)
  let month := if january then d.month + 9 else d.month - 3
  year * 365 + year / 4 - year / 100 + year / 400 + daysBeforeMonth month + d.day - 1 - daysToEpoch

def isLeapYear (year : Int) : Bool := year % 4 == 0 && (year % 100 != 0 || year % 400 == 0)

def daysInMonth (year : Int) (month : Nat) : Nat :=
  if month = 2 then (if isLeapYear year then 29 else 28)
  else if month = 4 ∨ month = 6 ∨ month = 9 ∨ month = 11 then 30
  else 31

/-- Dates that the calendar has. -/
structure Valid (d : Date) : Prop where
  month_pos : 1 ≤ d.month
  month_le : d.month ≤ 12
  day_pos : 1 ≤ d.day
  day_le : d.day ≤ daysInMonth d.year d.month

def monthName (month : Nat) : String :=
  match month with
  | 1 => "Jan" | 2 => "Feb" | 3 => "Mar" | 4 => "Apr" | 5 => "May" | 6 => "Jun"
  | 7 => "Jul" | 8 => "Aug" | 9 => "Sep" | 10 => "Oct" | 11 => "Nov" | _ => "Dec"

example : ofDays 0 = ⟨1970, 1, 1⟩ := by decide
example : ofDays 11016 = ⟨2000, 2, 29⟩ := by decide
example : ofDays (-719529) = ⟨-1, 12, 31⟩ := by decide
example : (⟨2000, 2, 29⟩ : Date).toDays = 11016 := by decide

end Date

/-- A time of day on a date. -/
structure DateTime where
  date : Date
  hour : Nat
  minute : Nat
  second : Nat
  deriving DecidableEq, Repr

namespace DateTime

def secondsPerDay : Nat := 86400

/-- The date and time that comes `seconds` seconds after the start of 1970. -/
def ofSeconds (seconds : Int) : DateTime :=
  let rest := (seconds % secondsPerDay).toNat
  { date := Date.ofDays (seconds / secondsPerDay)
    hour := rest / 3600
    minute := rest / 60 % 60
    second := rest % 60 }

def toSeconds (t : DateTime) : Int :=
  t.date.toDays * secondsPerDay + (t.hour * 3600 + t.minute * 60 + t.second : Nat)

structure Valid (t : DateTime) : Prop where
  date : t.date.Valid
  hour_lt : t.hour < 24
  minute_lt : t.minute < 60
  second_lt : t.second < 60

end DateTime

end OnePage

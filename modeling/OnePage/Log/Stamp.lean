import OnePage.Calendar

/-! # Dates in the log

`[DD/Mon/YYYY:HH:MM:SS +hhmm]`, the form that the common log format asks for. -/

namespace OnePage.Log

/-- A number in at least `width` decimal digits. -/
def padded (width n : Nat) : List Char :=
  let digits := Nat.toDigits 10 n
  List.replicate (width - digits.length) '0' ++ digits

/-- Years that do not fit in four digits, or lie before year 0, have a sign. -/
def year (y : Int) : List Char :=
  if 0 ≤ y ∧ y ≤ 9999 then padded 4 y.toNat
  else (if y < 0 then '-' else '+') :: padded 4 y.natAbs

/-- The minutes by which a zone is off, a half minute counted as a whole one. -/
def zoneMinutes (zone : Int) : Nat := (zone.natAbs + 30) / 60

/-- Hours and minutes of a zone given in seconds east of Greenwich. -/
def zone (seconds : Int) : List Char :=
  let minutes := zoneMinutes seconds
  (if seconds < 0 then '-' else '+') :: (padded 2 (minutes / 60) ++ padded 2 (minutes % 60))

/-- A time in seconds after 1970, as a clock shows it that is `offset` seconds east. -/
def stamp (seconds offset : Int) : List Char :=
  let t := DateTime.ofSeconds (seconds + offset)
  ['['] ++ padded 2 t.date.day ++ ['/'] ++ (Date.monthName t.date.month).toList ++ ['/'] ++
    year t.date.year ++ [':'] ++ padded 2 t.hour ++ [':'] ++ padded 2 t.minute ++ [':'] ++
    padded 2 t.second ++ [' '] ++ zone offset ++ [']']

end OnePage.Log

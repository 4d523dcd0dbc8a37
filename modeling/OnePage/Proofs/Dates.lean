import OnePage.Kernel.Basic
import OnePage.Log.Stamp
import OnePage.Proofs.DayCount

/-! # Dates that are read back

A date in the log has a fixed shape, so its fields are found by counting characters
(`DateFields.Sound.unique`). They are those of a date that the calendar has, as a clock in the local
zone shows it, and the second that they denote is the one in which the date was written
(`dates_denote_seconds`). -/

namespace OnePage

namespace Log

/-! ## Fields -/

/-- The names of the months in their order. -/
def monthNames : List (List Char) :=
  ["Jan".toList, "Feb".toList, "Mar".toList, "Apr".toList, "May".toList, "Jun".toList,
    "Jul".toList, "Aug".toList, "Sep".toList, "Oct".toList, "Nov".toList, "Dec".toList]

/-- Exactly so many digits. -/
structure Digits (width : Nat) (cs : List Char) : Prop where
  length : cs.length = width
  digits : ∀ c ∈ cs, c.isDigit

theorem Digits.length_eq {width : Nat} {cs ds : List Char} (H : Digits width cs)
    (H' : Digits width ds) : cs.length = ds.length := H.length.trans H'.length.symm

/-- The number that digits denote. -/
def number (digits : List Char) : Nat := Nat.ofDigitChars 10 digits 0

/-- The fields of a date, as they are written. -/
structure DateFields where
  day : List Char
  month : List Char
  year : List Char
  hour : List Char
  minute : List Char
  second : List Char
  sign : Char
  zoneHours : List Char
  zoneMinutes : List Char

namespace DateFields

/-- `[DD/Mon/YYYY:HH:MM:SS +hhmm]`. -/
def text (f : DateFields) : List Char :=
  '[' :: (f.day ++ '/' :: (f.month ++ '/' :: (f.year ++ ':' :: (f.hour ++ ':' :: (f.minute ++
    ':' :: (f.second ++ ' ' :: f.sign :: (f.zoneHours ++ (f.zoneMinutes ++ [']']))))))))

/-- Digits where numbers stand, as many as there is room for, the name of a month and a sign. -/
structure Sound (f : DateFields) : Prop where
  day : Digits 2 f.day
  month : f.month ∈ monthNames
  year : Digits 4 f.year
  hour : Digits 2 f.hour
  minute : Digits 2 f.minute
  second : Digits 2 f.second
  sign : f.sign = '+' ∨ f.sign = '-'
  zoneHours : Digits 2 f.zoneHours
  zoneMinutes : Digits 2 f.zoneMinutes

/-- The date and time that the fields denote. -/
def time (f : DateFields) : DateTime where
  date := ⟨number f.year, monthNames.idxOf f.month + 1, number f.day⟩
  hour := number f.hour
  minute := number f.minute
  second := number f.second

/-- How many seconds the zone is ahead. -/
def zone (f : DateFields) : Int :=
  (if f.sign = '-' then -1 else 1) * (number f.zoneHours * 3600 + number f.zoneMinutes * 60 : Nat)

/-- Whether there is such a date, such a time of day and such a zone. -/
structure Valid (f : DateFields) : Prop where
  time : f.time.Valid
  zoneHours : number f.zoneHours < 24
  zoneMinutes : number f.zoneMinutes < 60

variable {f g : DateFields}

theorem Sound.length_month (H : f.Sound) : f.month.length = 3 := by
  have hlength : ∀ name ∈ monthNames, name.length = 3 := by decide
  exact hlength _ H.month

/-- There is one way only to find the fields in a text. -/
theorem Sound.unique (H : f.Sound) (H' : g.Sound) (h : f.text = g.text) : f = g := by
  have hnames := H.length_month.trans H'.length_month.symm
  obtain ⟨hday, h⟩ := List.append_inj (List.cons.inj h).2 (H.day.length_eq H'.day)
  obtain ⟨hmonth, h⟩ := List.append_inj (List.cons.inj h).2 hnames
  obtain ⟨hyear, h⟩ := List.append_inj (List.cons.inj h).2 (H.year.length_eq H'.year)
  obtain ⟨hhour, h⟩ := List.append_inj (List.cons.inj h).2 (H.hour.length_eq H'.hour)
  obtain ⟨hminute, h⟩ := List.append_inj (List.cons.inj h).2 (H.minute.length_eq H'.minute)
  obtain ⟨hsecond, h⟩ := List.append_inj (List.cons.inj h).2 (H.second.length_eq H'.second)
  obtain ⟨hsign, h⟩ := List.cons.inj (List.cons.inj h).2
  obtain ⟨hhours, h⟩ := List.append_inj h (H.zoneHours.length_eq H'.zoneHours)
  obtain ⟨hminutes, -⟩ := List.append_inj h (H.zoneMinutes.length_eq H'.zoneMinutes)
  cases f
  cases g
  simp only [DateFields.mk.injEq]
  exact ⟨hday, hmonth, hyear, hhour, hminute, hsecond, hsign, hhours, hminutes⟩

end DateFields

/-! ## Writing fields -/

theorem digits_padded {width n : Nat} (hpos : 0 < width) (h : n < 10 ^ width) :
    Digits width (padded width n) := by
  have hle := (Nat.length_toDigits_le_iff (by decide) hpos).2 h
  refine ⟨?_, List.forall_mem_append.2 ⟨fun c hc => ?_, fun c hc => ?_⟩⟩
  · simp [padded, Nat.sub_add_cancel hle]
  · rw [List.eq_of_mem_replicate hc]
    rfl
  · exact Nat.isDigit_of_mem_toDigits (by decide) (Nat.le_refl _) hc

/-- Zeros in front do not count. -/
theorem number_padded (width n : Nat) : number (padded width n) = n := by
  rw [number, padded, Nat.ofDigitChars_append, Nat.ofDigitChars_replicate_zero, Nat.mul_zero,
    Nat.ofDigitChars_ten_toDigits]

theorem monthName_spec : ∀ month < 13, 1 ≤ month →
    (Date.monthName month).toList ∈ monthNames ∧
      monthNames.idxOf (Date.monthName month).toList + 1 = month := by
  decide

/-- The fields in which a time in a zone is written. -/
def fieldsOf (t : DateTime) (offset : Int) : DateFields where
  day := padded 2 t.date.day
  month := (Date.monthName t.date.month).toList
  year := padded 4 t.date.year.toNat
  hour := padded 2 t.hour
  minute := padded 2 t.minute
  second := padded 2 t.second
  sign := if offset < 0 then '-' else '+'
  zoneHours := padded 2 (zoneMinutes offset / 60)
  zoneMinutes := padded 2 (zoneMinutes offset % 60)

/-- Whether the year of a time is written in four digits. -/
structure FourDigits (t : DateTime) : Prop where
  nonneg : 0 ≤ t.date.year
  le : t.date.year ≤ 9999

/-- Zones that are told exactly. -/
structure WholeMinutes (offset : Int) : Prop where
  dvd : 60 ∣ offset
  west : -86400 < offset
  east : offset < 86400

section
variable {t : DateTime} {offset : Int}

theorem text_fieldsOf {seconds : Int} (h : FourDigits (DateTime.ofSeconds (seconds + offset))) :
    (fieldsOf (DateTime.ofSeconds (seconds + offset)) offset).text = stamp seconds offset := by
  simp [stamp, DateFields.text, fieldsOf, year, zone, h.nonneg, h.le]

theorem WholeMinutes.zoneMinutes_eq (H : WholeMinutes offset) :
    zoneMinutes offset * 60 = offset.natAbs ∧ zoneMinutes offset < 1440 := by
  obtain ⟨⟨minutes, rfl⟩, hwest, heast⟩ := H
  unfold zoneMinutes
  omega

theorem sound_fieldsOf (H : t.Valid) (hyear : FourDigits t) (hzone : WholeMinutes offset) :
    (fieldsOf t offset).Sound := by
  have hday := H.date.day_le.trans (Date.daysInMonth_le t.date.year t.date.month)
  have hmonth := monthName_spec t.date.month (Nat.lt_succ_of_le H.date.month_le) H.date.month_pos
  have hlast := hyear.le
  have hminutes := hzone.zoneMinutes_eq.2
  have hsign : (fieldsOf t offset).sign = '+' ∨ (fieldsOf t offset).sign = '-' := by
    by_cases h : offset < 0
    · exact .inr (if_pos h)
    · exact .inl (if_neg h)
  exact {
    day := digits_padded (by decide) (by omega)
    month := hmonth.1
    year := digits_padded (by decide) (by omega)
    hour := digits_padded (by decide) (H.hour_lt.trans (by decide))
    minute := digits_padded (by decide) (H.minute_lt.trans (by decide))
    second := digits_padded (by decide) (H.second_lt.trans (by decide))
    sign := hsign
    zoneHours := digits_padded (by decide) (by omega)
    zoneMinutes := digits_padded (by decide) (by omega) }

theorem time_fieldsOf (H : t.Valid) (hyear : FourDigits t) : (fieldsOf t offset).time = t := by
  have hmonth := monthName_spec t.date.month (Nat.lt_succ_of_le H.date.month_le) H.date.month_pos
  obtain ⟨⟨year, month, day⟩, hour, minute, second⟩ := t
  simp only [DateFields.time, fieldsOf, number_padded, hmonth.2, Int.toNat_of_nonneg hyear.nonneg]

theorem zone_fieldsOf (H : WholeMinutes offset) : (fieldsOf t offset).zone = offset := by
  have hminutes := H.zoneMinutes_eq.1
  have hparts : number (fieldsOf t offset).zoneHours * 3600 +
      number (fieldsOf t offset).zoneMinutes * 60 = offset.natAbs := by
    simp only [fieldsOf, number_padded]
    omega
  unfold DateFields.zone
  rw [hparts]
  by_cases h : offset < 0
  · rw [if_pos (show (fieldsOf t offset).sign = '-' from if_pos h)]
    omega
  · have hsign : (fieldsOf t offset).sign = '+' := if_neg h
    rw [if_neg (by rw [hsign]; decide)]
    omega

theorem valid_fieldsOf (H : t.Valid) (hyear : FourDigits t) (hzone : WholeMinutes offset) :
    (fieldsOf t offset).Valid := by
  have hminutes := hzone.zoneMinutes_eq.2
  refine ⟨?_, ?_, ?_⟩
  · rwa [time_fieldsOf H hyear]
  · simp only [fieldsOf, number_padded]
    omega
  · simp only [fieldsOf, number_padded]
    omega

end

end Log

/-! ## Dates of the log -/

namespace Kernel

/-- What the system's clock shows, in nanoseconds after the start of 1970. -/
def systemTime (k : Kernel) : Int :=
  k.epoch * Nanoseconds.perSecond + k.clock + k.drift k.trace.size

/-- What a local clock shows. -/
def localTime (k : Kernel) : Int := k.systemTime + k.zone * Nanoseconds.perSecond

/-- The date of a line that is written to the access log now. -/
def date (k : Kernel) : List Char := Log.stamp (Sys.wallClock k).1 k.zone

/-- What a local clock shows to the second. -/
def localDateTime (k : Kernel) : DateTime := DateTime.ofSeconds ((Sys.wallClock k).1 + k.zone)

/-- Nanoseconds from the start of 1970 to that of another year. -/
def yearStart (year : Int) : Int :=
  Date.yearStart year * DateTime.secondsPerDay * Nanoseconds.perSecond

/-- Times at which the date has its fixed shape: the local year is one from 0 to 9999, those from
1970 on among them, and the zone is off by whole minutes and by less than a day. -/
structure Datable (k : Kernel) : Prop where
  zone : Log.WholeMinutes k.zone
  first : yearStart 0 ≤ k.localTime
  last : k.localTime < yearStart 10000

variable {k k' : Kernel}

/-- What the fields of a date are. They have the shape, and it can be found in one way only; they
are a date that the calendar has, a time of day and a zone; and they denote a second. -/
structure Dated (k : Kernel) (f : Log.DateFields) : Prop where
  sound : f.Sound
  text : f.text = k.date
  only {g : Log.DateFields} (H : g.Sound) (h : g.text = k.date) : g = f
  valid : f.Valid
  zone : f.zone = k.zone
  second : f.time.sinceEpoch - f.zone = k.systemTime / Nanoseconds.perSecond

theorem wallClock_eq (k : Kernel) :
    (Sys.wallClock k).1 = k.systemTime / Nanoseconds.perSecond := rfl

theorem Datable.fourDigits (H : k.Datable) : Log.FourDigits k.localDateTime := by
  have hfirst := H.first
  have hlast := H.last
  have hyear := (Date.ofDays_valid
    (((Sys.wallClock k).1 + k.zone) / DateTime.secondsPerDay)).yearStart_le_iff
  rw [Date.sinceEpoch_ofDays, wallClock_eq] at hyear
  unfold localTime yearStart Nanoseconds.perSecond DateTime.secondsPerDay at *
  rw [localDateTime, wallClock_eq]
  have hlt := (hyear 10000).not.1 (by omega)
  exact ⟨(hyear 0).1 (by omega), Int.lt_add_one_iff.1 (Int.not_le.1 hlt)⟩

/-- The fields that the date is written in. -/
theorem Datable.dated (H : k.Datable) : k.Dated (Log.fieldsOf k.localDateTime k.zone) := by
  have hvalid : k.localDateTime.Valid := DateTime.ofSeconds_valid _
  have hyear := H.fourDigits
  have hzone : (Log.fieldsOf k.localDateTime k.zone).zone = k.zone := Log.zone_fieldsOf H.zone
  have hsound := Log.sound_fieldsOf hvalid hyear H.zone
  have htext : (Log.fieldsOf k.localDateTime k.zone).text = k.date := Log.text_fieldsOf hyear
  refine ⟨hsound, htext, fun hg h => hg.unique hsound (h.trans htext.symm),
    Log.valid_fieldsOf hvalid hyear H.zone, hzone, ?_⟩
  calc (Log.fieldsOf k.localDateTime k.zone).time.sinceEpoch -
        (Log.fieldsOf k.localDateTime k.zone).zone
    _ = k.localDateTime.sinceEpoch - k.zone := by rw [hzone, Log.time_fieldsOf hvalid hyear]
    _ = (Sys.wallClock k).1 + k.zone - k.zone := by
      rw [localDateTime, DateTime.sinceEpoch_ofSeconds]
    _ = (Sys.wallClock k).1 := Int.add_sub_cancel _ _
    _ = k.systemTime / Nanoseconds.perSecond := wallClock_eq k

end Kernel

/-- **Dates denote seconds.** The date of a line has the fixed shape, with a date that the calendar
has, a time of day and a zone in its fields, which can be found in one way only. The time that they
denote, less what the zone is ahead, is the second that the system's clock is in. Two dates are the
same exactly if they are of one zone and of one second. -/
theorem dates_denote_seconds :
    (∀ k : Kernel, k.Datable → ∃ f : Log.DateFields, k.Dated f) ∧
    ∀ k k' : Kernel, k.Datable → k'.Datable → (k.date = k'.date ↔ k.zone = k'.zone ∧
      k.systemTime / Nanoseconds.perSecond = k'.systemTime / Nanoseconds.perSecond) := by
  refine ⟨fun k H => ⟨_, H.dated⟩, fun k k' H H' => ⟨fun h => ?_, fun ⟨hzone, hsecond⟩ => ?_⟩⟩
  · have D := H.dated
    have D' := H'.dated
    have hfields := D'.only D.sound (D.text.trans h)
    exact ⟨by rw [← D.zone, hfields, D'.zone], by rw [← D.second, hfields, D'.second]⟩
  · rw [Kernel.date, Kernel.date, Kernel.wallClock_eq, Kernel.wallClock_eq, hzone, hsecond]

example : String.ofList (Log.stamp 1620965123 0) = "[14/May/2021:04:05:23 +0000]" := by decide

/-- The last day of a February in a year that ends a century, in a zone where March has yet to
begin. -/
def Kernel.leapDay : Kernel := { epoch := 951868800, clock := 999999999, zone := -19800 }

/-- A nanosecond later. -/
def Kernel.leapDayLater : Kernel := { Kernel.leapDay with clock := 1000000000 }

theorem dates_denote_seconds_leap_day : Kernel.leapDay.Datable ∧ Kernel.leapDayLater.Datable ∧
    Kernel.leapDay.date = "[29/Feb/2000:18:30:00 -0530]".toList ∧
    (∃ f : Log.DateFields, Kernel.leapDay.Dated f) ∧
    Kernel.leapDay.date ≠ Kernel.leapDayLater.date := by
  have hzone : Log.WholeMinutes (-19800) := ⟨by decide, by decide, by decide⟩
  have hdatable : Kernel.leapDay.Datable := by
    refine ⟨hzone, ?_, ?_⟩ <;> rw [Kernel.yearStart, Date.yearStart_eq] <;> decide
  have hlater : Kernel.leapDayLater.Datable := by
    refine ⟨hzone, ?_, ?_⟩ <;> rw [Kernel.yearStart, Date.yearStart_eq] <;> decide
  refine ⟨hdatable, hlater, by decide, dates_denote_seconds.1 _ hdatable, fun h => ?_⟩
  have hsame := ((dates_denote_seconds.2 _ _ hdatable hlater).1 h).2
  exact absurd hsame (by decide)

end OnePage

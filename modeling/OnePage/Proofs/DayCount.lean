import Mathlib.Algebra.Order.BigOperators.Group.Finset
import Mathlib.Tactic.IntervalCases
import OnePage.Calendar

/-! # Counting days

How far a date is from the start of 1970 is a matter of counting: the days of the years between,
those of the months gone by, and those of the month (`Date.sinceEpoch`). The date that is worked out
for a day is one that the calendar has, and counting comes back to the day
(`Date.sinceEpoch_ofDays`); so it is with the time of day (`DateTime.sinceEpoch_ofSeconds`). In
between stands a calendar whose years start on 1 March (`MarchDate`), where a leap day comes last
and the months before it are all as long as in any other year. -/

namespace OnePage

namespace Date

def daysInYear (year : Int) : Nat := if isLeapYear year then 366 else 365

/-- Days from the start of 1970 to that of another year, less than zero for an earlier one. -/
def yearStart (year : Int) : Int :=
  ∑ n ∈ Finset.range (year - 1970).toNat, (daysInYear (1970 + n) : Int) -
    ∑ n ∈ Finset.range (1970 - year).toNat, (daysInYear (1970 - (n + 1)) : Int)

/-- Days from the start of a year to that of a month. -/
def monthStart (year : Int) (month : Nat) : Nat :=
  ∑ n ∈ Finset.range (month - 1), daysInMonth year (n + 1)

/-- Days from 1 January 1970 to a date. -/
def sinceEpoch (d : Date) : Int := yearStart d.year + monthStart d.year d.month + d.day - 1

variable {d : Date} {day month : Nat}

/-! ## Years -/

theorem yearStart_add_one (year : Int) :
    yearStart (year + 1) = yearStart year + daysInYear year := by
  unfold yearStart
  by_cases h : 1970 ≤ year
  · have hafter : (year + 1 - 1970).toNat = (year - 1970).toNat + 1 := by omega
    have hbefore : (1970 - (year + 1)).toNat = (1970 - year).toNat := by omega
    have hyear : 1970 + ((year - 1970).toNat : Int) = year := by omega
    rw [hafter, hbefore, Finset.sum_range_succ, hyear]
    exact add_sub_right_comm _ _ _
  · have hafter : (year + 1 - 1970).toNat = (year - 1970).toNat := by omega
    have hbefore : (1970 - year).toNat = (1970 - (year + 1)).toNat + 1 := by omega
    have hyear : 1970 - (((1970 - (year + 1)).toNat : Int) + 1) = year := by omega
    rw [hafter, hbefore, Finset.sum_range_succ, hyear]
    omega

theorem yearStart_mono {year year' : Int} (h : year ≤ year') :
    yearStart year ≤ yearStart year' := by
  have hstep (y : Int) : yearStart y ≤ yearStart (y + 1) := by
    rw [yearStart_add_one]
    omega
  exact monotone_int_of_le_succ hstep h

theorem daysInYear_le (year : Int) : daysInYear year ≤ 366 := by
  unfold daysInYear
  split <;> decide

theorem daysInYear_eq (year : Int) : (daysInYear year : Int) =
    365 + (year / 4 - (year - 1) / 4) - (year / 100 - (year - 1) / 100) +
      (year / 400 - (year - 1) / 400) := by
  simp only [daysInYear, isLeapYear, Bool.and_eq_true, Bool.or_eq_true, beq_iff_eq, bne_iff_ne]
  split <;> omega

theorem daysInYear_add_cycles (cycles year : Int) :
    daysInYear (cycles * 400 + year) = daysInYear year := by
  have h := daysInYear_eq (cycles * 400 + year)
  have h' := daysInYear_eq year
  omega

theorem yearStart_eq (year : Int) : yearStart year =
    365 * year + (year - 1) / 4 - (year - 1) / 100 + (year - 1) / 400 - 719527 := by
  refine Int.inductionOn' year 1970 (by decide) (fun y _ ih => ?_) fun y _ ih => ?_
  · rw [yearStart_add_one, ih, daysInYear_eq]
    omega
  · have hstep := yearStart_add_one (y - 1)
    rw [Int.sub_add_cancel, ih, daysInYear_eq] at hstep
    omega

/-! ## Months -/

theorem daysInMonth_le (year : Int) (month : Nat) : daysInMonth year month ≤ 31 := by
  unfold daysInMonth
  split_ifs <;> decide

theorem monthStart_add_one (year : Int) (hpos : 1 ≤ month) :
    monthStart year (month + 1) = monthStart year month + daysInMonth year month := by
  have hsucc : month + 1 - 1 = month - 1 + 1 := by omega
  rw [monthStart, hsucc, Finset.sum_range_succ, Nat.sub_add_cancel hpos, monthStart]

/-- From March to December the months are as long as the formula has them. -/
theorem daysBeforeMonth_add_one (h : month < 10) (year : Int) :
    daysBeforeMonth (month + 1) = daysBeforeMonth month + daysInMonth year (month + 3) := by
  interval_cases month <;> rfl

theorem monthStart_add_three (h : month ≤ 10) (year : Int) :
    monthStart year (month + 3) = 31 + daysInMonth year 2 + daysBeforeMonth month := by
  induction month with
  | zero => rfl
  | succ month ih =>
    rw [Nat.add_right_comm, monthStart_add_one year (by omega), ih (Nat.le_of_succ_le h),
      daysBeforeMonth_add_one (Nat.lt_of_succ_le h) year, Nat.add_assoc]

/-- February is as long as the rest of the year leaves it. -/
theorem daysInYear_eq_add_february (year : Int) :
    daysInYear year = daysBeforeMonth 11 + daysInMonth year 2 := by
  unfold daysInYear daysInMonth
  split <;> rfl

theorem monthStart_thirteen (year : Int) : monthStart year 13 = daysInYear year := by
  have hlast : daysBeforeMonth 11 = 31 + daysBeforeMonth 10 := rfl
  have hthree := monthStart_add_three (Nat.le_refl 10) year
  rw [hthree, daysInYear_eq_add_february, hlast]
  omega

theorem Valid.monthStart_le (H : d.Valid) :
    monthStart d.year d.month + d.day ≤ daysInYear d.year :=
  calc monthStart d.year d.month + d.day
    _ ≤ monthStart d.year d.month + daysInMonth d.year d.month := Nat.add_le_add_left H.day_le _
    _ = monthStart d.year (d.month + 1) := (monthStart_add_one d.year H.month_pos).symm
    _ ≤ monthStart d.year 13 :=
      Finset.sum_le_sum_of_subset (Finset.range_mono H.month_le)
    _ = daysInYear d.year := monthStart_thirteen d.year

theorem Valid.yearStart_le_iff (H : d.Valid) (year : Int) :
    yearStart year ≤ d.sinceEpoch ↔ year ≤ d.year := by
  have hpos := H.day_pos
  have hle := H.monthStart_le
  unfold sinceEpoch
  constructor
  · intro h
    by_contra hlt
    have hmono := yearStart_mono (Int.add_one_le_of_lt (Int.not_le.1 hlt))
    rw [yearStart_add_one] at hmono
    omega
  · intro h
    have hmono := yearStart_mono h
    omega

theorem Valid.sinceEpoch_eq_toDays (H : d.Valid) : d.sinceEpoch = d.toDays := by
  have hyear := daysInYear_eq d.year
  have hfebruary := daysInYear_eq_add_february d.year
  have hmonth : d.month = 1 ∨ d.month = 2 ∨ ∃ month ≤ 9, d.month = month + 3 := by
    have hpos := H.month_pos
    have hle := H.month_le
    by_cases h : d.month ≤ 2
    · omega
    · exact .inr (.inr ⟨d.month - 3, by omega, by omega⟩)
  unfold sinceEpoch toDays daysToEpoch
  rw [yearStart_eq]
  rcases hmonth with hmonth | hmonth | ⟨month, hle, hmonth⟩ <;> rw [hmonth]
  · have hstart : monthStart d.year 1 = 0 := rfl
    have hbefore : daysBeforeMonth (1 + 9) = 306 := rfl
    have hearly : 1 ≤ 2 := Nat.le_succ 1
    simp only [hearly, if_true, hstart, hbefore]
    omega
  · have hstart : monthStart d.year 2 = 31 := rfl
    have hbefore : daysBeforeMonth (2 + 9) = 337 := rfl
    simp only [Nat.le_refl, if_true, hstart, hbefore]
    omega
  · have hlate : ¬ month + 3 ≤ 2 := by omega
    have hbefore : daysBeforeMonth 11 = 337 := rfl
    rw [monthStart_add_three (Nat.le_succ_of_le hle)]
    simp only [hlate, if_false, Nat.add_sub_cancel]
    omega

/-! ## Years that start in March -/

/-- What a day's place in its cycle is once the leap days are left out. -/
def withoutLeapDays (day : Nat) : Nat := day - day / 1460 + day / 36524 - day / 146096

theorem withoutLeapDays_mono {day' : Nat} (h : day ≤ day') :
    withoutLeapDays day ≤ withoutLeapDays day' := by
  have hstep (n : Nat) : withoutLeapDays n ≤ withoutLeapDays (n + 1) := by
    unfold withoutLeapDays
    omega
  exact monotone_nat_of_le_succ hstep h

/-- A year starts after as many days as all years have, and a leap day does not count. -/
theorem withoutLeapDays_daysBeforeYear : ∀ year < 400,
    withoutLeapDays (daysBeforeYear year) = 365 * year ∧
      (0 < year → withoutLeapDays (daysBeforeYear year - 1) < 365 * year) := by
  decide +kernel

theorem le_yearOfDay_iff {year : Nat} (h : year < 400) :
    year ≤ yearOfDay day ↔ daysBeforeYear year ≤ day := by
  obtain ⟨hfirst, hlast⟩ := withoutLeapDays_daysBeforeYear year h
  have hdiv : year ≤ yearOfDay day ↔ 365 * year ≤ withoutLeapDays day := by
    rw [Nat.mul_comm]
    exact Nat.le_div_iff_mul_le (by decide)
  rw [hdiv]
  constructor
  · intro hle
    by_contra hlt
    have hpos : 0 < year := Nat.pos_of_ne_zero fun h => hlt (h ▸ Nat.zero_le day)
    have hmono := withoutLeapDays_mono (Nat.le_pred_of_lt (Nat.not_le.1 hlt))
    exact absurd (hlast hpos) (Nat.not_lt.2 (hle.trans hmono))
  · intro hle
    exact hfirst ▸ withoutLeapDays_mono hle

theorem yearOfDay_lt (h : day < daysPerCycle) : yearOfDay day < 400 := by
  have hmono : withoutLeapDays day ≤ withoutLeapDays (daysPerCycle - 1) :=
    withoutLeapDays_mono (Nat.le_pred_of_lt h)
  have hlast : withoutLeapDays (daysPerCycle - 1) = 145999 := by decide
  exact Nat.div_lt_of_lt_mul (show withoutLeapDays day < 365 * 400 by omega)

/-- A day lies within the year that it is said to lie in. -/
theorem yearOfDay_spec (h : day < daysPerCycle) : daysBeforeYear (yearOfDay day) ≤ day ∧
    day < daysBeforeYear (yearOfDay day) + daysInYear (yearOfDay day + 1 : Nat) := by
  have hlt := yearOfDay_lt h
  refine ⟨(le_yearOfDay_iff hlt).1 (Nat.le_refl _), ?_⟩
  generalize hyear : yearOfDay day = year at hlt
  have hlength := daysInYear_eq (year + 1 : Nat)
  unfold daysBeforeYear
  by_cases hend : year + 1 < 400
  · have hnext : ¬ daysBeforeYear (year + 1) ≤ day := by
      rw [← le_yearOfDay_iff hend, hyear]
      exact Nat.not_succ_le_self year
    unfold daysBeforeYear at hnext
    omega
  · -- the last year of a cycle goes on as long as the cycle
    unfold daysPerCycle at h
    omega

theorem monthOfDay_spec (h : day < 366) : monthOfDay day < 12 ∧
    daysBeforeMonth (monthOfDay day) ≤ day ∧ day < daysBeforeMonth (monthOfDay day + 1) := by
  unfold daysBeforeMonth monthOfDay
  omega

/-- A day in a calendar that counts the years of a cycle and the months from March. -/
structure MarchDate where
  cycle : Int
  year : Nat
  month : Nat
  day : Nat

namespace MarchDate

/-- Days that this calendar has. Its last month ends where the year does. -/
structure Sound (p : MarchDate) : Prop where
  year_lt : p.year < 400
  month_lt : p.month < 12
  day_lt : daysBeforeMonth p.month + p.day < daysBeforeMonth (p.month + 1)
  within : daysBeforeMonth p.month + p.day < daysInYear (p.cycle * 400 + p.year + 1)

/-- How many days it comes after 1 January 1970. -/
def days (p : MarchDate) : Int :=
  p.cycle * daysPerCycle + (daysBeforeYear p.year + daysBeforeMonth p.month + p.day : Nat) -
    daysToEpoch

/-- The same day in the calendar whose years start in January. -/
def date (p : MarchDate) : Date :=
  if p.month ≥ 10 then ⟨p.cycle * 400 + p.year + 1, p.month - 9, p.day + 1⟩
  else ⟨p.cycle * 400 + p.year, p.month + 3, p.day + 1⟩

variable {p : MarchDate}

theorem Sound.toDays_date (H : p.Sound) : p.date.toDays = p.days := by
  obtain ⟨cycle, year, month, day⟩ := p
  obtain ⟨hyear, hmonth, -, -⟩ := H
  simp only [date, days, daysPerCycle, daysToEpoch, daysBeforeYear] at *
  split
  · have hjanuary : month - 9 ≤ 2 := by omega
    have hback : month - 9 + 9 = month := by omega
    simp only [toDays, daysToEpoch, hjanuary, if_true, hback]
    omega
  · have hmarch : ¬ month + 3 ≤ 2 := by omega
    simp only [toDays, daysToEpoch, hmarch, if_false, Nat.add_sub_cancel]
    omega

theorem Sound.valid_date (H : p.Sound) : p.date.Valid := by
  obtain ⟨cycle, year, month, day⟩ := p
  obtain ⟨-, hmonth, hday, hwithin⟩ := H
  unfold date
  split
  · have hlate : month = 10 ∨ month = 11 := by simp only at *; omega
    rcases hlate with rfl | rfl
    · have hlength : daysBeforeMonth 11 = daysBeforeMonth 10 + 31 := rfl
      rw [hlength] at hday
      exact ⟨Nat.le_refl 1, by simp, Nat.le_add_left 1 day, Nat.lt_of_add_lt_add_left hday⟩
    · rw [daysInYear_eq_add_february] at hwithin
      exact ⟨Nat.le_succ 1, by simp, Nat.le_add_left 1 day, Nat.lt_of_add_lt_add_left hwithin⟩
  · have hearly : month < 10 := by simp only at *; omega
    rw [daysBeforeMonth_add_one hearly (cycle * 400 + year)] at hday
    exact ⟨Nat.le_add_left 1 _, Nat.add_le_add_right (Nat.le_of_lt_succ hearly) 3,
      Nat.le_add_left 1 day, Nat.lt_of_add_lt_add_left hday⟩

/-- The date that is worked out for a day comes from one of this calendar. -/
theorem exists_sound (days : Int) :
    ∃ p : MarchDate, p.Sound ∧ p.days = days ∧ p.date = ofDays days := by
  have hmod := Int.emod_nonneg (days + daysToEpoch) (b := daysPerCycle) (by decide)
  have hlt := Int.emod_lt_of_pos (days + daysToEpoch) (b := daysPerCycle) (by decide)
  have hdiv := Int.ediv_mul_add_emod (days + daysToEpoch) daysPerCycle
  generalize hcycle : (days + daysToEpoch) / daysPerCycle = cycle at hdiv
  generalize hday : ((days + daysToEpoch) % daysPerCycle).toNat = day
  have hlt : day < daysPerCycle := by omega
  obtain ⟨hfirst, hend⟩ := yearOfDay_spec hlt
  have hyear := yearOfDay_lt hlt
  generalize hy : yearOfDay day = year at hfirst hend hyear
  have hwithin : day - daysBeforeYear year < 366 := by
    have hle := daysInYear_le (year + 1 : Nat)
    omega
  obtain ⟨hmonth, hbefore, hafter⟩ := monthOfDay_spec hwithin
  generalize hm : monthOfDay (day - daysBeforeYear year) = month at hmonth hbefore hafter
  have hday_eq := Nat.add_sub_cancel' hbefore
  refine ⟨⟨cycle, year, month, day - daysBeforeYear year - daysBeforeMonth month⟩,
    ⟨hyear, hmonth, ?_, ?_⟩, ?_, ?_⟩
  · rwa [hday_eq]
  · rw [hday_eq, Int.add_assoc, daysInYear_add_cycles]
    exact Nat.sub_lt_left_of_lt_add hfirst hend
  · simp only [MarchDate.days]
    omega
  · simp only [ofDays, date, hcycle, hday, hy, hm]
    split <;> simp

end MarchDate

theorem ofDays_valid (days : Int) : (ofDays days).Valid := by
  obtain ⟨p, hp, -, hdate⟩ := MarchDate.exists_sound days
  exact hdate ▸ hp.valid_date

theorem toDays_ofDays (days : Int) : (ofDays days).toDays = days := by
  obtain ⟨p, hp, hdays, hdate⟩ := MarchDate.exists_sound days
  rw [← hdate, hp.toDays_date, hdays]

/-- Counting comes back to the day. -/
theorem sinceEpoch_ofDays (days : Int) : (ofDays days).sinceEpoch = days := by
  rw [(ofDays_valid days).sinceEpoch_eq_toDays, toDays_ofDays]

end Date

namespace DateTime

/-- Seconds from the start of 1970. -/
def sinceEpoch (t : DateTime) : Int :=
  t.date.sinceEpoch * secondsPerDay + (t.hour * 3600 + t.minute * 60 + t.second : Nat)

theorem ofSeconds_valid (seconds : Int) : (ofSeconds seconds).Valid := by
  have hlt := Int.emod_lt_of_pos seconds (b := secondsPerDay) (by decide)
  unfold secondsPerDay at hlt
  refine ⟨Date.ofDays_valid _, ?_, ?_, ?_⟩ <;> simp only [ofSeconds, secondsPerDay] <;> omega

theorem toSeconds_ofSeconds (seconds : Int) : (ofSeconds seconds).toSeconds = seconds := by
  simp only [toSeconds, ofSeconds, Date.toDays_ofDays, secondsPerDay]
  omega

theorem Valid.sinceEpoch_eq_toSeconds {t : DateTime} (H : t.Valid) :
    t.sinceEpoch = t.toSeconds := by
  rw [sinceEpoch, H.date.sinceEpoch_eq_toDays, toSeconds]

theorem sinceEpoch_ofSeconds (seconds : Int) : (ofSeconds seconds).sinceEpoch = seconds := by
  rw [(ofSeconds_valid seconds).sinceEpoch_eq_toSeconds, toSeconds_ofSeconds]

end DateTime

end OnePage

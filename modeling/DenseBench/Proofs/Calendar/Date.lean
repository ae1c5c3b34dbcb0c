import DenseBench.Calendar.Date
import Mathlib.Tactic.IntervalCases

/-!
# Days and dates

Every day has a date, the date is one of the calendar, and it leads back to the day. Both ways go
through the place of a day in its era of 400 years that begins on the first of March.
-/

namespace DenseBench.Calendar

/-- The place of a day in its era: centuries, cycles of four years, years, and days of the year.
Only the last year of a cycle has a day 365, unless it ends a century that does not end the era. -/
structure InEra (dayOfEra century cycle year day : Int) : Prop where
  days_eq : dayOfEra = 36524 * century + 1461 * cycle + 365 * year + day
  century_mem : 0 ≤ century ∧ century ≤ 3
  cycle_mem : 0 ≤ cycle ∧ cycle ≤ 24
  year_mem : 0 ≤ year ∧ year ≤ 3
  day_mem : 0 ≤ day ∧ day ≤ 365
  leap : day = 365 → year = 3 ∧ (cycle < 24 ∨ century = 3)

theorem exists_inEra {n : Int} (hn : 0 ≤ n) (hlt : n < daysPerEra) :
    ∃ century cycle year day, InEra n century cycle year day := by
  change n < 146097 at hlt
  let century := min (n / 36524) 3
  let cycle := min ((n - 36524 * century) / 1461) 24
  let year := min ((n - 36524 * century - 1461 * cycle) / 365) 3
  refine ⟨century, cycle, year, n - 36524 * century - 1461 * cycle - 365 * year, ?_, ?_, ?_, ?_,
    ?_, ?_⟩ <;> omega

namespace InEra

variable {n century cycle year day : Int}

/-- Only the last day of the era is counted into a fifth century, and it is counted off again. -/
theorem century_eq (h : InEra n century cycle year day) :
    n / 36524 - n / 146096 = century := by
  obtain ⟨hdays, hcentury, hcycle, hyear, hday, hleap⟩ := h
  obtain ⟨r, hr⟩ : ∃ r, r = 1461 * cycle + 365 * year + day := ⟨_, rfl⟩
  have hbound : 0 ≤ r ∧ (r < 36524 ∨ n = 146096 ∧ century = 3) := by omega
  clear hcycle hyear hday hleap
  omega

/-- The correction by days of 29 February is at most one day off, which the year does not see. -/
theorem yearOfEra_eq (h : InEra n century cycle year day) :
    (n - n / 1460 + n / 36524 - n / 146096) / 365 = 100 * century + 4 * cycle + year := by
  have hcenturies := h.century_eq
  obtain ⟨hdays, hcentury, hcycle, hyear, hday, hleap⟩ := h
  obtain ⟨r, hr⟩ : ∃ r, r = 24 * century + cycle + 365 * year + day := ⟨_, rfl⟩
  have hcycles : n / 1460 = 25 * century + cycle + r / 1460 := by
    clear hcentury hcycle hyear hday hleap hcenturies
    omega
  -- The first day of a year is never counted off, and day 365 always is.
  have hoff : r / 1460 = 0 ∧ day ≤ 364 ∨ r / 1460 = 1 ∧ 1 ≤ day := by omega
  clear hleap hcycle hyear hcentury
  omega

theorem dayOfYear_eq (h : InEra n century cycle year day) :
    n - (365 * (100 * century + 4 * cycle + year) + (100 * century + 4 * cycle + year) / 4 -
      (100 * century + 4 * cycle + year) / 100) = day := by
  obtain ⟨hdays, hcentury, hcycle, hyear, hday, hleap⟩ := h
  omega

end InEra

namespace Date

/-- The date of a day of a year that begins on the first of March. -/
def ofYearDay (year day : Int) : Date :=
  let month := (5 * day + 2) / 153
  let dayOfMonth := day - (153 * month + 2) / 5 + 1
  if month < 10 then ⟨year, (month + 3).toNat, dayOfMonth.toNat⟩
  else ⟨year + 1, (month - 9).toNat, dayOfMonth.toNat⟩

theorem ofDays_eq_ofYearDay (days : Int) : ∃ era century cycle year day,
    InEra (days + epochShift - era * daysPerEra) century cycle year day ∧
      ofDays days = ofYearDay (100 * century + 4 * cycle + year + era * 400) day := by
  have hera : 0 < daysPerEra := by decide
  obtain ⟨century, cycle, year, day, h⟩ :=
    exists_inEra (Int.emod_nonneg (days + epochShift) hera.ne')
      (Int.emod_lt_of_pos (days + epochShift) hera)
  have hmod : (days + epochShift) % daysPerEra =
      days + epochShift - (days + epochShift) / daysPerEra * daysPerEra := by
    rw [Int.emod_def, Int.mul_comm]
  refine ⟨(days + epochShift) / daysPerEra, century, cycle, year, day, hmod ▸ h, ?_⟩
  unfold ofDays
  simp only [Int.fdiv_eq_ediv_of_nonneg _ hera.le, Int.fmod_eq_emod_of_nonneg _ hera.le,
    h.yearOfEra_eq, h.dayOfYear_eq]
  rfl

theorem toDays_ofYearDay {year day : Int} (hday : 0 ≤ day ∧ day ≤ 365) :
    (ofYearDay year day).toDays =
      year / 400 * daysPerEra + (year % 400 * 365 + year % 400 / 4 - year % 400 / 100 + day) -
        epochShift := by
  have hmonth : 0 ≤ (5 * day + 2) / 153 ∧ (5 * day + 2) / 153 ≤ 11 := by omega
  have hfirst : (153 * ((5 * day + 2) / 153) + 2) / 5 ≤ day := by omega
  unfold ofYearDay toDays
  dsimp only
  rw [Int.fdiv_eq_ediv_of_nonneg _ (by decide), Int.fmod_eq_emod_of_nonneg _ (by decide)]
  split
  · rename_i hearly
    rw [if_neg (by dsimp only; omega), if_neg (by dsimp only; omega)]
    dsimp only
    omega
  · rename_i hlate
    rw [if_pos (by dsimp only; omega), if_pos (by dsimp only; omega)]
    dsimp only
    rw [Int.add_sub_cancel]
    omega

theorem isValid_ofYearDay {year day : Int} (hday : 0 ≤ day ∧ day ≤ 365)
    (hleap : day = 365 → isLeapYear (year + 1) = true) : (ofYearDay year day).isValid = true := by
  obtain ⟨month, hmonth⟩ : ∃ month, month = (5 * day + 2) / 153 := ⟨_, rfl⟩
  have hrange : 0 ≤ month ∧ month ≤ 11 := by omega
  obtain ⟨hlow, hhigh⟩ := hrange
  have hlast : isLeapYear (year + 1) = true ∨ day ≤ 364 := by
    by_cases h : day = 365
    · exact .inl (hleap h)
    · exact .inr (by omega)
  unfold ofYearDay
  rw [← hmonth]
  rcases hlast with hlast | hlast <;> interval_cases month <;>
    simp [isValid, daysInMonth, hlast] <;> omega

theorem lt_of_isValid {date : Date} (h : date.isValid = true) :
    date.month < 100 ∧ date.day < 100 := by
  have hlength : daysInMonth date.year date.month ≤ 31 := by
    unfold daysInMonth
    split <;> (try split) <;> omega
  simp [isValid] at h
  omega

theorem toDays_ofDays (days : Int) : (ofDays days).toDays = days := by
  obtain ⟨era, century, cycle, year, day, h, hdate⟩ := ofDays_eq_ofYearDay days
  rw [hdate, toDays_ofYearDay h.day_mem]
  obtain ⟨hdays, hcentury, hcycle, hyear, hday, hleap⟩ := h
  change days + 719468 - era * 146097 = _ at hdays
  change _ / 400 * 146097 + _ - 719468 = days
  omega

theorem isValid_ofDays (days : Int) : (ofDays days).isValid = true := by
  obtain ⟨era, century, cycle, year, day, h, hdate⟩ := ofDays_eq_ofYearDay days
  rw [hdate]
  apply isValid_ofYearDay h.day_mem
  intro hlast
  obtain ⟨hyear, hcycle⟩ := h.leap hlast
  have hbounds := h.cycle_mem
  simp [isLeapYear]
  omega

end Date

end DenseBench.Calendar

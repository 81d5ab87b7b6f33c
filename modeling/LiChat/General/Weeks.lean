import LiChat.General.Calendar

/-!
# Weeks and their years

Days are counted in both directions from 1 January of year 1, which is a Monday; the calendar
repeats itself after 400 years.  A week belongs to the year that has at least a given number
of its days before the next one has, and the days of a week belong to the year of the week.
-/

namespace Calendar

def inCycle (z : ℤ) : ℕ := (z % 146097).toNat

def yearAt (z : ℤ) : ℤ := (civil (inCycle z)).year + 400 * (z / 146097)

def monthAt (z : ℤ) : ℕ := (civil (inCycle z)).month

def dayAt (z : ℤ) : ℕ := (civil (inCycle z)).day

def newYear (y : ℤ) : ℤ := 365 * (y - 1) + (y - 1) / 4 - (y - 1) / 100 + (y - 1) / 400

theorem newYear_add_cycles (y k : ℤ) : newYear (y + 400 * k) = newYear y + 146097 * k := by
  unfold newYear
  omega

theorem newYear_natCast {y : ℕ} (hy : 1 ≤ y) : newYear y = daysBeforeYear y := by
  unfold newYear daysBeforeYear
  omega

theorem exists_leapDay (z : ℤ) : ∃ l : ℕ, l ≤ 1 ∧
    newYear (yearAt z + 1) = newYear (yearAt z) + 365 + l ∧
    z = newYear (yearAt z) + daysBeforeMonth l (monthAt z) + (dayAt z - 1) ∧
    1 ≤ monthAt z ∧ monthAt z ≤ 12 ∧ 1 ≤ dayAt z ∧
    daysBeforeMonth l (monthAt z) + dayAt z ≤ daysBeforeMonth l (monthAt z + 1) := by
  obtain ⟨hyear, hmonth, hmonth', hday, hlength⟩ := civil_valid (inCycle z)
  have hnumber : daysBeforeYear (civil (inCycle z)).year +
      daysBeforeMonth (leapDay (civil (inCycle z)).year) (monthAt z) + (dayAt z - 1) =
        inCycle z := dayNumber_civil (inCycle z)
  have hcycle : (inCycle z : ℤ) = z % 146097 := Int.toNat_of_nonneg (Int.emod_nonneg z (by decide))
  have hstart : newYear (yearAt z) =
      daysBeforeYear (civil (inCycle z)).year + 146097 * (z / 146097) := by
    rw [yearAt, newYear_add_cycles, newYear_natCast hyear]
  have hnext : newYear (yearAt z + 1) =
      daysBeforeYear (civil (inCycle z)).year + 365 + leapDay (civil (inCycle z)).year +
        146097 * (z / 146097) := by
    have hsucc : yearAt z + 1 = ((civil (inCycle z)).year + 1 : ℕ) + 400 * (z / 146097) := by
      unfold yearAt
      push_cast
      ring
    rw [hsucc, newYear_add_cycles, newYear_natCast (by omega), daysBeforeYear_succ hyear]
    push_cast
    ring
  have hday' : 1 ≤ dayAt z := hday
  refine ⟨leapDay (civil (inCycle z)).year, leapDay_le _, ?_, ?_, hmonth, hmonth', hday, hlength⟩
  · omega
  · omega

/-- Monday is weekday 0, Sunday is weekday 6; the first week of a year has `minimalDays` days
of the year or more. -/
structure WeekRule where
  firstWeekday : ℤ
  minimalDays : ℕ
  pos : 1 ≤ minimalDays
  le : minimalDays ≤ 7

namespace WeekRule

def iso : WeekRule := ⟨0, 4, by decide, by decide⟩

def us : WeekRule := ⟨6, 1, by decide, by decide⟩

variable (rule : WeekRule)

def daysInto (z : ℤ) : ℤ := (z - rule.firstWeekday) % 7

def weekStart (z : ℤ) : ℤ := z - rule.daysInto z

/-- The week of January `minimalDays` is the first one of the year. -/
def firstWeek (y : ℤ) : ℤ := rule.weekStart (newYear y + rule.minimalDays - 1)

def weekYear (z : ℤ) : ℤ :=
  if z < rule.firstWeek (yearAt z) then yearAt z - 1
  else if rule.firstWeek (yearAt z + 1) ≤ z then yearAt z + 1
  else yearAt z

theorem daysInto_bounds (z : ℤ) : 0 ≤ rule.daysInto z ∧ rule.daysInto z < 7 := by
  unfold daysInto
  omega

theorem weekStart_le_iff (a z : ℤ) : rule.weekStart a ≤ z ↔ a < rule.weekStart z + 7 := by
  unfold weekStart daysInto
  omega

variable {rule}

theorem firstWeek_le_iff (y z : ℤ) :
    rule.firstWeek y ≤ z ↔ newYear y + rule.minimalDays ≤ z - rule.daysInto z + 7 := by
  rw [firstWeek, weekStart_le_iff, weekStart]
  omega

theorem weekYear_eq_iff (z : ℤ) : rule.weekYear z = yearAt z ↔
    ¬ z < rule.firstWeek (yearAt z) ∧ ¬ rule.firstWeek (yearAt z + 1) ≤ z := by
  unfold weekYear
  split_ifs <;> omega

/-- A day in January that belongs to the last week of the year before. -/
def BeforeFirstWeek (rule : WeekRule) (z : ℤ) : Prop :=
  monthAt z = 1 ∧ dayAt z + (7 - rule.minimalDays : ℤ) ≤ rule.daysInto z

/-- A day in December that belongs to the first week of the year after. -/
def InNextFirstWeek (rule : WeekRule) (z : ℤ) : Prop :=
  monthAt z = 12 ∧ 31 + rule.daysInto z < dayAt z + (7 - rule.minimalDays : ℤ)

instance (z : ℤ) : Decidable (rule.BeforeFirstWeek z) := inferInstanceAs (Decidable (_ ∧ _))

instance (z : ℤ) : Decidable (rule.InNextFirstWeek z) := inferInstanceAs (Decidable (_ ∧ _))

theorem beforeFirstWeek_iff (z : ℤ) :
    z < rule.firstWeek (yearAt z) ↔ rule.BeforeFirstWeek z := by
  obtain ⟨l, hl, -, hz, hmonth, hmonth', hday, -⟩ := exists_leapDay z
  have hinto := rule.daysInto_bounds z
  have hle := rule.le
  rw [← not_le, firstWeek_le_iff, BeforeFirstWeek]
  by_cases hjanuary : monthAt z = 1
  · rw [hjanuary, daysBeforeMonth] at hz
    omega
  · -- the first week begins in January
    have hlater := daysBeforeMonth_mono (by omega : 2 ≤ monthAt z) (by omega) hl
    rw [daysBeforeMonth] at hlater
    omega

theorem inNextFirstWeek_iff (z : ℤ) :
    rule.firstWeek (yearAt z + 1) ≤ z ↔ rule.InNextFirstWeek z := by
  obtain ⟨l, hl, hnext, hz, hmonth, hmonth', hday, hlength⟩ := exists_leapDay z
  have hinto := rule.daysInto_bounds z
  have hpos := rule.pos
  rw [firstWeek_le_iff, InNextFirstWeek]
  by_cases hdecember : monthAt z = 12
  · rw [hdecember, daysBeforeMonth] at hz
    omega
  · -- the first week of the next year begins in December
    have hearlier := daysBeforeMonth_mono (by omega : monthAt z + 1 ≤ 12) (by decide) hl
    have hnovember : daysBeforeMonth l 12 = 334 + l := rfl
    omega

theorem weekYear_eq_yearAt_iff (z : ℤ) :
    rule.weekYear z = yearAt z ↔ ¬ rule.BeforeFirstWeek z ∧ ¬ rule.InNextFirstWeek z := by
  rw [weekYear_eq_iff, beforeFirstWeek_iff, inNextFirstWeek_iff]

end WeekRule

end Calendar

import LiChat.DateFormat
import LiChat.General.Weeks

/-!
# Elapsed times

`timeElapsed` and `formatCallTime` show a time of the last day relative to now or by the
clock, and an older one by its date.  The date is written with the pattern dd/MM/YYYY, whose
letter Y stands for the year of the week.
-/

namespace LiChat
open Calendar Decimal

namespace DateFormatter

/-- A run of a letter in a pattern, of the widths that the app uses, at the `n`-th second since
the beginning of year 1. -/
def patternRun (rule : WeekRule) (n : ℤ) (letter : Char) (width : ℕ) : List Char :=
  match letter with
  | 'y' => signed width (yearAt (n / 86400))
  | 'Y' => signed width (rule.weekYear (n / 86400))
  | 'M' => atLeast width (monthAt (n / 86400))
  | 'd' => atLeast width (dayAt (n / 86400))
  | 'H' => atLeast width (n % 86400 / 3600).toNat
  | 'm' => atLeast width (n % 3600 / 60).toNat
  | 's' => atLeast width (n % 60).toNat
  | letter => List.replicate width letter

/-- `string(from:)` once `dateFormat` has been set; the rule is that of the user's locale. -/
def stringIn (f : DateFormatter) (rule : WeekRule) (dateFormat : String) (date : Date) : String :=
  String.ofList ((dateFormat.toList.splitBy (· == ·)).flatMap fun run =>
    match run with
    | [] => []
    | letter :: rest => patternRun rule (f.wallClock date) letter (rest.length + 1))

def wallDay (f : DateFormatter) (date : Date) : ℤ := f.wallClock date / 86400

/-- The day, the month and the calendar year that the clock shows. -/
def dayMonthYear (f : DateFormatter) (date : Date) : String :=
  String.ofList (atLeast 2 (dayAt (f.wallDay date)) ++ '/' ::
    (atLeast 2 (monthAt (f.wallDay date)) ++ '/' :: signed 4 (yearAt (f.wallDay date))))

end DateFormatter

section
variable (f : DateFormatter) (rule : WeekRule) (now date : Date)

def timeElapsed : String :=
  let seconds := now - date
  if seconds < 60 then "Just now"
  else if seconds < 60 * 60 then
    let minutes := ⌊seconds / 60⌋
    let minText := if minutes > 1 then "mins" else "min"
    toString minutes ++ " " ++ minText
  else if seconds < 24 * 60 * 60 then
    let hours := ⌊seconds / (60 * 60)⌋
    let hourText := if hours > 1 then "hours" else "hour"
    toString hours ++ " " ++ hourText
  else f.stringIn rule "dd/MM/YYYY" date

def formatCallTime : String :=
  let seconds := now - date
  if seconds < 60 then "Just now"
  else if seconds < 24 * 60 * 60 then f.stringIn rule "HH:mm" date
  else f.stringIn rule "dd/MM/YYYY" date

/-- The text of the date label of a chat; the time is now where kDATE is missing or not 14
characters long. -/
def dateLabel (created : Option String) : Option String := do
  let date ← match created with
    | some created => if created.length ≠ 14 then some now else f.date created
    | none => some now
  some (timeElapsed f rule now date)

end

namespace DateFormatter
variable {f : DateFormatter} {rule : WeekRule} {date : Date}

theorem stringIn_weekYear (f : DateFormatter) (rule : WeekRule) (date : Date) :
    f.stringIn rule "dd/MM/YYYY" date =
      String.ofList (atLeast 2 (dayAt (f.wallDay date)) ++ '/' ::
        (atLeast 2 (monthAt (f.wallDay date)) ++ '/' :: signed 4 (rule.weekYear (f.wallDay date)))) := by
  have hruns : "dd/MM/YYYY".toList.splitBy (· == ·) =
      [['d', 'd'], ['/'], ['M', 'M'], ['/'], ['Y', 'Y', 'Y', 'Y']] := by decide
  rw [stringIn, hruns]
  simp [patternRun, wallDay]

def ShowsYear (f : DateFormatter) (rule : WeekRule) (date : Date) : Prop :=
  ¬ rule.BeforeFirstWeek (f.wallDay date) ∧ ¬ rule.InNextFirstWeek (f.wallDay date)

instance : Decidable (f.ShowsYear rule date) := inferInstanceAs (Decidable (_ ∧ _))

/-- With the rule of ISO: Friday to Sunday on 1 January, Saturday and Sunday on 2 January and
Sunday on 3 January, and their counterparts in December. -/
theorem showsYear_iso : f.ShowsYear .iso date ↔
    ¬ (monthAt (f.wallDay date) = 1 ∧ dayAt (f.wallDay date) + 3 ≤ f.wallDay date % 7) ∧
    ¬ (monthAt (f.wallDay date) = 12 ∧ 28 + f.wallDay date % 7 < dayAt (f.wallDay date)) := by
  unfold ShowsYear WeekRule.BeforeFirstWeek WeekRule.InNextFirstWeek WeekRule.daysInto WeekRule.iso
  dsimp only
  omega

/-- With the rule of the US: the days of the week of 1 January that are in December. -/
theorem showsYear_us : f.ShowsYear .us date ↔
    ¬ (monthAt (f.wallDay date) = 12 ∧ 25 + (f.wallDay date + 1) % 7 < dayAt (f.wallDay date)) := by
  obtain ⟨l, -, -, -, -, -, hday, -⟩ := exists_leapDay (f.wallDay date)
  unfold ShowsYear WeekRule.BeforeFirstWeek WeekRule.InNextFirstWeek WeekRule.daysInto WeekRule.us
  dsimp only
  omega

theorem stringIn_weekYear_eq_iff :
    f.stringIn rule "dd/MM/YYYY" date = f.dayMonthYear date ↔ f.ShowsYear rule date := by
  rw [stringIn_weekYear, dayMonthYear, String.ofList_inj, List.append_cancel_left_eq,
    List.cons_inj_right, List.append_cancel_left_eq, List.cons_inj_right, signed_inj]
  exact rule.weekYear_eq_yearAt_iff _

end DateFormatter

section
variable {f : DateFormatter} {rule : WeekRule} {now date : Date}

theorem timeElapsed_old (h : 24 * 60 * 60 ≤ now - date) :
    timeElapsed f rule now date = f.stringIn rule "dd/MM/YYYY" date := by
  have hsecond : ¬ now - date < 60 := by linarith
  have hminute : ¬ now - date < 60 * 60 := by linarith
  simp only [timeElapsed, if_neg hsecond, if_neg hminute, if_neg (not_lt.mpr h)]

theorem formatCallTime_old (h : 24 * 60 * 60 ≤ now - date) :
    formatCallTime f rule now date = f.stringIn rule "dd/MM/YYYY" date := by
  have hsecond : ¬ now - date < 60 := by linarith
  simp only [formatCallTime, if_neg hsecond, if_neg (not_lt.mpr h)]

/-- Whatever the rule of weeks: a time of more than a day ago is shown by its day, month and
calendar year exactly when it is not in a week that belongs to another year, which only the
first days of January and the last days of December can be. -/
theorem old_dates_year_iff (f : DateFormatter) (rule : WeekRule) (now date : Date)
    (h : 24 * 60 * 60 ≤ now - date) :
    (timeElapsed f rule now date = f.dayMonthYear date ↔ f.ShowsYear rule date) ∧
    (formatCallTime f rule now date = f.dayMonthYear date ↔ f.ShowsYear rule date) := by
  rw [timeElapsed_old h, formatCallTime_old h]
  exact ⟨DateFormatter.stringIn_weekYear_eq_iff, DateFormatter.stringIn_weekYear_eq_iff⟩

def noonOf (z : ℤ) : Date := (86400 * z + 43200 : ℤ)

theorem old_dates_year_february :
    timeElapsed (dateFormatter 0) .iso (noonOf 737100) (noonOf 737093) =
      (dateFormatter 0).dayMonthYear (noonOf 737093) ∧
    formatCallTime (dateFormatter 0) .us (noonOf 737100) (noonOf 737093) =
      (dateFormatter 0).dayMonthYear (noonOf 737093) :=
  ⟨(old_dates_year_iff (dateFormatter 0) .iso (noonOf 737100) (noonOf 737093)
      (by decide +kernel)).1.mpr (by decide +kernel),
    (old_dates_year_iff (dateFormatter 0) .us (noonOf 737100) (noonOf 737093)
      (by decide +kernel)).2.mpr (by decide +kernel)⟩

/-- Monday, 31 December 2018 is in the first week of 2019, by the rules of ISO and of the US. -/
theorem old_dates_year_fails_new_years_eve :
    (dateFormatter 0).dayMonthYear (noonOf 737058) = "31/12/2018" ∧
    timeElapsed (dateFormatter 0) .iso (noonOf 737093) (noonOf 737058) = "31/12/2019" ∧
    timeElapsed (dateFormatter 0) .us (noonOf 737093) (noonOf 737058) = "31/12/2019" ∧
    formatCallTime (dateFormatter 0) .iso (noonOf 737093) (noonOf 737058) = "31/12/2019" ∧
    formatCallTime (dateFormatter 0) .us (noonOf 737093) (noonOf 737058) = "31/12/2019" ∧
    24 * 60 * 60 < noonOf 737093 - noonOf 737058 := by
  decide +kernel

end

end LiChat

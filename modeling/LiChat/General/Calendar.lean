import Mathlib.Data.Nat.Init
import Mathlib.Order.Monotone.Basic
import Mathlib.Tactic.Ring
import Mathlib.Tactic.SplitIfs

/-!
# The proleptic Gregorian calendar

Days are counted from 1 January of year 1, which is day 0.  `civil` turns a day
number into a date and `dayNumber` turns it back; dates compare like the days
they name.
-/

namespace Calendar

@[ext] structure Civil where
  year : ℕ
  month : ℕ
  day : ℕ
  deriving DecidableEq, Repr

def isLeap (y : ℕ) : Bool := (y % 4 = 0 && y % 100 ≠ 0) || y % 400 = 0

def leapDay (y : ℕ) : ℕ := if isLeap y then 1 else 0

/-- Days before 1 January of year `y`. -/
def daysBeforeYear (y : ℕ) : ℕ := 365 * (y - 1) + (y - 1) / 4 - (y - 1) / 100 + (y - 1) / 400

/-- Days of the year before the first of month `m`; month 13 stands for the end
of the year.  `l` is the leap day. -/
def daysBeforeMonth (l : ℕ) : ℕ → ℕ
  | 0 | 1 => 0
  | 2 => 31
  | 3 => 59 + l
  | 4 => 90 + l
  | 5 => 120 + l
  | 6 => 151 + l
  | 7 => 181 + l
  | 8 => 212 + l
  | 9 => 243 + l
  | 10 => 273 + l
  | 11 => 304 + l
  | 12 => 334 + l
  | _ => 365 + l

/-- The year of a day: whole 400-year cycles, centuries, 4-year cycles, years. -/
def yearOf (z : ℕ) : ℕ :=
  let b := min 3 (z % 146097 / 36524)
  let r := z % 146097 - 36524 * b
  400 * (z / 146097) + 100 * b + 4 * (r / 1461) + min 3 (r % 1461 / 365) + 1

def monthOf (l doy : ℕ) : ℕ :=
  if doy < 31 then 1 else if doy < 59 + l then 2 else if doy < 90 + l then 3
  else if doy < 120 + l then 4 else if doy < 151 + l then 5 else if doy < 181 + l then 6
  else if doy < 212 + l then 7 else if doy < 243 + l then 8 else if doy < 273 + l then 9
  else if doy < 304 + l then 10 else if doy < 334 + l then 11 else 12

def civil (z : ℕ) : Civil :=
  let y := yearOf z
  let doy := z - daysBeforeYear y
  let m := monthOf (leapDay y) doy
  ⟨y, m, doy - daysBeforeMonth (leapDay y) m + 1⟩

def dayNumber (c : Civil) : ℕ :=
  daysBeforeYear c.year + daysBeforeMonth (leapDay c.year) c.month + (c.day - 1)

def Valid (c : Civil) : Prop :=
  1 ≤ c.year ∧ 1 ≤ c.month ∧ c.month ≤ 12 ∧ 1 ≤ c.day ∧
    daysBeforeMonth (leapDay c.year) c.month + c.day ≤
      daysBeforeMonth (leapDay c.year) (c.month + 1)

instance (c : Civil) : Decidable (Valid c) := inferInstanceAs (Decidable (_ ∧ _))

theorem leapDay_le (y : ℕ) : leapDay y ≤ 1 := by
  unfold leapDay
  split_ifs <;> omega

theorem leapDay_eq (y : ℕ) :
    leapDay y = if y % 4 = 0 ∧ y % 100 ≠ 0 ∨ y % 400 = 0 then 1 else 0 := by
  simp [leapDay, isLeap]

theorem succ_div_eq (n k : ℕ) : (n + 1) / k = n / k + if (n + 1) % k = 0 then 1 else 0 := by
  rw [Nat.succ_div]
  simp [Nat.dvd_iff_mod_eq_zero]

theorem daysBeforeYear_succ {y : ℕ} (hy : 1 ≤ y) :
    daysBeforeYear (y + 1) = daysBeforeYear y + 365 + leapDay y := by
  obtain ⟨n, rfl⟩ := Nat.exists_eq_add_of_le' hy
  have hle : n / 100 ≤ n := Nat.div_le_self n 100
  rw [leapDay_eq]
  simp only [daysBeforeYear, Nat.add_sub_cancel, succ_div_eq n 4, succ_div_eq n 100,
    succ_div_eq n 400]
  by_cases h4 : (n + 1) % 4 = 0 <;> by_cases h100 : (n + 1) % 100 = 0 <;>
    by_cases h400 : (n + 1) % 400 = 0 <;> simp [h4, h100, h400] <;> omega

theorem daysBeforeYear_mono {y y' : ℕ} (hy : 1 ≤ y) (h : y ≤ y') :
    daysBeforeYear y ≤ daysBeforeYear y' := by
  induction y', h using Nat.le_induction with
  | base => exact le_rfl
  | succ k hk ih =>
    rw [daysBeforeYear_succ (hy.trans hk)]
    omega

theorem yearOf_pos (z : ℕ) : 1 ≤ yearOf z := Nat.le_add_left 1 _

theorem daysBeforeYear_cycles {a b c d : ℕ} (hb : b ≤ 3) (hc : c ≤ 24) (hd : d ≤ 3) :
    daysBeforeYear (400 * a + 100 * b + 4 * c + d + 1) =
      146097 * a + 36524 * b + 1461 * c + 365 * d := by
  have h4 : (400 * a + 100 * b + 4 * c + d) / 4 = 100 * a + 25 * b + c := by omega
  have h100 : (400 * a + 100 * b + 4 * c + d) / 100 = 4 * a + b := by omega
  have h400 : (400 * a + 100 * b + 4 * c + d) / 400 = a := by omega
  rw [daysBeforeYear, Nat.add_sub_cancel, h4, h100, h400]
  omega

theorem daysBeforeYear_yearOf (z : ℕ) :
    daysBeforeYear (yearOf z) ≤ z ∧ z < daysBeforeYear (yearOf z + 1) := by
  obtain ⟨a, b, c, d, hb, hc, hd, hy, hle, hlt⟩ : ∃ a b c d, b ≤ 3 ∧ c ≤ 24 ∧ d ≤ 3 ∧
      yearOf z = 400 * a + 100 * b + 4 * c + d + 1 ∧
      146097 * a + 36524 * b + 1461 * c + 365 * d ≤ z ∧
      z < 146097 * a + 36524 * b + 1461 * c + 365 * d + 365 +
        (if d = 3 ∧ (c ≠ 24 ∨ b = 3) then 1 else 0) := by
    -- only the last year of a 4-year cycle has a leap day, and the last cycle of a century
    -- lacks it unless the century is the last of four
    refine ⟨z / 146097, min 3 (z % 146097 / 36524),
      (z % 146097 - 36524 * min 3 (z % 146097 / 36524)) / 1461,
      min 3 ((z % 146097 - 36524 * min 3 (z % 146097 / 36524)) % 1461 / 365),
      ?_, ?_, ?_, rfl, ?_, ?_⟩
    all_goals first | omega | (split_ifs <;> omega)
  rw [daysBeforeYear_succ (yearOf_pos z), hy, daysBeforeYear_cycles hb hc hd, leapDay_eq]
  refine ⟨hle, ?_⟩
  split_ifs at hlt ⊢ <;> omega

theorem monthOf_spec {l doy : ℕ} (hdoy : doy < 365 + l) :
    1 ≤ monthOf l doy ∧ monthOf l doy ≤ 12 ∧ daysBeforeMonth l (monthOf l doy) ≤ doy ∧
      doy < daysBeforeMonth l (monthOf l doy + 1) := by
  fun_cases monthOf l doy <;> simp only [daysBeforeMonth, Nat.reduceAdd] <;> omega

theorem daysBeforeMonth_mono {l m m' : ℕ} (h : m ≤ m') (hm' : m' ≤ 13) (hl : l ≤ 1) :
    daysBeforeMonth l m ≤ daysBeforeMonth l m' := by
  have hstep : ∀ k, k < 13 → daysBeforeMonth l k ≤ daysBeforeMonth l (k + 1) := by
    intro k hk
    match k, hk with
    | 0, _ | 1, _ | 2, _ | 3, _ | 4, _ | 5, _ | 6, _ | 7, _ | 8, _ | 9, _ | 10, _ | 11, _ | 12, _ =>
      simp only [daysBeforeMonth]
      omega
  induction m', h using Nat.le_induction with
  | base => exact le_rfl
  | succ k hk ih => exact (ih (by omega)).trans (hstep k (by omega))

theorem civil_valid (z : ℕ) : Valid (civil z) := by
  obtain ⟨hle, hlt⟩ := daysBeforeYear_yearOf z
  rw [daysBeforeYear_succ (yearOf_pos z)] at hlt
  obtain ⟨h1, h12, hge, hlt'⟩ :=
    monthOf_spec (by omega : z - daysBeforeYear (yearOf z) < 365 + leapDay (yearOf z))
  refine ⟨yearOf_pos z, h1, h12, Nat.le_add_left 1 _, ?_⟩
  simp only [civil]
  omega

theorem dayNumber_civil (z : ℕ) : dayNumber (civil z) = z := by
  obtain ⟨hle, hlt⟩ := daysBeforeYear_yearOf z
  rw [daysBeforeYear_succ (yearOf_pos z)] at hlt
  obtain ⟨h1, h12, hge, hlt'⟩ :=
    monthOf_spec (by omega : z - daysBeforeYear (yearOf z) < 365 + leapDay (yearOf z))
  simp only [dayNumber, civil]
  omega

theorem daysBeforeMonth_thirteen (l : ℕ) : daysBeforeMonth l 13 = 365 + l := rfl

theorem dayNumber_lt {c : Civil} (hc : Valid c) : dayNumber c < daysBeforeYear (c.year + 1) := by
  obtain ⟨hy, hm, hm', hd, hlen⟩ := hc
  have hend := daysBeforeMonth_mono (by omega : c.month + 1 ≤ 13) le_rfl (leapDay_le c.year)
  rw [daysBeforeMonth_thirteen] at hend
  rw [daysBeforeYear_succ hy, dayNumber]
  omega

def code (c : Civil) : ℕ := (c.year * 100 + c.month) * 100 + c.day

theorem day_le {c : Civil} (hc : Valid c) : c.day ≤ 31 := by
  obtain ⟨-, hm, hm', -, hlen⟩ := hc
  have hl := leapDay_le c.year
  have hm13 : c.month < 13 := by omega
  revert hlen
  generalize leapDay c.year = l at hl
  generalize c.month = m at hm hm13
  match m, hm13 with
  | 0, _ | 1, _ | 2, _ | 3, _ | 4, _ | 5, _ | 6, _ | 7, _ | 8, _ | 9, _ | 10, _ | 11, _ | 12, _ =>
    simp only [daysBeforeMonth]
    omega

/-- Later days have later dates: an earlier year, an earlier month of the same
year or an earlier day of the same month would name an earlier day. -/
theorem dayNumber_lt_of_code_lt {c d : Civil} (hc : Valid c) (hd : Valid d)
    (h : code c < code d) : dayNumber c < dayNumber d := by
  have hcd := day_le hc
  have hdd := day_le hd
  obtain ⟨hcy, hcm, hcm', hcd1, hclen⟩ := id hc
  obtain ⟨hdy, hdm, hdm', hdd1, hdlen⟩ := hd
  unfold code at h
  rcases Nat.lt_trichotomy c.year d.year with hy | hy | hy
  · calc dayNumber c < daysBeforeYear (c.year + 1) := dayNumber_lt hc
      _ ≤ daysBeforeYear d.year := daysBeforeYear_mono (by omega) hy
      _ ≤ dayNumber d := by unfold dayNumber; omega
  · unfold dayNumber
    rw [hy] at hclen h ⊢
    rcases Nat.lt_trichotomy c.month d.month with hm | hm | hm
    · have := daysBeforeMonth_mono (by omega : c.month + 1 ≤ d.month) (by omega)
        (leapDay_le d.year)
      omega
    · rw [hm]
      omega
    · omega
  · omega

theorem code_civil_strictMono : StrictMono fun z => code (civil z) := by
  intro z z' h
  by_contra hle
  rcases Nat.lt_or_eq_of_le (Nat.le_of_not_lt hle) with hlt | heq
  · have hlt' := dayNumber_lt_of_code_lt (civil_valid z') (civil_valid z) hlt
    rw [dayNumber_civil, dayNumber_civil] at hlt'
    omega
  · -- equal codes have equal fields, since month and day have two digits each
    obtain ⟨hv, hv'⟩ := And.intro (civil_valid z) (civil_valid z')
    have hd := day_le hv
    have hd' := day_le hv'
    obtain ⟨-, -, hm, -, -⟩ := hv
    obtain ⟨-, -, hm', -, -⟩ := hv'
    simp only [code] at heq
    have hcivil : civil z' = civil z := by
      ext <;> omega
    have hz := congrArg dayNumber hcivil
    rw [dayNumber_civil, dayNumber_civil] at hz
    omega

end Calendar

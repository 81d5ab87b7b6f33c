import LiChat.General.Calendar
import LiChat.General.Decimal
import Mathlib.Algebra.Order.Floor.Ring
import Mathlib.Data.Rat.Floor
import Mathlib.Data.String.Basic

/-!
# Date strings

`dateFormatter()` writes an instant as yyyyMMddHHmmss in the time zone that the
device has at that moment.  All dates of the app are stored as such strings and
compared as strings.
-/

namespace LiChat
open Calendar Decimal

/-- An instant, in seconds from the beginning of year 1 in UTC. -/
abbrev Date := ℚ

/-- A formatter for the pattern yyyyMMddHHmmss at a fixed offset from UTC. -/
structure DateFormatter where
  secondsFromGMT : ℤ

/-- `TimeZone.current.secondsFromGMT()` is the argument. -/
def dateFormatter (secondsFromGMT : ℤ) : DateFormatter := ⟨secondsFromGMT⟩

namespace DateFormatter

/-- The whole second that a clock at the formatter's offset shows. -/
def wallClock (f : DateFormatter) (date : Date) : ℤ := ⌊date⌋ + f.secondsFromGMT

def InYears (f : DateFormatter) (date : Date) : Prop :=
  0 ≤ f.wallClock date ∧ f.wallClock date < 86400 * daysBeforeYear 10000

instance (f : DateFormatter) (date : Date) : Decidable (f.InYears date) :=
  inferInstanceAs (Decidable (_ ∧ _))

/-- The fourteen digits of the `n`-th second since the beginning of year 1. -/
def digits (n : ℕ) : List Char :=
  let c := civil (n / 86400)
  pad 4 c.year ++ (pad 2 c.month ++ (pad 2 c.day ++
    (pad 2 (n % 86400 / 3600) ++ (pad 2 (n % 3600 / 60) ++ pad 2 (n % 60)))))

/-- `string(from:)`, for dates of the years 1 to 9999. -/
def string (f : DateFormatter) (date : Date) : String :=
  String.ofList (digits (f.wallClock date).toNat)

/-- `date(from:)`: fourteen digits that name an existing date and time of day. -/
def date (f : DateFormatter) (s : String) : Option Date := do
  let cs := s.toList
  guard (cs.length = 14)
  let year ← value (cs.take 4)
  let month ← value ((cs.drop 4).take 2)
  let day ← value ((cs.drop 6).take 2)
  let hour ← value ((cs.drop 8).take 2)
  let minute ← value ((cs.drop 10).take 2)
  let second ← value (cs.drop 12)
  guard (Valid ⟨year, month, day⟩ ∧ hour < 24 ∧ minute < 60 ∧ second < 60)
  let n := 86400 * dayNumber ⟨year, month, day⟩ + 3600 * hour + 60 * minute + second
  some ((n : ℤ) - f.secondsFromGMT : ℤ)

end DateFormatter

def stamp (n : ℕ) : ℕ :=
  code (civil (n / 86400)) * 10 ^ 6 +
    ((n % 86400 / 3600 * 100 + n % 3600 / 60) * 100 + n % 60)

theorem timeOfDay_lt (n : ℕ) :
    (n % 86400 / 3600 * 100 + n % 3600 / 60) * 100 + n % 60 < 10 ^ 6 := by omega

theorem digits_eq_pad (n : ℕ) : DateFormatter.digits n = pad 14 (stamp n) := by
  have hv := civil_valid (n / 86400)
  have hd := day_le hv
  obtain ⟨-, -, hm, -, -⟩ := hv
  have hh : n % 86400 / 3600 < 24 := by omega
  have hmi : n % 3600 / 60 < 60 := by omega
  have hs : n % 60 < 60 := by omega
  simp only [DateFormatter.digits]
  rw [pad_append 2 2 _ _ (by omega), pad_append 2 4 _ _ (by omega),
    pad_append 2 6 _ _ (by omega), pad_append 2 8 _ _ (by omega),
    pad_append 4 10 _ _ (by omega)]
  exact congrArg (pad 14) (by simp only [stamp, code]; ring)

theorem year_lt {n : ℕ} (h : n < 86400 * daysBeforeYear 10000) :
    (civil (n / 86400)).year < 10000 := by
  by_contra hge
  have hle := (daysBeforeYear_yearOf (n / 86400)).1
  have hmono := daysBeforeYear_mono (by decide) (Nat.le_of_not_lt hge)
  have hdiv : n / 86400 < daysBeforeYear 10000 := Nat.div_lt_of_lt_mul h
  exact absurd (hmono.trans hle) (by omega)

theorem stamp_lt {n : ℕ} (h : n < 86400 * daysBeforeYear 10000) : stamp n < 10 ^ 14 := by
  have hy := year_lt h
  have hv := civil_valid (n / 86400)
  have hd := day_le hv
  obtain ⟨-, -, hm, -, -⟩ := hv
  have ht := timeOfDay_lt n
  unfold stamp code
  omega

theorem stamp_strictMono : StrictMono stamp := by
  intro n n' h
  have ht := timeOfDay_lt n
  unfold stamp
  rcases Nat.lt_or_ge (n / 86400) (n' / 86400) with hz | hz
  · have hcode := code_civil_strictMono hz
    dsimp only at hcode
    omega
  · have hday : n / 86400 = n' / 86400 := le_antisymm (Nat.div_le_div_right h.le) hz
    rw [hday]
    omega

theorem string_lt_string {f g : DateFormatter} {s t : Date} (hs : f.InYears s) (ht : g.InYears t) :
    f.string s < g.string t ↔ f.wallClock s < g.wallClock t := by
  obtain ⟨m, hm⟩ := Int.eq_ofNat_of_zero_le hs.1
  obtain ⟨n, hn⟩ := Int.eq_ofNat_of_zero_le ht.1
  have hm' : m < 86400 * daysBeforeYear 10000 := by exact_mod_cast hm ▸ hs.2
  have hn' : n < 86400 * daysBeforeYear 10000 := by exact_mod_cast hn ▸ ht.2
  rw [DateFormatter.string, DateFormatter.string, hm, hn, String.lt_iff, String.toList_ofList,
    String.toList_ofList, Int.toNat_natCast, Int.toNat_natCast, digits_eq_pad, digits_eq_pad,
    pad_lt_pad (stamp_lt hm') (stamp_lt hn'), stamp_strictMono.lt_iff_lt, Nat.cast_lt]

/-- Every client reads the date strings of every other, as its own clock. -/
theorem DateFormatter.date_string (g : DateFormatter) {f : DateFormatter} {t : Date} (h : f.InYears t) :
    g.date (f.string t) = some ((f.wallClock t - g.secondsFromGMT : ℤ) : ℚ) := by
  obtain ⟨n, hn⟩ := Int.eq_ofNat_of_zero_le h.1
  have hlt : n < 86400 * daysBeforeYear 10000 := by exact_mod_cast hn ▸ h.2
  have hvalid := civil_valid (n / 86400)
  have hyear : (civil (n / 86400)).year < 10 ^ 4 := year_lt hlt
  have hmonth : (civil (n / 86400)).month < 10 ^ 2 := by
    have := hvalid.2.2.1
    omega
  have hday : (civil (n / 86400)).day < 10 ^ 2 := by
    have := day_le hvalid
    omega
  have hhour : n % 86400 / 3600 < 10 ^ 2 := by omega
  have hminute : n % 3600 / 60 < 10 ^ 2 := by omega
  have hsecond : n % 60 < 10 ^ 2 := by omega
  have htime : n % 86400 / 3600 < 24 ∧ n % 3600 / 60 < 60 ∧ n % 60 < 60 := by omega
  have hn' : 86400 * (n / 86400) + 3600 * (n % 86400 / 3600) + 60 * (n % 3600 / 60) + n % 60 = n := by
    omega
  -- the fields are cut out where they were put
  have hcut : ∀ (w : ℕ) (k : ℕ) (l : List Char), ((pad w k ++ l).take w = pad w k) ∧
      (pad w k ++ l).drop w = l :=
    fun w k l => ⟨List.take_left' (pad_length w k), List.drop_left' (pad_length w k)⟩
  have hdrop : ∀ (w v k : ℕ) (l : List Char), (pad w k ++ l).drop (w + v) = l.drop v := by
    intro w v k l
    rw [← List.drop_drop, (hcut w k l).2]
  rw [DateFormatter.string, hn, DateFormatter.date, String.toList_ofList, Int.toNat_natCast]
  have hlen : (digits n).length = 14 := by simp [digits]
  have h0 : (digits n).take 4 = pad 4 (civil (n / 86400)).year := (hcut ..).1
  have h1 : ((digits n).drop 4).take 2 = pad 2 (civil (n / 86400)).month := by
    rw [digits, (hcut ..).2, (hcut ..).1]
  have h2 : ((digits n).drop 6).take 2 = pad 2 (civil (n / 86400)).day := by
    rw [digits, hdrop 4 2, (hcut ..).2, (hcut ..).1]
  have h3 : ((digits n).drop 8).take 2 = pad 2 (n % 86400 / 3600) := by
    rw [digits, hdrop 4 4, hdrop 2 2, (hcut ..).2, (hcut ..).1]
  have h4 : ((digits n).drop 10).take 2 = pad 2 (n % 3600 / 60) := by
    rw [digits, hdrop 4 6, hdrop 2 4, hdrop 2 2, (hcut ..).2, (hcut ..).1]
  have h5 : (digits n).drop 12 = pad 2 (n % 60) := by
    rw [digits, hdrop 4 8, hdrop 2 6, hdrop 2 4, hdrop 2 2, (hcut ..).2]
  rw [hlen, h0, h1, h2, h3, h4, h5, value_pad hyear, value_pad hmonth, value_pad hday,
    value_pad hhour, value_pad hminute, value_pad hsecond]
  show (guard (Valid (civil (n / 86400)) ∧ n % 86400 / 3600 < 24 ∧ n % 3600 / 60 < 60 ∧
      n % 60 < 60) >>= fun _ => some (((86400 * dayNumber (civil (n / 86400)) +
        3600 * (n % 86400 / 3600) + 60 * (n % 3600 / 60) + n % 60 : ℕ) - g.secondsFromGMT : ℤ) : ℚ)) =
    some _
  rw [dayNumber_civil, hn', guard, if_pos ⟨hvalid, htime⟩]
  rfl

/-- The whole second of an instant. -/
def truncate (date : Date) : Date := (⌊date⌋ : ℤ)

theorem wallClock_truncate (f : DateFormatter) (date : Date) :
    f.wallClock (truncate date) = f.wallClock date := by
  rw [DateFormatter.wallClock, truncate, Int.floor_intCast, DateFormatter.wallClock]

theorem string_truncate (f : DateFormatter) (date : Date) :
    f.string (truncate date) = f.string date := by
  rw [DateFormatter.string, wallClock_truncate, DateFormatter.string]

theorem DateFormatter.date_string_self {f : DateFormatter} {t : Date} (h : f.InYears t) :
    f.date (f.string t) = some (truncate t) := by
  rw [f.date_string h, wallClock, add_sub_cancel_right]
  rfl

def IsDateString (s : String) : Prop := s.toList.length = 14 ∧ ∀ c ∈ s.toList, c.isDigit

theorem isDateString_string (f : DateFormatter) (date : Date) : IsDateString (f.string date) := by
  constructor
  · simp [DateFormatter.string, DateFormatter.digits]
  · intro c hc
    rw [DateFormatter.string, String.toList_ofList, digits_eq_pad] at hc
    exact isDigit_of_mem_pad hc

theorem length_string (f : DateFormatter) (date : Date) : (f.string date).length = 14 := by
  rw [← String.length_toList]
  exact (isDateString_string f date).1

example : (dateFormatter 3600).string (86400 * daysBeforeYear 2019 + 86400 * 34) =
    "20190204010000" := by decide +kernel

end LiChat

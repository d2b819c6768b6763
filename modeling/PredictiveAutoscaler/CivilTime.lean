/-
The proleptic Gregorian calendar in UTC: epoch seconds of a civil time, the
civil time of epoch seconds, and that each undoes the other.
-/
import Mathlib.Tactic

namespace PredictiveAutoscaler

/-- A date and a time of day, within their ranges or not. -/
structure CivilTime where
  year : ℤ
  month : ℤ
  day : ℤ
  hour : ℤ
  minute : ℤ
  second : ℤ
deriving DecidableEq, Repr

def isLeapYear (y : ℤ) : Prop := y % 4 = 0 ∧ (y % 100 ≠ 0 ∨ y % 400 = 0)

instance (y : ℤ) : Decidable (isLeapYear y) :=
  inferInstanceAs (Decidable (y % 4 = 0 ∧ (y % 100 ≠ 0 ∨ y % 400 = 0)))

/-- The days from the first of January of year 1 to that of year `y`. -/
def daysBeforeYear (y : ℤ) : ℤ :=
  365 * (y - 1) + (y - 1) / 4 - (y - 1) / 100 + (y - 1) / 400

/-- The days before a month, in a year with `leap` days in excess of 365.  The
fraction steps by 30 or 31 as the months do, but gives February 30 days. -/
def daysBeforeMonth (leap m : ℤ) : ℤ :=
  (367 * m - 362) / 12 + if m ≤ 2 then 0 else leap - 2

def leapDays (y : ℤ) : ℤ := if isLeapYear y then 1 else 0

def daysInMonth (y m : ℤ) : ℤ :=
  daysBeforeMonth (leapDays y) (m + 1) - daysBeforeMonth (leapDays y) m

/-- The days from the first of January of year 1 to the epoch. -/
def epochDay : ℤ := 719162

/-- Days since the epoch. -/
def dayNumber (y m d : ℤ) : ℤ :=
  daysBeforeYear y + daysBeforeMonth (leapDays y) m + (d - 1) - epochDay

namespace CivilTime

/-- A date of the calendar and a time of day. -/
structure Valid (t : CivilTime) : Prop where
  month_pos : 1 ≤ t.month
  month_le : t.month ≤ 12
  day_pos : 1 ≤ t.day
  day_le : t.day ≤ daysInMonth t.year t.month
  hour_nonneg : 0 ≤ t.hour
  hour_lt : t.hour < 24
  minute_nonneg : 0 ≤ t.minute
  minute_lt : t.minute < 60
  second_nonneg : 0 ≤ t.second
  second_lt : t.second < 60

theorem valid_iff (t : CivilTime) : t.Valid ↔
    (1 ≤ t.month ∧ t.month ≤ 12) ∧
      (1 ≤ t.day ∧ t.day ≤ daysInMonth t.year t.month) ∧
      (0 ≤ t.hour ∧ t.hour < 24) ∧ (0 ≤ t.minute ∧ t.minute < 60) ∧
      0 ≤ t.second ∧ t.second < 60 := by
  constructor
  · rintro ⟨h1, h2, h3, h4, h5, h6, h7, h8, h9, h10⟩
    exact ⟨⟨h1, h2⟩, ⟨h3, h4⟩, ⟨h5, h6⟩, ⟨h7, h8⟩, h9, h10⟩
  · rintro ⟨⟨h1, h2⟩, ⟨h3, h4⟩, ⟨h5, h6⟩, ⟨h7, h8⟩, h9, h10⟩
    exact ⟨h1, h2, h3, h4, h5, h6, h7, h8, h9, h10⟩

instance (t : CivilTime) : Decidable t.Valid :=
  decidable_of_iff _ t.valid_iff.symm

/-- Epoch seconds. -/
def unix (t : CivilTime) : ℤ :=
  dayNumber t.year t.month t.day * 86400 + t.hour * 3600 + t.minute * 60 +
    t.second

end CivilTime

/-- The year that holds the day `n` after the first of January of year 1. -/
def yearOfDay (n : ℤ) : ℤ :=
  let y := 400 * n / 146097 + 1
  if daysBeforeYear (y + 1) ≤ n then y + 1
  else if n < daysBeforeYear y then y - 1 else y

/-- The month that holds the day `n` of a year. -/
def monthOfDay (leap n : ℤ) : ℤ :=
  (12 * (n + if n < 59 + leap then 0 else 2 - leap) + 373) / 367

/-- The civil time of epoch seconds. -/
def civilOf (n : ℤ) : CivilTime :=
  let day := n / 86400 + epochDay
  let time := n % 86400
  let year := yearOfDay day
  let yearDay := day - daysBeforeYear year
  let month := monthOfDay (leapDays year) yearDay
  ⟨year, month, yearDay - daysBeforeMonth (leapDays year) month + 1,
    time / 3600, time / 60 % 60, time % 60⟩

theorem daysBeforeYear_succ (y : ℤ) :
    daysBeforeYear (y + 1) = daysBeforeYear y + 365 + leapDays y := by
  unfold daysBeforeYear leapDays
  by_cases hleap : isLeapYear y
  · rw [if_pos hleap]
    unfold isLeapYear at hleap
    omega
  · rw [if_neg hleap]
    unfold isLeapYear at hleap
    omega

theorem leapDays_mem (y : ℤ) : leapDays y = 0 ∨ leapDays y = 1 := by
  unfold leapDays
  split
  · exact Or.inr rfl
  · exact Or.inl rfl

theorem yearOfDay_spec (n : ℤ) :
    daysBeforeYear (yearOfDay n) ≤ n ∧ n < daysBeforeYear (yearOfDay n + 1) := by
  unfold yearOfDay
  dsimp only
  unfold daysBeforeYear
  split
  · omega
  · split <;> omega

theorem daysBeforeYear_lt {y z : ℤ} (h : y < z) :
    daysBeforeYear (y + 1) ≤ daysBeforeYear z := by
  unfold daysBeforeYear
  omega

theorem yearOfDay_eq {n y : ℤ} (hlow : daysBeforeYear y ≤ n)
    (hhigh : n < daysBeforeYear (y + 1)) : yearOfDay n = y := by
  obtain ⟨hle, hlt⟩ := yearOfDay_spec n
  rcases lt_trichotomy (yearOfDay n) y with h | h | h
  · have := daysBeforeYear_lt h
    omega
  · exact h
  · have := daysBeforeYear_lt h
    omega

theorem daysBeforeMonth_bounds {leap m : ℤ} (hleap : leap = 0 ∨ leap = 1)
    (hpos : 1 ≤ m) (hle : m ≤ 12) :
    0 ≤ daysBeforeMonth leap m ∧
      daysBeforeMonth leap (m + 1) ≤ 365 + leap := by
  unfold daysBeforeMonth
  split_ifs <;> omega

theorem monthOfDay_spec {leap n : ℤ} (hleap : leap = 0 ∨ leap = 1)
    (hlow : 0 ≤ n) (hhigh : n < 365 + leap) :
    1 ≤ monthOfDay leap n ∧ monthOfDay leap n ≤ 12 ∧
      daysBeforeMonth leap (monthOfDay leap n) ≤ n ∧
      n < daysBeforeMonth leap (monthOfDay leap n + 1) := by
  unfold monthOfDay daysBeforeMonth
  split_ifs <;> omega

theorem monthOfDay_eq {leap n m : ℤ} (hleap : leap = 0 ∨ leap = 1)
    (hpos : 1 ≤ m) (hle : m ≤ 12) (hlow : daysBeforeMonth leap m ≤ n)
    (hhigh : n < daysBeforeMonth leap (m + 1)) : monthOfDay leap n = m := by
  unfold monthOfDay
  unfold daysBeforeMonth at hlow hhigh
  split_ifs at * <;> omega

namespace CivilTime

/-- A valid civil time is recovered from its epoch seconds. -/
theorem civilOf_unix {t : CivilTime} (h : t.Valid) : civilOf t.unix = t := by
  obtain ⟨y, m, d, hh, mi, s⟩ := t
  obtain ⟨hmonth, hmonth', hday, hday', hhour, hhour', hminute, hminute',
    hsecond, hsecond'⟩ := h
  simp only [daysInMonth] at *
  have hleap := leapDays_mem y
  have hnext := daysBeforeYear_succ y
  have hunix : (CivilTime.mk y m d hh mi s).unix / 86400 + epochDay =
      daysBeforeYear y + daysBeforeMonth (leapDays y) m + (d - 1) := by
    simp only [unix, dayNumber]
    omega
  have htime : (CivilTime.mk y m d hh mi s).unix % 86400 =
      hh * 3600 + mi * 60 + s := by
    simp only [unix]
    omega
  obtain ⟨hbefore, hafter⟩ := daysBeforeMonth_bounds hleap hmonth hmonth'
  have hyear : yearOfDay (daysBeforeYear y + daysBeforeMonth (leapDays y) m +
      (d - 1)) = y := yearOfDay_eq (by omega) (by omega)
  have hmon : monthOfDay (leapDays y) (daysBeforeMonth (leapDays y) m +
      (d - 1)) = m :=
    monthOfDay_eq hleap hmonth hmonth' (by omega) (by omega)
  have hrest : daysBeforeYear y + daysBeforeMonth (leapDays y) m + (d - 1) -
      daysBeforeYear y = daysBeforeMonth (leapDays y) m + (d - 1) := by ring
  simp only [civilOf, hunix, htime, hyear, hrest, hmon, mk.injEq, true_and]
  omega

/-- The civil time of epoch seconds is valid. -/
theorem civilOf_valid (n : ℤ) : (civilOf n).Valid := by
  have hyear := yearOfDay_spec (n / 86400 + epochDay)
  rw [daysBeforeYear_succ] at hyear
  have hleap := leapDays_mem (yearOfDay (n / 86400 + epochDay))
  obtain ⟨hmonth, hmonth', hlow, hhigh⟩ := monthOfDay_spec hleap
    (n := n / 86400 + epochDay - daysBeforeYear
      (yearOfDay (n / 86400 + epochDay))) (by omega) (by omega)
  constructor <;> simp only [civilOf, daysInMonth] <;> omega

/-- Epoch seconds are recovered from their civil time. -/
theorem unix_civilOf (n : ℤ) : (civilOf n).unix = n := by
  simp only [civilOf, unix, dayNumber]
  omega

end CivilTime

end PredictiveAutoscaler

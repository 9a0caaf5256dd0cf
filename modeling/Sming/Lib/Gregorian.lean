import Mathlib.Order.Basic

/-!
# The Gregorian calendar

Dates of the Gregorian calendar and their numbers: 1 for the first of January of the year 1, one more for every day.
A date carries the proof that it exists, and `Date.number_injective` says that the number determines it, so that "the
date of a day" is any date with the day's number.
-/

namespace Sming.Lib.Gregorian

/-- A year has 366 days if 4 divides it, except for those that 100 divides and 400 does not. -/
def leap (year : Nat) : Bool := year % 4 = 0 ∧ (year % 100 ≠ 0 ∨ year % 400 = 0)

def yearDays (year : Nat) : Nat := if leap year then 366 else 365

/-- Months count from 0. -/
def monthDays (year : Nat) : Nat → Nat
  | 1 => if leap year then 29 else 28
  | 3 | 5 | 8 | 10 => 30
  | _ => 31

def daysBeforeMonth (year : Nat) : Nat → Nat
  | 0 => 0
  | month + 1 => daysBeforeMonth year month + monthDays year month

def daysBeforeYear (year : Nat) : Nat :=
  365 * (year - 1) + (year - 1) / 4 - (year - 1) / 100 + (year - 1) / 400

/-- A day of the calendar; months count from 0, days from 1. -/
structure Date where
  year : Nat
  month : Nat
  day : Nat
  year_pos : 0 < year
  month_lt : month < 12
  day_pos : 0 < day
  day_le : day ≤ monthDays year month

namespace Date

def ordinal (d : Date) : Nat := daysBeforeMonth d.year d.month + d.day

def number (d : Date) : Nat := daysBeforeYear d.year + d.ordinal

/-- 0 is Sunday: the first of January of the year 1 is a Monday. -/
def weekday (d : Date) : Nat := d.number % 7

end Date

def unixDay : Nat := 719163

structure Moment where
  date : Date
  hour : Nat
  minute : Nat
  second : Nat
  hour_lt : hour < 24
  minute_lt : minute < 60
  second_lt : second < 60

/-- The seconds from the beginning of 1970 to the moment. -/
def Moment.unixTime (m : Moment) : Int :=
  ((m.date.number : Int) - unixDay) * 86400 + m.hour * 3600 + m.minute * 60 + m.second

lemma daysBeforeYear_succ {year : Nat} (pos : 0 < year) :
    daysBeforeYear (year + 1) = daysBeforeYear year + yearDays year := by
  obtain ⟨n, rfl⟩ : ∃ n, year = n + 1 := ⟨year - 1, by omega⟩
  have less : n / 100 ≤ n / 4 := Nat.div_le_div_left (by decide) (by decide)
  have four : 100 ∣ n + 1 → 4 ∣ n + 1 := Nat.dvd_trans (by decide)
  have hundred : 400 ∣ n + 1 → 100 ∣ n + 1 := Nat.dvd_trans (by decide)
  simp only [daysBeforeYear, yearDays, leap, decide_eq_true_eq, Nat.add_sub_cancel, ne_eq, ← Nat.dvd_iff_mod_eq_zero]
  -- each quotient grows by one exactly if its divisor divides the year
  by_cases h4 : 4 ∣ n + 1
  · by_cases h100 : 100 ∣ n + 1
    · by_cases h400 : 400 ∣ n + 1
      · rw [Nat.succ_div_of_dvd h4, Nat.succ_div_of_dvd h100, Nat.succ_div_of_dvd h400, if_pos ⟨h4, .inr h400⟩]
        omega
      · rw [Nat.succ_div_of_dvd h4, Nat.succ_div_of_dvd h100, Nat.succ_div_of_not_dvd h400,
          if_neg fun h => h.2.elim (fun h => h h100) h400]
        omega
    · rw [Nat.succ_div_of_dvd h4, Nat.succ_div_of_not_dvd h100, Nat.succ_div_of_not_dvd (mt hundred h100),
        if_pos ⟨h4, .inl h100⟩]
      omega
  · rw [Nat.succ_div_of_not_dvd h4, Nat.succ_div_of_not_dvd (mt four h4),
      Nat.succ_div_of_not_dvd (mt hundred (mt four h4)), if_neg fun h => h4 h.1]
    omega

lemma daysBeforeMonth_twelve (year : Nat) : daysBeforeMonth year 12 = yearDays year := by
  simp only [daysBeforeMonth, monthDays, yearDays]
  split <;> rfl

lemma daysBeforeMonth_mono (year : Nat) {m n : Nat} (le : m ≤ n) :
    daysBeforeMonth year m ≤ daysBeforeMonth year n := by
  induction le with
  | refl => exact Nat.le_refl _
  | step _ ih => exact Nat.le_trans ih (Nat.le_add_right _ _)

lemma daysBeforeYear_mono {y z : Nat} (pos : 0 < y) (le : y ≤ z) : daysBeforeYear y ≤ daysBeforeYear z := by
  induction le with
  | refl => exact Nat.le_refl _
  | step le ih =>
    rw [daysBeforeYear_succ (Nat.lt_of_lt_of_le pos le)]
    exact Nat.le_trans ih (Nat.le_add_right _ _)

namespace Date

variable {d e : Date}

lemma ordinal_le (d : Date) : d.ordinal ≤ daysBeforeMonth d.year (d.month + 1) :=
  Nat.add_le_add_left d.day_le _

lemma ordinal_le_yearDays (d : Date) : d.ordinal ≤ yearDays d.year := by
  rw [← daysBeforeMonth_twelve]
  exact Nat.le_trans d.ordinal_le (daysBeforeMonth_mono _ d.month_lt)

lemma number_lt_of_year (less : d.year < e.year) : d.number < e.number :=
  calc d.number ≤ daysBeforeYear d.year + yearDays d.year := Nat.add_le_add_left d.ordinal_le_yearDays _
    _ = daysBeforeYear (d.year + 1) := (daysBeforeYear_succ d.year_pos).symm
    _ ≤ daysBeforeYear e.year := daysBeforeYear_mono (Nat.succ_pos _) less
    _ < e.number := Nat.lt_add_of_pos_right (Nat.lt_of_lt_of_le e.day_pos (Nat.le_add_left _ _))

lemma number_lt_of_month (same : d.year = e.year) (less : d.month < e.month) : d.number < e.number := by
  have ordinals : d.ordinal < e.ordinal :=
    calc d.ordinal ≤ daysBeforeMonth d.year (d.month + 1) := d.ordinal_le
      _ ≤ daysBeforeMonth e.year e.month := same ▸ daysBeforeMonth_mono d.year less
      _ < e.ordinal := Nat.lt_add_of_pos_right e.day_pos
  rw [number, number, same]
  exact Nat.add_lt_add_left ordinals _

lemma number_injective (same : d.number = e.number) : d = e := by
  have year : d.year = e.year := by
    obtain less | eq | less := Nat.lt_trichotomy d.year e.year
    · exact absurd same (Nat.ne_of_lt (number_lt_of_year less))
    · exact eq
    · exact absurd same.symm (Nat.ne_of_lt (number_lt_of_year less))
  have month : d.month = e.month := by
    obtain less | eq | less := Nat.lt_trichotomy d.month e.month
    · exact absurd same (Nat.ne_of_lt (number_lt_of_month year less))
    · exact eq
    · exact absurd same.symm (Nat.ne_of_lt (number_lt_of_month year.symm less))
  have day : d.day = e.day := by
    rw [number, number, ordinal, ordinal, year, month] at same
    exact Nat.add_left_cancel (Nat.add_left_cancel same)
  cases d
  cases e
  cases year
  cases month
  cases day
  rfl

end Date

end Sming.Lib.Gregorian

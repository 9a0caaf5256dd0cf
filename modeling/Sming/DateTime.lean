import Mathlib.Tactic.IntervalCases
import Sming.Lib.Gregorian

/-!
# Date and time

Embedding of the conversions of `Sming/SmingCore/DateTime.cpp` between Unix time and date and time of day. The
loops go through the years and months with the rule that every fourth year is a leap year; from 1970 to 2099 that is
the rule of the calendar.
-/

namespace Sming
open Lib.Gregorian

def leapYear (year : Int) : Bool := year % 4 = 0

/-- The table of C++ `getMonthDays`; months count from 0. -/
def monthDaysTable : Vector Nat 12 := #v[31, 28, 31, 30, 31, 30, 31, 31, 30, 31, 30, 31]

def getMonthDays (month : Fin 12) (year : UInt8) : Nat :=
  if month = 1 ∧ leapYear year.toNat then 29 else monthDaysTable[month]

structure TimeComponents where
  sec : Int8
  min : Int8
  hour : Int8
  day : Int8
  wday : Int8
  month : Int8
  year : Int16
  deriving Repr, DecidableEq

structure DateTime where
  hour : Int8 := 0
  minute : Int8 := 0
  second : Int8 := 0
  milliseconds : Int16 := 0
  day : Int8 := 0
  dayofWeek : Int8 := 0
  dayofYear : Int16 := 0
  month : Int8 := 0
  year : Int16 := 0
  deriving Repr, DecidableEq

variable {d : Date}

namespace DateTime

/-- The days of a year after 1900, as the loops of `fromUnixTime` count them. -/
def daysOfYear (year : Nat) : Nat := if leapYear year then 366 else 365

lemma daysOfYear_pos (year : Nat) : 0 < daysOfYear year := by
  rw [daysOfYear]
  split <;> decide

/-- The loop over the years: the year after 1900 that holds the day `epoch`, and the days up to its end. -/
def yearLoop (epoch year days : Nat) : Nat × Nat :=
  if days + daysOfYear year ≤ epoch then yearLoop epoch (year + 1) (days + daysOfYear year)
  else (year, days + daysOfYear year)
  termination_by epoch - days
  decreasing_by have := daysOfYear_pos year; omega

/-- The loop over the months: the month that holds the day `epoch` of the year, and the day in the month. -/
def monthLoop (year epoch month : Nat) : Nat × Nat :=
  if h : month < 12 then
    let monthDays := getMonthDays ⟨month, h⟩ (UInt8.ofNat year)
    if monthDays ≤ epoch then monthLoop year (epoch - monthDays) (month + 1) else (month, epoch)
  else (month, epoch)
  termination_by 12 - month

def fromUnixTime (timep : Int32) : TimeComponents :=
  let epoch := timep.toUInt32.toNat
  let minutes := epoch / 60
  let hours := minutes / 60
  let days := hours / 24
  let (year, past) := yearLoop days 70 0
  let (month, day) := monthLoop year (days - (past - daysOfYear year)) 0
  { sec := Int8.ofNat (epoch % 60)
    min := Int8.ofNat (minutes % 60)
    hour := Int8.ofNat (hours % 24)
    day := Int8.ofNat (day + 1)
    wday := Int8.ofNat ((days + 4) % 7)
    month := Int8.ofNat month
    year := Int16.ofNat (year + 1900) }

def leapYears : Nat → Nat
  | 0 => 0
  | n + 1 => leapYears n + if leapYear (1970 + n) then 1 else 0

/-- The days of the first `n` months; `none` if the table does not have them. -/
def monthsDays (year : UInt8) : Nat → Option Nat
  | 0 => some 0
  | n + 1 => if h : n < 12 then (monthsDays year n).map (· + getMonthDays ⟨n, h⟩ year) else none

/-- The sums are unsigned and 32 bits wide, so only the result modulo `2 ^ 32` counts. -/
def toUnixTimeOf (sec min hour day month : Int8) (year : Int16) : Option Int32 :=
  let year := if year.toInt < 69 then year.toInt + 2000 else year.toInt
  (monthsDays (UInt8.ofInt year) month.toInt.toNat).map fun months =>
    Int32.ofInt ((year - 1970) * (86400 * 365) + leapYears (year - 1970).toNat * 86400 + months * 86400 +
      (day.toInt - 1) * 86400 + hour.toInt * 3600 + min.toInt * 60 + sec.toInt)

/-- The days of the first `n` turns of the loop of C++ `DateTime::calcDayOfYear`. -/
def daysOfTurns (year : Int) : Nat → Nat
  | 0 => 0
  | i + 1 => daysOfTurns year i +
    if i = 8 ∨ i = 3 ∨ i = 5 ∨ i = 10 then 30
    else if i = 1 then if leapYear year then 29 else 28
    else 31

/-- The loop compares the month as an unsigned number. -/
def calcDayOfYear (t : DateTime) : DateTime :=
  { t with dayofYear := Int16.ofInt (daysOfTurns t.year.toInt (t.month.toInt % 2 ^ 32).toNat + t.day.toInt) }

def setTime (t : DateTime) (time : Int32) : DateTime :=
  let c := fromUnixTime time
  calcDayOfYear { t with
    second := c.sec, minute := c.min, hour := c.hour, day := c.day, dayofWeek := c.wday, month := c.month
    year := c.year, milliseconds := 0 }

def toUnixTime (t : DateTime) : Option Int32 :=
  toUnixTimeOf (Int8.ofInt (t.second.toInt + t.milliseconds.toInt.tdiv 1000)) t.minute t.hour t.day t.month t.year

/-! ## The rule for leap years -/

variable {year full n days : Nat}

lemma leapYear_eq_of_ne (low : 1900 < year) (high : year < 2200) (ne : year ≠ 2100) : leapYear year = leap year := by
  rw [leapYear, leap]
  congr 1
  simp only [eq_iff_iff]
  omega

lemma leapYear_eq (low : 1900 < year) (high : year < 2100) : leapYear year = leap year :=
  leapYear_eq_of_ne low (by omega) (by omega)

lemma leapYear_congr {y z : Int} (same : y % 4 = z % 4) : leapYear y = leapYear z := by
  rw [leapYear, leapYear, same]

lemma exists_leap (year : Int) : ∃ full, leapYear year = leap full := by
  cases leapYear year
  · exact ⟨2001, by decide⟩
  · exact ⟨2000, by decide⟩

lemma daysOfYear_eq (same : leapYear year = leap full) : daysOfYear year = yearDays full := by
  rw [daysOfYear, yearDays, same]

lemma getMonthDays_eq {month : Nat} (lt : month < 12) {year : UInt8}
    (same : leapYear year.toNat = leap full) : getMonthDays ⟨month, lt⟩ year = monthDays full month := by
  rw [getMonthDays, same]
  interval_cases month <;> simp only [monthDays] <;> cases leap full <;> rfl

lemma leapYears_count (high : 1970 + n ≤ 2200) :
    365 * n + leapYears n + (unixDay - 1) = daysBeforeYear (1970 + n) + if 130 < n then 1 else 0 := by
  induction n with
  | zero => decide
  | succ n ih =>
    have step := ih (by omega)
    have next := @daysBeforeYear_succ (1970 + n) (by omega)
    rw [Nat.add_assoc] at next
    rw [leapYears, next, yearDays]
    by_cases last : n = 130
    · have rule : leapYear (1970 + n : Int) = true ∧ leap (1970 + n) = false := by
        rw [last]
        decide
      rw [rule.1, rule.2, if_pos rfl, if_neg (by decide), if_pos (by omega)]
      rw [if_neg (by omega)] at step
      omega
    · have rule := @leapYear_eq_of_ne (1970 + n) (by omega) (by omega) (by omega)
      push_cast at rule
      rw [rule]
      split_ifs at step ⊢ <;> omega

lemma leapYears_eq (high : 1970 + n ≤ 2100) : 365 * n + leapYears n + (unixDay - 1) = daysBeforeYear (1970 + n) := by
  rw [leapYears_count (by omega), if_neg (by omega), Nat.add_zero]

/-! ## Unix time to date -/

lemma yearLoop_spec {epoch : Nat} (since : year = 70 + n) (reached : days = 365 * n + leapYears n)
    (le : days ≤ epoch) : ∃ k, yearLoop epoch year days = (70 + k, 365 * k + leapYears k + daysOfYear (70 + k)) ∧
      365 * k + leapYears k ≤ epoch ∧ epoch < 365 * k + leapYears k + daysOfYear (70 + k) := by
  fun_induction yearLoop epoch year days generalizing n with
  | case1 year days more ih =>
    refine ih (n := n + 1) (by omega) ?_ more
    have rule : leapYear year = leapYear (1970 + n : Int) := leapYear_congr (by omega)
    rw [reached, leapYears, daysOfYear, rule]
    split <;> omega
  | case2 year days last =>
    subst since reached
    exact ⟨n, rfl, le, Nat.lt_of_not_le last⟩

lemma monthLoop_spec {epoch month ordinal : Nat} (same : leapYear year = leap full) (le : month ≤ 12)
    (reached : epoch + daysBeforeMonth full month = ordinal) (lt : ordinal < yearDays full) :
    (monthLoop year epoch month).1 < 12 ∧
      (monthLoop year epoch month).2 + daysBeforeMonth full (monthLoop year epoch month).1 = ordinal ∧
      (monthLoop year epoch month).2 < monthDays full (monthLoop year epoch month).1 := by
  have days : ∀ m (h : m < 12), getMonthDays ⟨m, h⟩ (UInt8.ofNat year) = monthDays full m := by
    intro m h
    refine getMonthDays_eq h (Eq.trans (leapYear_congr ?_) same)
    rw [UInt8.toNat_ofNat']
    omega
  fun_induction monthLoop year epoch month with
  | case1 epoch month h here more ih =>
    refine ih (by omega) ?_
    have len : here = monthDays full month := days month h
    rw [daysBeforeMonth, ← len]
    omega
  | case2 epoch month h here last =>
    refine ⟨h, reached, ?_⟩
    rw [← days month h]
    exact Nat.lt_of_not_le last
  | case3 epoch month h =>
    obtain rfl : month = 12 := by omega
    rw [daysBeforeMonth_twelve] at reached
    omega

/-- `fromUnixTime` finds year, month and day of the month: `k` years after 1970, `m` months and `e` days. -/
structure Found (days k m e : Nat) : Prop where
  year : (yearLoop days 70 0).1 = 70 + k
  month : monthLoop (70 + k) (days - ((yearLoop days 70 0).2 - daysOfYear (70 + k))) 0 = (m, e)
  month_lt : m < 12
  le : 365 * k + leapYears k ≤ days
  -- the month is one of a year of the same length
  day : ∀ full, leapYear (70 + k : Nat) = leap full →
    e < monthDays full m ∧ days = 365 * k + leapYears k + daysBeforeMonth full m + e

lemma exists_found (days : Nat) : ∃ k m e, Found days k m e := by
  obtain ⟨k, years, le, lt⟩ := @yearLoop_spec 70 0 0 days rfl rfl (Nat.zero_le _)
  have rest : days - ((yearLoop days 70 0).2 - daysOfYear (70 + k)) = days - (365 * k + leapYears k) := by
    rw [years, Nat.add_sub_cancel]
  have months : ∀ full, leapYear (70 + k : Nat) = leap full → _ := fun full same =>
    @monthLoop_spec (70 + k) full (days - (365 * k + leapYears k)) 0 (days - (365 * k + leapYears k)) same (by decide)
      rfl (by rw [← daysOfYear_eq same]; omega)
  obtain ⟨full, same⟩ := exists_leap (70 + k : Nat)
  refine ⟨k, _, _, by rw [years], Prod.ext rfl rfl, ?_, le, fun full same => ?_⟩
  · rw [rest]
    exact (months full same).1
  · rw [rest]
    obtain ⟨-, sum, fits⟩ := months full same
    exact ⟨fits, by omega⟩

variable {m : Nat}

lemma Found.calendar {k e : Nat} (found : Found days k m e) (early : days < 47541) :
    1970 + k ≤ 2100 ∧ (m < 2 ∨ 1970 + k < 2100) ∧ e < monthDays (1970 + k) m ∧
      days = 365 * k + leapYears k + daysBeforeMonth (1970 + k) m + e := by
  have le := found.le
  obtain old | last : k < 130 ∨ k = 130 := by omega
  · have same : leapYear (70 + k : Nat) = leap (1970 + k) := by
      rw [← leapYear_eq (by omega) (by omega)]
      exact leapYear_congr (by omega)
    exact ⟨by omega, .inr (by omega), found.day _ same⟩
  · -- the code takes 2100 for a leap year
    obtain ⟨fits, sum⟩ := found.day 2000 (by rw [last]; decide)
    have leaps := @leapYears_eq k (by omega)
    have full : 1970 + k = 2100 := by omega
    have start : daysBeforeYear 2100 = 766644 := by decide
    have first : unixDay = 719163 := rfl
    have winter : m < 2 := by
      refine Nat.lt_of_not_le fun spring => ?_
      have later := daysBeforeMonth_mono 2000 spring
      have march : daysBeforeMonth 2000 2 = 60 := by decide
      rw [full] at leaps
      omega
    refine ⟨by omega, .inl winter, ?_⟩
    rw [full] at leaps ⊢
    have february : monthDays 2100 1 = 28 := by decide
    have january : ∀ y, daysBeforeMonth y 1 = 31 := fun _ => rfl
    interval_cases m
    · exact ⟨fits, sum⟩
    · rw [january] at sum ⊢
      exact ⟨by omega, sum⟩

lemma Found.exists_date {k e : Nat} (found : Found days k m e) (early : days < 47541) :
    ∃ d : Date, d.number = unixDay + days ∧ d.year = 1970 + k ∧ d.month = m ∧ d.day = e + 1 ∧
      d.year ≤ 2100 ∧ (d.month < 2 ∨ d.year < 2100) := by
  obtain ⟨high, agree, fits, sum⟩ := found.calendar early
  have leaps := @leapYears_eq k high
  have first : unixDay = 719163 := rfl
  refine ⟨⟨1970 + k, m, e + 1, by omega, found.month_lt, by omega, fits⟩, ?_, rfl, rfl, rfl, high, agree⟩
  change daysBeforeYear (1970 + k) + (daysBeforeMonth (1970 + k) m + (e + 1)) = _
  omega

/-! ## Date to Unix time -/

lemma monthsDays_eq {year : UInt8} (same : leapYear year.toNat = leap full) (le : n ≤ 12) :
    monthsDays year n = some (daysBeforeMonth full n) := by
  induction n with
  | zero => rfl
  | succ n ih =>
    have lt : n < 12 := le
    rw [monthsDays, dif_pos lt, ih (by omega), getMonthDays_eq lt same]
    rfl

lemma toUnixTimeOf_eq {sec min hour day month : Int8} {year : Int16} {y : Int}
    (years : (if year.toInt < 69 then year.toInt + 2000 else year.toInt) = y) (same : leapYear y = leap full)
    (months : month.toInt = m) (le : m ≤ 12) :
    toUnixTimeOf sec min hour day month year = some (Int32.ofInt ((y - 1970) * (86400 * 365) +
      leapYears (y - 1970).toNat * 86400 + daysBeforeMonth full m * 86400 + (day.toInt - 1) * 86400 +
      hour.toInt * 3600 + min.toInt * 60 + sec.toInt)) := by
  have byte : leapYear (UInt8.ofInt y).toNat = leap full := by
    rw [← same, UInt8.ofInt, UInt8.toNat_ofNat']
    exact leapYear_congr (by omega)
  rw [toUnixTimeOf, years, months, Int.toNat_natCast, monthsDays_eq byte le]
  rfl

/-- Within January and February, and in the years in which the rule of the code is that of the calendar. -/
def LeapAgrees (d : Date) : Prop := d.month < 2 ∨ leapYear d.year = leap d.year

lemma leapAgrees_of_lt (low : 1900 < d.year) (agree : d.month < 2 ∨ d.year < 2100) : LeapAgrees d :=
  agree.imp_right (leapYear_eq low)

lemma daysOfTurns_eq (agree : n < 2 ∨ leapYear full = leap full) (le : n ≤ 12) :
    daysOfTurns full n = daysBeforeMonth full n := by
  induction n with
  | zero => rfl
  | succ n ih =>
    rw [daysOfTurns, daysBeforeMonth, ih (agree.imp_left (by omega)) (by omega)]
    congr 1
    obtain winter | same := agree
    · obtain rfl : n = 0 := by omega
      rfl
    · rw [same]
      have lt : n < 12 := le
      interval_cases n <;> rfl

end DateTime

structure TimeComponents.Shows (c : TimeComponents) (m : Moment) : Prop where
  sec : c.sec.toInt = m.second
  min : c.min.toInt = m.minute
  hour : c.hour.toInt = m.hour
  day : c.day.toInt = m.date.day
  wday : c.wday.toInt = m.date.weekday
  month : c.month.toInt = m.date.month
  year : c.year.toInt = m.date.year

namespace DateTime

/-- The fields are those of the moment. -/
structure Shows (t : DateTime) (m : Moment) : Prop where
  second : t.second.toInt = m.second
  minute : t.minute.toInt = m.minute
  hour : t.hour.toInt = m.hour
  day : t.day.toInt = m.date.day
  dayofWeek : t.dayofWeek.toInt = m.date.weekday
  month : t.month.toInt = m.date.month
  year : t.year.toInt = m.date.year
  dayofYear : t.dayofYear.toInt = m.date.ordinal

lemma monthDays_le (year month : Nat) : monthDays year month ≤ 31 := by
  rw [monthDays.eq_def]
  split <;> first | decide | split <;> decide

variable {t : Int32}

lemma exists_moment (early : t.toUInt32.toNat < 4107542400) : ∃ m : Moment,
    m.unixTime = t.toUInt32.toNat ∧ 1970 ≤ m.date.year ∧ m.date.year ≤ 2100 ∧
      (m.date.month < 2 ∨ m.date.year < 2100) ∧ (fromUnixTime t).Shows m := by
  generalize epoch : t.toUInt32.toNat = n at early ⊢
  obtain ⟨k, month, e, found⟩ := exists_found (n / 60 / 60 / 24)
  obtain ⟨d, number, year, months, day, high, agree⟩ := found.exists_date (by omega)
  have dayLe := Nat.le_trans d.day_le (monthDays_le _ _)
  refine ⟨⟨d, n / 60 / 60 % 24, n / 60 % 60, n % 60, by omega, by omega, by omega⟩, ?_, ?_, high, agree, ?_⟩
  · simp only [Moment.unixTime, number]
    omega
  · exact year ▸ Nat.le_add_right _ _
  · have eight : ∀ k : Nat, k < 128 → (Int8.ofNat k).toInt = k := fun k lt => Int8.toInt_ofNat_of_lt lt
    have sixteen : ∀ k : Nat, k < 32768 → (Int16.ofNat k).toInt = k := fun k lt => Int16.toInt_ofNat_of_lt lt
    have lt := d.month_lt
    constructor <;> simp only [fromUnixTime, epoch, found.month, found.year]
    case sec => exact eight _ (by omega)
    case min => exact eight _ (by omega)
    case hour => exact eight _ (by omega)
    case day => rw [eight _ (by omega), day]
    case wday =>
      rw [eight _ (by omega), Date.weekday, number]
      have first : unixDay = 719163 := rfl
      omega
    case month => rw [eight _ (by omega), months]
    case year => rw [sixteen _ (by omega), year]; omega

lemma toNat_toUInt32 (since : 0 ≤ t.toInt) : (t.toUInt32.toNat : Int) = t.toInt := by
  rw [Int32.toNat_toUInt32_of_le (Int32.le_iff_toInt_le.mpr since), Int32.toNatClampNeg]
  omega

lemma exists_shows (since : 0 ≤ t.toInt) : ∃ m : Moment, m.unixTime = t.toInt ∧
    1970 ≤ m.date.year ∧ m.date.year < 2100 ∧ (fromUnixTime t).Shows m := by
  have same := toNat_toUInt32 since
  have bound : t.toInt < 2 ^ 31 := t.toInt_lt
  obtain ⟨m, time, low, high, -, shows⟩ := @exists_moment t (by omega)
  refine ⟨m, time.trans same, low, Nat.lt_of_not_le fun late => ?_, shows⟩
  -- 2100 begins far behind the last time
  have start := daysBeforeYear_mono (y := 2100) (by decide) late
  have known : daysBeforeYear 2100 = 766644 := by decide
  have first : unixDay = 719163 := rfl
  rw [Moment.unixTime, Date.number] at time
  omega

lemma daysOfTurns_le (year : Int) (n : Nat) : daysOfTurns year n ≤ 31 * n := by
  induction n with
  | zero => exact Nat.le_refl _
  | succ n ih =>
    rw [daysOfTurns]
    split_ifs <;> omega

lemma toInt_calcDayOfYear {t : DateTime} (year : t.year.toInt = d.year) (month : t.month.toInt = d.month)
    (day : t.day.toInt = d.day) : t.calcDayOfYear.dayofYear.toInt = (daysOfTurns d.year d.month + d.day : Nat) := by
  have lt := d.month_lt
  have dayLe := Nat.le_trans d.day_le (monthDays_le _ _)
  have turns : (t.month.toInt % 2 ^ 32).toNat = d.month := by omega
  have fits := daysOfTurns_le d.year d.month
  simp only [calcDayOfYear]
  rw [turns, year, day, ← Int.natCast_add]
  exact Int16.toInt_ofInt_of_le (by omega) (by omega)

lemma dayofYear_calcDayOfYear {t : DateTime} (agree : LeapAgrees d) (year : t.year.toInt = d.year)
    (month : t.month.toInt = d.month) (day : t.day.toInt = d.day) : t.calcDayOfYear.dayofYear.toInt = d.ordinal := by
  rw [toInt_calcDayOfYear year month day, daysOfTurns_eq agree (Nat.le_of_lt d.month_lt), Date.ordinal]

lemma shows_setTime {m : Moment} (agree : LeapAgrees m.date) (shows : (fromUnixTime t).Shows m)
    (d : DateTime) : (d.setTime t).Shows m where
  second := shows.sec
  minute := shows.min
  hour := shows.hour
  day := shows.day
  dayofWeek := shows.wday
  month := shows.month
  year := shows.year
  dayofYear := dayofYear_calcDayOfYear agree shows.year shows.month shows.day

lemma toUnixTimeOf_fromUnixTime (t : Int32) : toUnixTimeOf (fromUnixTime t).sec (fromUnixTime t).min
    (fromUnixTime t).hour (fromUnixTime t).day (fromUnixTime t).month (fromUnixTime t).year = some t := by
  have bound : t.toUInt32.toNat < 2 ^ 32 := t.toUInt32.toNat_lt
  have same : Int32.ofInt t.toUInt32.toNat = t := by
    rw [← Int32.toInt_inj, Int32.toInt_ofInt]
    exact (BitVec.toInt_eq_toNat_bmod _).symm
  generalize epoch : t.toUInt32.toNat = n at bound same
  obtain ⟨k, m, e, found⟩ := exists_found (n / 60 / 60 / 24)
  obtain ⟨full, leaps⟩ := exists_leap (70 + k : Nat)
  obtain ⟨fits, sum⟩ := found.day full leaps
  have short := monthDays_le full m
  have le := found.le
  have lt := found.month_lt
  have eight : ∀ k : Nat, k < 128 → (Int8.ofNat k).toInt = k := fun k lt => Int8.toInt_ofNat_of_lt lt
  have sixteen : ∀ k : Nat, k < 32768 → (Int16.ofNat k).toInt = k := fun k lt => Int16.toInt_ofNat_of_lt lt
  simp only [fromUnixTime, epoch, found.year, found.month]
  have year := sixteen (70 + k + 1900) (by omega)
  have years : (if (Int16.ofNat (70 + k + 1900)).toInt < 69 then (Int16.ofNat (70 + k + 1900)).toInt + 2000
      else (Int16.ofNat (70 + k + 1900)).toInt) = (1970 + k : Nat) := by
    rw [year, if_neg (by omega)]
    omega
  have rule : leapYear (1970 + k : Nat) = leap full := by
    rw [← leaps]
    exact leapYear_congr (by omega)
  rw [toUnixTimeOf_eq years rule (eight m (by omega)) (Nat.le_of_lt lt), eight _ (by omega), eight _ (by omega),
    eight _ (by omega), eight _ (by omega)]
  have count : (((1970 + k : Nat) : Int) - 1970).toNat = k := by omega
  rw [count, ← same]
  refine congrArg (fun v => some (Int32.ofInt v)) ?_
  omega

lemma toUnixTime_setTime_with (t : Int32) (d : DateTime) {ms : Int16} (part : ms.toInt.tdiv 1000 = 0) :
    toUnixTime { d.setTime t with milliseconds := ms } = some t := by
  rw [toUnixTime, part, Int.add_zero, Int8.ofInt_toInt]
  exact toUnixTimeOf_fromUnixTime t

lemma toUnixTime_setTime (t : Int32) (d : DateTime) : (d.setTime t).toUnixTime = some t :=
  toUnixTime_setTime_with t d (by decide : (0 : Int16).toInt.tdiv 1000 = 0)

/-- Every time from 1970 on is taken apart as the calendar says, and put together again. -/
theorem fromUnixTime_calendar (t : Int32) (since : 0 ≤ t.toInt) : ∃ m : Moment, m.unixTime = t.toInt ∧
    (fromUnixTime t).Shows m ∧ (∀ d : DateTime, (d.setTime t).Shows m ∧ (d.setTime t).toUnixTime = some t) ∧
    toUnixTimeOf (fromUnixTime t).sec (fromUnixTime t).min (fromUnixTime t).hour (fromUnixTime t).day
      (fromUnixTime t).month (fromUnixTime t).year = some t := by
  obtain ⟨m, time, low, high, shows⟩ := exists_shows since
  have agree : LeapAgrees m.date := leapAgrees_of_lt (by omega) (.inr high)
  exact ⟨m, time, shows, fun d => ⟨shows_setTime agree shows d, toUnixTime_setTime t d⟩, toUnixTimeOf_fromUnixTime t⟩

theorem fromUnixTime_calendar_leap : ∃ m : Moment, m.unixTime = 951782400 ∧ (fromUnixTime 951782400).Shows m := by
  obtain ⟨m, time, shows, -⟩ := fromUnixTime_calendar 951782400 (by decide)
  exact ⟨m, time.trans (by decide), shows⟩

end DateTime

end Sming

import Sming.DateTime

/-!
# Arithmetic with dates and times

`toUnixTime` for the years that its documentation names, and `addMilliseconds`, which takes the object through
`toUnixTime` and `setTime`.
-/

namespace Sming.DateTime
open Lib.Gregorian

/-! ## Components -/

/-- The seconds from the beginning of 1970 to an instant of the calendar. Days, hours, minutes and seconds may be out
of their range. -/
def instant (year month : Nat) (day hour minute second : Int) : Int :=
  (daysBeforeYear year + daysBeforeMonth year month + day - unixDay) * 86400 + hour * 3600 + minute * 60 + second

/-- The argument names a year as the documentation of `toUnixTime` allows. -/
inductive YearArgument (year : Int16) (full : Nat) : Prop where
  | fourDigits (low : 1901 ≤ full) (high : full ≤ 2036) (same : year.toInt = full)
  | twoDigits (low : 1970 ≤ full) (high : full ≤ 2036) (same : year.toInt = (full % 100 : Nat))

/-- The days by which the sum is off if it is computed with `y` for the year `full`. -/
def shift (y : Int) (full : Nat) : Int :=
  (y - 1970) * 365 + leapYears (y - 1970).toNat + (unixDay - 1) - daysBeforeYear full

lemma toUnixTimeOf_shift {sec min hour day month : Int8} {year : Int16} {y : Int} {full m : Nat}
    (years : (if year.toInt < 69 then year.toInt + 2000 else year.toInt) = y) (same : leapYear y = leap full)
    (months : month.toInt = m) (le : m ≤ 12) : toUnixTimeOf sec min hour day month year =
      some (Int32.ofInt (instant full m day.toInt hour.toInt min.toInt sec.toInt + shift y full * 86400)) := by
  rw [toUnixTimeOf_eq years same months le, instant, shift]
  refine congrArg (fun v => some (Int32.ofInt v)) ?_
  omega

lemma shift_of_le {full : Nat} (low : 1970 ≤ full) (high : full ≤ 2036) : shift full full = 0 := by
  have leaps := @leapYears_eq (full - 1970) (by omega)
  rw [Nat.add_sub_cancel' low] at leaps
  have count : ((full : Int) - 1970).toNat = full - 1970 := by omega
  have first : unixDay = 719163 := rfl
  rw [shift, count]
  omega

lemma daysBeforeYear_twentieth {year : Nat} (low : 1901 ≤ year) (high : year ≤ 2000) :
    daysBeforeYear year = 365 * (year - 1) + (year - 1) / 4 - 15 := by
  have hundreds : (year - 1) / 100 = 19 := by omega
  have more : (year - 1) / 400 = 4 := by omega
  rw [daysBeforeYear, hundreds, more]
  omega

lemma shift_of_lt {y : Int} (old : y < 1970) {full : Nat} (low : 1901 ≤ full) (high : full ≤ 2000) :
    shift y full = (y - full) * 365 + 492 - (full - 1 : Nat) / 4 := by
  have none : (y - 1970).toNat = 0 := by omega
  have first : unixDay = 719163 := rfl
  rw [shift, none, leapYears, daysBeforeYear_twentieth low high]
  omega

lemma toInt_ofInt_eq_iff {a b : Int} (low : -2 ^ 31 ≤ a) (high : a < 2 ^ 31) :
    (Int32.ofInt b).toInt = a ↔ (b - a) % 2 ^ 32 = 0 := by
  rw [Int32.toInt_ofInt]
  have size : Int32.size = 2 ^ 32 := rfl
  rw [size]
  have bound := @Int.bmod_lt b (2 ^ 32) (by decide)
  have bound' := @Int.le_bmod b (2 ^ 32) (by decide)
  have same := @Int.bmod_emod b (2 ^ 32)
  constructor
  · intro eq
    rw [eq] at same
    omega
  · intro zero
    omega

/-- For the documented years and months and any other components the result is the instant, but for the years 1901 to
1968 and two digits of the twentieth century. -/
theorem toUnixTimeOf_instant_iff {year : Int16} {full : Nat} (given : YearArgument year full) {month : Int8} {m : Nat}
    (months : month.toInt = m) (lt : m < 12) (sec min hour day : Int8)
    (low : -2 ^ 31 ≤ instant full m day.toInt hour.toInt min.toInt sec.toInt)
    (high : instant full m day.toInt hour.toInt min.toInt sec.toInt < 2 ^ 31) :
    (∃ time, toUnixTimeOf sec min hour day month year = some time ∧
      time.toInt = instant full m day.toInt hour.toInt min.toInt sec.toInt) ↔
      year.toInt ≤ 36 ∨ 1969 ≤ year.toInt := by
  -- the sum is the instant exactly if the days by which it is off are whole turns of the counter
  have sum : ∀ y : Int, (if year.toInt < 69 then year.toInt + 2000 else year.toInt) = y → y % 4 = full % 4 →
      1901 ≤ full → full ≤ 2036 → ((∃ time, toUnixTimeOf sec min hour day month year = some time ∧
        time.toInt = instant full m day.toInt hour.toInt min.toInt sec.toInt) ↔
        shift y full * 86400 % 2 ^ 32 = 0) := by
    intro y years fourth old new
    have same : leapYear y = leap full := by
      rw [← leapYear_eq (by omega) (by omega)]
      exact leapYear_congr fourth
    rw [toUnixTimeOf_shift years same months (Nat.le_of_lt lt)]
    simp only [Option.some.injEq, exists_eq_left', toInt_ofInt_eq_iff low high, add_sub_cancel_left]
  cases given with
  | fourDigits old new same =>
    rw [sum full (by rw [same, if_neg (by omega)]) rfl old new, same]
    obtain since | before := Nat.lt_or_ge 1969 full
    · rw [shift_of_le since new]
      omega
    · rw [shift_of_lt (by omega) old (by omega)]
      omega
  | twoDigits old new same =>
    obtain century | century := Nat.lt_or_ge 1999 full
    · have digits : full % 100 = full - 2000 := by omega
      rw [sum full (by rw [same, if_pos (by omega)]; omega) rfl (by omega) new, same, shift_of_le old new]
      omega
    · have digits : full % 100 = full - 1900 := by omega
      rw [sum (full - 1900) (by rw [same, if_neg (by omega)]; omega) (by omega) (by omega) new, same,
        shift_of_lt (by omega) (by omega) (by omega)]
      omega

theorem toUnixTimeOf_instant_iff_last : ∃ time, toUnixTimeOf 0 0 0 1 0 36 = some time ∧
    time.toInt = instant 2036 0 1 0 0 0 :=
  (@toUnixTimeOf_instant_iff 36 2036 (.twoDigits (by decide) (by decide) (by decide)) 0 0 (by decide) (by decide)
    0 0 0 1 (by decide) (by decide)).mpr (.inl (by decide))

/-- The first of January 1960 comes out three days late. -/
theorem toUnixTimeOf_misses_leap_days : ¬ ∀ {year : Int16} {full : Nat}, YearArgument year full → ∀ {month : Int8}
    {m : Nat}, month.toInt = m → m < 12 → ∀ sec min hour day : Int8,
    -2 ^ 31 ≤ instant full m day.toInt hour.toInt min.toInt sec.toInt →
    instant full m day.toInt hour.toInt min.toInt sec.toInt < 2 ^ 31 →
    ∃ time, toUnixTimeOf sec min hour day month year = some time ∧
      time.toInt = instant full m day.toInt hour.toInt min.toInt sec.toInt := by
  intro all
  obtain ⟨time, computed, right⟩ := @all 1960 1960 (.fourDigits (by decide) (by decide) (by decide)) 0 0 (by decide)
    (by decide) 0 0 0 1 (by decide) (by decide)
  have known : toUnixTimeOf 0 0 0 1 0 1960 = some (-315360000) := by decide
  rw [known, Option.some.injEq] at computed
  subst computed
  revert right
  decide

/-! ## Milliseconds -/

/-- Numbers of 32 bits wrap around. -/
def addMilliseconds (t : DateTime) (add : Int32) : Option DateTime := do
  let ms := (Int32.ofInt (t.milliseconds.toInt + add.toInt)).toInt
  let cur ← t.toUnixTime
  some { t.setTime (Int32.ofInt (cur.toInt + ms.tdiv 1000)) with milliseconds := Int16.ofInt (ms.tmod 1000) }

def total (t : DateTime) : Option Int := t.toUnixTime.map fun time => 1000 * time.toInt + t.milliseconds.toInt

/-- After every call the milliseconds are in their range, and the time has grown by what was added. -/
inductive Counted : DateTime → List Int32 → Prop where
  | nil {t} : Counted t []
  | cons {t d t' ds v} (call : t.addMilliseconds d = some t') (low : 0 ≤ t'.milliseconds.toInt)
    (high : t'.milliseconds.toInt < 1000) (before : t.total = some v) (after : t'.total = some (v + d.toInt))
    (rest : Counted t' ds) : Counted t (d :: ds)

/-- From `v` milliseconds on, all results are times from 1970 on that 32 bits hold. -/
def InRange : Int → List Int32 → Prop
  | _, [] => True
  | v, d :: ds => 0 ≤ v + d.toInt ∧ v + d.toInt < 2 ^ 31 * 1000 ∧ InRange (v + d.toInt) ds

/-- No call leaves a second with a part of it below zero, and none overflows. -/
def Carries : Int → List Int32 → Prop
  | _, [] => True
  | v, d :: ds => ((0 ≤ v % 1000 + d.toInt ∨ (v + d.toInt) % 1000 = 0) ∧ v % 1000 + d.toInt < 2 ^ 31) ∧
    Carries (v + d.toInt) ds

lemma exists_tdiv (r : Int) : ∃ q m, r.tdiv 1000 = q ∧ r.tmod 1000 = m ∧ r = 1000 * q + m ∧
    (0 ≤ r → 0 ≤ m) ∧ (r ≤ 0 → m ≤ 0) ∧ -1000 < m ∧ m < 1000 := by
  refine ⟨_, _, rfl, rfl, (Int.mul_tdiv_add_tmod r 1000).symm, ?_⟩
  obtain pos | neg := Int.le_total 0 r
  · rw [Int.tmod_eq_emod_of_nonneg pos]
    omega
  · have opposite : r.tmod 1000 = -((-r) % 1000) := by
      rw [← Int.tmod_eq_emod_of_nonneg (Int.neg_nonneg_of_nonpos neg), Int.neg_tmod, Int.neg_neg]
    rw [opposite]
    omega

lemma total_addMilliseconds {t : DateTime} {s d : Int32} {r : Int} (time : t.toUnixTime = some s)
    (wrapped : (Int32.ofInt (t.milliseconds.toInt + d.toInt)).toInt = r) (low : -2 ^ 31 ≤ s.toInt + r.tdiv 1000)
    (high : s.toInt + r.tdiv 1000 < 2 ^ 31) : ∃ t', t.addMilliseconds d = some t' ∧
      t'.milliseconds.toInt = r.tmod 1000 ∧ t'.total = some (1000 * s.toInt + r) := by
  obtain ⟨q, m, quotient, remainder, sum, -, -, above, below⟩ := exists_tdiv r
  rw [quotient] at low high
  rw [addMilliseconds, time, wrapped, quotient, remainder]
  have part : (Int16.ofInt m).toInt = m := Int16.toInt_ofInt_of_le (by omega) (by omega)
  have none : (Int16.ofInt m).toInt.tdiv 1000 = 0 := by
    obtain ⟨p, rest, eq, -, whole, pos, neg, least, most⟩ := exists_tdiv (Int16.ofInt m).toInt
    rw [eq]
    omega
  refine ⟨_, rfl, part, ?_⟩
  rw [total, toUnixTime_setTime_with _ _ none]
  simp only [Option.map_some, part]
  rw [Int32.toInt_ofInt_of_le low (by omega), sum]
  refine congrArg some ?_
  omega

lemma addMilliseconds_step {t : DateTime} {v : Int} {d : Int32} (start : t.total = some v)
    (part : 0 ≤ t.milliseconds.toInt) (part_lt : t.milliseconds.toInt < 1000) (low : 0 ≤ v + d.toInt)
    (high : v + d.toInt < 2 ^ 31 * 1000) : ∃ t', t.addMilliseconds d = some t' ∧
      ((0 ≤ t'.milliseconds.toInt ∧ t'.milliseconds.toInt < 1000 ∧ t'.total = some (v + d.toInt)) ↔
        (0 ≤ v % 1000 + d.toInt ∨ (v + d.toInt) % 1000 = 0) ∧ v % 1000 + d.toInt < 2 ^ 31) := by
  obtain ⟨s, time, rfl⟩ := Option.map_eq_some_iff.mp start
  have least : -2 ^ 31 ≤ d.toInt := d.le_toInt
  have most : d.toInt < 2 ^ 31 := d.toInt_lt
  have early : -2 ^ 31 ≤ s.toInt := s.le_toInt
  have late : s.toInt < 2 ^ 31 := s.toInt_lt
  obtain fits | beyond := Int.lt_or_le (t.milliseconds.toInt + d.toInt) (2 ^ 31)
  · obtain ⟨q, m, quotient, remainder, sum, pos, neg, above, below⟩ := exists_tdiv (t.milliseconds.toInt + d.toInt)
    obtain ⟨t', call, ms, after⟩ := total_addMilliseconds time
      (Int32.toInt_ofInt_of_le (by omega) fits) (by omega) (by omega)
    refine ⟨t', call, ?_⟩
    rw [ms, after, remainder, Option.some.injEq]
    omega
  · -- the sum wraps around, and the time goes back by 49 days
    obtain ⟨q, m, quotient, remainder, sum, pos, neg, above, below⟩ :=
      exists_tdiv (t.milliseconds.toInt + d.toInt - 2 ^ 32)
    have wrapped : (Int32.ofInt (t.milliseconds.toInt + d.toInt)).toInt =
        t.milliseconds.toInt + d.toInt - 2 ^ 32 := by
      rw [toInt_ofInt_eq_iff (by omega) (by omega)]
      omega
    obtain ⟨t', call, ms, after⟩ := total_addMilliseconds time wrapped (by omega) (by omega)
    refine ⟨t', call, ?_⟩
    rw [after, Option.some.injEq]
    omega

/-- Over any number of calls: each keeps the milliseconds in range and adds exactly its argument, if and only if each
of them carries. -/
theorem addMilliseconds_counted_iff {t : DateTime} {v : Int} {ds : List Int32} (start : t.total = some v)
    (part : 0 ≤ t.milliseconds.toInt) (part_lt : t.milliseconds.toInt < 1000) (range : InRange v ds) :
    Counted t ds ↔ Carries v ds := by
  induction ds generalizing t v with
  | nil => exact ⟨fun _ => trivial, fun _ => .nil⟩
  | cons d ds ih =>
    obtain ⟨low, high, range⟩ := range
    obtain ⟨t', call, iff⟩ := addMilliseconds_step start part part_lt low high
    constructor
    · intro counted
      cases counted with
      | cons call' some below before after rest =>
        obtain rfl := Option.some.inj (call.symm.trans call')
        obtain rfl := Option.some.inj (start.symm.trans before)
        exact ⟨iff.mp ⟨some, below, after⟩, (ih after some below range).mp rest⟩
    · rintro ⟨carries, rest⟩
      obtain ⟨some, below, after⟩ := iff.mpr carries
      exact .cons call some below start after ((ih after some below range).mpr rest)

theorem addMilliseconds_counted_iff_forward : Counted (setTime {} 0) [1500, -500] :=
  (addMilliseconds_counted_iff (t := setTime {} 0) (v := 0) (by simp [total, toUnixTime_setTime]; rfl) (by decide)
    (by decide) (by simp [InRange])).mpr (by simp [Carries])

/-- One millisecond back from the second second leaves -1 millisecond. -/
theorem addMilliseconds_goes_below : ¬ ∀ {t : DateTime} {v : Int} {ds : List Int32}, t.total = some v →
    0 ≤ t.milliseconds.toInt → t.milliseconds.toInt < 1000 → InRange v ds → Counted t ds := by
  intro all
  have start : (setTime {} 1).total = some 1000 := by
    rw [total, toUnixTime_setTime]
    rfl
  have none : (setTime {} 1).milliseconds.toInt = 0 := rfl
  have counted := @all (setTime {} 1) 1000 [-1] start (by omega) (by omega) (by simp [InRange])
  obtain ⟨t', call, iff⟩ := @addMilliseconds_step (setTime {} 1) 1000 (-1) start (by omega) (by omega) (by decide)
    (by decide)
  cases counted with
  | cons call' low high before after rest =>
    obtain rfl := Option.some.inj (call.symm.trans call')
    obtain rfl := Option.some.inj (start.symm.trans before)
    have carries := (iff.mp ⟨low, high, after⟩).1
    revert carries
    decide

end Sming.DateTime

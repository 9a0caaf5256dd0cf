import Sming.DateTimeArithmetic
import Sming.HttpDateErrors
import Sming.Lib.Run

/-!
# The fields that follow from the date

`DateTime` stores the day of the week and the day of the year beside the date. Every mutator computes the day of the
year from the date, with the rule that every fourth year is a leap year; only `setTime` of a Unix time computes the
day of the week. `fields_agree_iff` says for which calls both are those of the calendar afterwards.
-/

namespace Sming.DateTime
open Lib Lib.Gregorian

/-- (C++ `DateTime::setTime` of the components.) -/
def setTimeOf (t : DateTime) (sec min hour day month : Int8) (year : Int16) : DateTime :=
  calcDayOfYear { t with second := sec, minute := min, hour := hour, day := day, month := month, year := year
                         milliseconds := 0 }

/-- The three fields are the date. -/
structure Names (day month : Int8) (year : Int16) (d : Date) : Prop where
  year : year.toInt = d.year
  month : month.toInt = d.month
  day : day.toInt = d.day

def ValidDate (day month : Int8) (year : Int16) : Prop :=
  0 < year.toInt ∧ 0 ≤ month.toInt ∧ month.toInt < 12 ∧ 0 < day.toInt ∧
    day.toInt ≤ monthDays year.toInt.toNat month.toInt.toNat

instance (day month : Int8) (year : Int16) : Decidable (ValidDate day month year) :=
  inferInstanceAs (Decidable (_ ∧ _))

def FieldsAgree (t : DateTime) : Prop := ∃ d, Names t.day t.month t.year d ∧
  t.dayofWeek.toInt = d.weekday ∧ t.dayofYear.toInt = d.ordinal

inductive Mutator where
  | setTime (time : Int32)
  | setTimeOf (sec min hour day month : Int8) (year : Int16)
  | fromHttpDate (httpDate : List Char)
  | addMilliseconds (add : Int32)

def step (t : DateTime) : Mutator → Option DateTime
  | .setTime time => some (t.setTime time)
  | .setTimeOf sec min hour day month year =>
    if ValidDate day month year then some (t.setTimeOf sec min hour day month year) else none
  | .fromHttpDate httpDate =>
    match t.fromHttpDate httpDate with
    | some (true, t') => if ValidDate t'.day t'.month t'.year then some t' else none
    | _ => none
  | .addMilliseconds add => t.addMilliseconds add

/-- The calls after which the fields agree. A Unix time, without a sign, is before the 29th of February 2100, a day
only the code knows; components keep the day of the week from before; a text names its own. -/
def Keeps (t : DateTime) : Mutator → Prop
  | .setTime time => time.toUInt32.toNat < 4107542400
  | .setTimeOf _ _ _ day month year => ∃ d, Names day month year d ∧ t.dayofWeek.toInt = d.weekday ∧ LeapAgrees d
  | .fromHttpDate httpDate => ∃ w day month year ptr d, HourPart httpDate w day month year ptr ∧
    Names (Int8.ofInt day) (Int8.ofNat month) year d ∧ w = d.weekday ∧ LeapAgrees d
  | .addMilliseconds add => ∃ time, t.toUnixTime = some time ∧
    (Int32.ofInt (time.toInt + (Int32.ofInt (t.milliseconds.toInt + add.toInt)).toInt.tdiv 1000)).toUInt32.toNat <
      4107542400

/-! ## The day of the year -/

lemma Names.unique {day month : Int8} {year : Int16} {d e : Date} (names : Names day month year d)
    (names' : Names day month year e) : d = e := by
  have years : d.year = e.year := Int.ofNat_inj.mp (names.year.symm.trans names'.year)
  have months : d.month = e.month := Int.ofNat_inj.mp (names.month.symm.trans names'.month)
  have days : d.day = e.day := Int.ofNat_inj.mp (names.day.symm.trans names'.day)
  refine Date.number_injective ?_
  rw [Date.number, Date.number, Date.ordinal, Date.ordinal, years, months, days]

lemma daysOfTurns_spring {full n : Nat} (spring : 2 ≤ n) (le : n ≤ 12) :
    daysOfTurns full n + (leap full).toNat = daysBeforeMonth full n + (leapYear full).toNat := by
  induction n, spring using Nat.le_induction with
  | base =>
    simp only [daysOfTurns, daysBeforeMonth, monthDays]
    cases leap full <;> cases leapYear full <;> rfl
  | succ n spring ih =>
    have same := ih (by omega)
    rw [daysOfTurns, daysBeforeMonth, Nat.add_right_comm, same, Nat.add_right_comm]
    congr 2
    have lt : n < 12 := le
    interval_cases n <;> rfl

lemma dayofYear_iff {t : DateTime} {d : Date} (names : Names t.day t.month t.year d) :
    t.calcDayOfYear.dayofYear.toInt = d.ordinal ↔ LeapAgrees d := by
  constructor
  · intro same
    rw [toInt_calcDayOfYear names.year names.month names.day, Date.ordinal, Int.ofNat_inj] at same
    obtain winter | spring := Nat.lt_or_ge d.month 2
    · exact .inl winter
    · have turns := @daysOfTurns_spring d.year d.month spring (Nat.le_of_lt d.month_lt)
      have count : (leapYear d.year).toNat = (leap d.year).toNat := by omega
      refine .inr ?_
      revert count
      cases leapYear d.year <;> cases leap d.year <;> decide
  · exact fun agree => dayofYear_calcDayOfYear agree names.year names.month names.day

/-! ## Unix time -/

lemma Found.number_add_one {days k m e : Nat} (found : Found days k m e) (late : 47541 ≤ days) (bound : days < 49711)
    {d : Date} (year : d.year = 1970 + k) (month : d.month = m) (day : d.day = e + 1) :
    d.number + 1 = unixDay + days := by
  have le := found.le
  have first : unixDay = 719163 := rfl
  have count := @leapYears_count k (by omega)
  have number : d.number = daysBeforeYear (1970 + k) + (daysBeforeMonth (1970 + k) m + (e + 1)) := by
    rw [Date.number, Date.ordinal, year, month, day]
  have rule : k ≠ 130 → leapYear (70 + k : Nat) = leap (1970 + k) := by
    intro ne
    rw [← leapYear_eq_of_ne (by omega) (by omega) (by omega)]
    exact leapYear_congr (by omega)
  obtain old | last | new := Nat.lt_trichotomy k 130
  · -- before 2100 no day is that late
    obtain ⟨-, sum⟩ := found.day _ (rule (by omega))
    have ordinal := d.ordinal_le_yearDays
    have next := daysBeforeYear_succ d.year_pos
    have mono := @daysBeforeYear_mono (d.year + 1) 2100 (by omega) (by omega)
    have start : daysBeforeYear 2100 = 766644 := by decide
    rw [if_neg (by omega)] at count
    rw [year] at next mono ordinal
    rw [Date.number, year] at number
    omega
  · obtain ⟨fits, sum⟩ := found.day 2000 (by rw [last]; decide)
    have full : 1970 + k = 2100 := by omega
    rw [if_neg (by omega), full] at count
    rw [full] at number
    have start : daysBeforeYear 2100 = 766644 := by decide
    have dayLe := d.day_le
    rw [year, full, month, day] at dayLe
    obtain winter | spring := Nat.lt_or_ge m 2
    · -- the 29th of February is no day of 2100
      have january : ∀ m < 2, daysBeforeMonth 2000 m + monthDays 2100 m < 60 := by decide
      have lengths := january m winter
      omega
    · have march : ∀ m < 12, 2 ≤ m → daysBeforeMonth 2000 m = daysBeforeMonth 2100 m + 1 := by decide
      have shifted := march m found.month_lt spring
      omega
  · obtain ⟨-, sum⟩ := found.day _ (rule (by omega))
    rw [if_pos new] at count
    omega

lemma fieldsAgree_setTime (t : DateTime) (time : Int32) :
    FieldsAgree (t.setTime time) ↔ time.toUInt32.toNat < 4107542400 := by
  constructor
  · rintro ⟨d, names, weekday, -⟩
    refine Nat.lt_of_not_le fun late => ?_
    have bound : time.toUInt32.toNat < 2 ^ 32 := time.toUInt32.toNat_lt
    generalize epoch : time.toUInt32.toNat = n at late bound
    obtain ⟨k, m, e, found⟩ := exists_found (n / 60 / 60 / 24)
    have lt := found.month_lt
    have le := found.le
    obtain ⟨full, same⟩ := exists_leap (70 + k : Nat)
    have fits := (found.day full same).1
    have short := monthDays_le full m
    have eight : ∀ k : Nat, k < 128 → (Int8.ofNat k).toInt = k := fun k lt => Int8.toInt_ofNat_of_lt lt
    have sixteen : ∀ k : Nat, k < 32768 → (Int16.ofNat k).toInt = k := fun k lt => Int16.toInt_ofNat_of_lt lt
    have year : (70 + k + 1900 : Nat) = (d.year : Int) := by
      rw [← names.year, ← sixteen _ (by omega)]
      simp only [setTime, calcDayOfYear, fromUnixTime, epoch, found.year]
    have month : (m : Int) = d.month := by
      rw [← names.month, ← eight _ (by omega)]
      simp only [setTime, calcDayOfYear, fromUnixTime, epoch, found.year, found.month]
    have day : (e + 1 : Nat) = (d.day : Int) := by
      rw [← names.day, ← eight _ (by omega)]
      simp only [setTime, calcDayOfYear, fromUnixTime, epoch, found.year, found.month]
    have wday : ((n / 60 / 60 / 24 + 4) % 7 : Nat) = (d.weekday : Int) := by
      rw [← weekday, ← eight _ (by omega)]
      simp only [setTime, calcDayOfYear, fromUnixTime, epoch]
    have number := found.number_add_one (by omega) (by omega) (d := d) (by omega) (by omega) (by omega)
    have first : unixDay = 719163 := rfl
    rw [Date.weekday] at wday
    omega
  · intro early
    obtain ⟨m, -, low, -, agree, shows⟩ := exists_moment early
    have set := shows_setTime (leapAgrees_of_lt (by omega) agree) shows t
    exact ⟨m.date, ⟨set.year, set.month, set.day⟩, set.dayofWeek, set.dayofYear⟩

/-! ## The mutators -/

lemma fieldsAgree_calcDayOfYear {t : DateTime} : FieldsAgree t.calcDayOfYear ↔
    ∃ d, Names t.day t.month t.year d ∧ t.dayofWeek.toInt = d.weekday ∧ LeapAgrees d :=
  exists_congr fun _ => and_congr_right fun names => and_congr_right fun _ => dayofYear_iff names

lemma fieldsAgree_step {t t' : DateTime} {e : Mutator} (call : t.step e = some t') : FieldsAgree t' ↔ t.Keeps e := by
  cases e with
  | setTime time =>
    cases call
    exact fieldsAgree_setTime t time
  | setTimeOf sec min hour day month year =>
    rw [step] at call
    split at call
    case isTrue =>
      cases call
      exact fieldsAgree_calcDayOfYear
    case isFalse => cases call
  | fromHttpDate httpDate =>
    rw [step] at call
    split at call
    case h_1 read =>
      split at call
      case isTrue =>
        cases call
        obtain ⟨⟨⟩, -⟩ | ⟨-, w, day, month, year, _, _, _, _, _, ⟨⟨part, -⟩, -⟩, -, rfl⟩ := fromHttpDate_cases read
        have lt := part.names_lt.1
        have named : (Int8.ofNat w).toInt = w := Int8.toInt_ofNat_of_lt (by omega)
        rw [fieldsAgree_calcDayOfYear, Keeps]
        dsimp only
        rw [named]
        constructor
        · rintro ⟨d, names, weekday, agree⟩
          exact ⟨w, day, month, year, _, d, part, names, Int.ofNat_inj.mp weekday, agree⟩
        · rintro ⟨_, _, _, _, _, d, part', names, rfl, agree⟩
          obtain ⟨rfl, rfl, rfl, rfl⟩ := part.unique part'
          exact ⟨d, names, rfl, agree⟩
      case isFalse => cases call
    case h_2 => cases call
  | addMilliseconds add =>
    obtain ⟨time, unix, result⟩ := Option.bind_eq_some_iff.mp call
    cases result
    rw [Keeps, unix]
    simp only [Option.some.injEq, exists_eq_left']
    exact fieldsAgree_setTime t _

/-- After each of any successful calls the day of the week and of the year are those of the date exactly if each call
keeps them. -/
theorem fields_agree_iff {t t' : DateTime} {es : List Mutator} (run : Run step Always t es t') :
    (∀ es' e u, es' ++ [e] <+: es → Run step Always t (es' ++ [e]) u → FieldsAgree u) ↔ Run step Keeps t es t' :=
  run.forall_step_iff_guarded fun _ _ call => fieldsAgree_step call

/-- The seventh of January 2018 is a Sunday, which is the weekday of a fresh object. -/
theorem fields_agree_iff_fresh :
    FieldsAgree (setTimeOf {} 0 0 0 7 0 2018) ∧ FieldsAgree (setTime (setTimeOf {} 0 0 0 7 0 2018) 0) := by
  have sunday : Keeps {} (.setTimeOf 0 0 0 7 0 2018) :=
    ⟨⟨2018, 0, 7, by decide, by decide, by decide, by decide⟩, ⟨rfl, rfl, rfl⟩, by decide, .inl (by decide)⟩
  have epoch (t : DateTime) : Keeps t (.setTime 0) := by
    rw [Keeps]
    decide
  have one : Run step Keeps {} [.setTimeOf 0 0 0 7 0 2018] _ := .cons sunday rfl .nil
  have two : Run step Keeps {} [.setTimeOf 0 0 0 7 0 2018, .setTime 0] _ := .cons sunday rfl (.cons (epoch _) rfl .nil)
  have agree := (fields_agree_iff two.always).mpr two
  exact ⟨agree [] _ _ (List.prefix_append ..) one.always, agree [_] _ _ List.prefix_rfl two.always⟩

/-- The second of January 2018, a Tuesday, is a Sunday for an object that was fresh. -/
theorem weekday_not_computed : ¬ ∀ (t t' : DateTime) (es : List Mutator) (e : Mutator),
    Run step Always t (es ++ [e]) t' → FieldsAgree t' := by
  intro all
  have run : Run step Always {} [.setTimeOf 0 0 0 2 0 2018] (setTimeOf {} 0 0 0 2 0 2018) :=
    .cons trivial (by decide) .nil
  obtain ⟨d, names, weekday, -⟩ := all {} _ [] _ run
  have same := names.unique (e := ⟨2018, 0, 2, by decide, by decide, by decide, by decide⟩) ⟨rfl, rfl, rfl⟩
  rw [same] at weekday
  revert weekday
  decide

end Sming.DateTime

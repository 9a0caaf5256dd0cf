import Sming.HttpDate

/-!
# Dates that cannot be read

`fromHttpDate` stores each field as soon as it has read it, so that a text that is refused later leaves its traces in
the object, and it does not check the numbers it stores. Here the parts of a text are relations, one for each place
the pointer reaches, and `Harmless` lists the texts for which neither matters.
-/

namespace Sming.DateTime
open Lib Sming.System Int8

/-! ## The parts of a text -/

/-- The pointer behind the comma; `w` is the day of the week. -/
inductive DayPart (s : List Char) : Nat → List Char → Prop where
  | mk {first w} (comma : s.findIdx? (· == ',') = some first) (long : ¬ s.length - first < 20)
    (named : findName flashDayNames 7 ((s ++ ['\x00']).take 3) = some w) :
    DayPart s w ((s ++ ['\x00']).drop (first + 2))

inductive MonthPart (s : List Char) : Nat → Int → List Char → Prop where
  | mk {w ptr day c rest} (part : DayPart s w ptr) (number : strtol ptr = some (day, c :: rest)) (more : c ≠ '\x00') :
    MonthPart s w day rest

inductive YearPart (s : List Char) : Nat → Int → Nat → List Char → Prop where
  | mk {w day ptr month} (part : MonthPart s w day ptr) (inside : ¬ ptr.length < 3)
    (named : findName flashMonthNames 12 (ptr.take 3) = some month) : YearPart s w day month (ptr.drop 4)

inductive HourPart (s : List Char) : Nat → Int → Nat → Int16 → List Char → Prop where
  | mk {w day month ptr year c rest} (part : YearPart s w day month ptr)
    (number : strtol ptr = some (year, c :: rest)) (more : c ≠ '\x00') :
    HourPart s w day month (fullYear (Int16.ofInt year)) (c :: rest)

inductive MinutePart (s : List Char) : Nat → Int → Nat → Int16 → Int → List Char → Prop where
  | mk {w day month year ptr hour rest} (part : HourPart s w day month year ptr)
    (number : strtol ptr = some (hour, ':' :: rest)) : MinutePart s w day month year hour rest

inductive SecondPart (s : List Char) : Nat → Int → Nat → Int16 → Int → Int → List Char → Prop where
  | mk {w day month year hour ptr minute rest} (part : MinutePart s w day month year hour ptr)
    (number : strtol ptr = some (minute, ':' :: rest)) : SecondPart s w day month year hour minute rest

/-! ## Harmless texts -/

structure InRanges (t : DateTime) : Prop where
  hour : 0 ≤ t.hour.toInt ∧ t.hour.toInt ≤ 23
  minute : 0 ≤ t.minute.toInt ∧ t.minute.toInt ≤ 59
  second : 0 ≤ t.second.toInt ∧ t.second.toInt ≤ 59
  day : 1 ≤ t.day.toInt ∧ t.day.toInt ≤ 31
  month : 0 ≤ t.month.toInt ∧ t.month.toInt ≤ 11
  dayofWeek : 0 ≤ t.dayofWeek.toInt ∧ t.dayofWeek.toInt ≤ 6

/-- Nothing is read behind the terminator; a refused text leaves the object as it was, an accepted one leaves all
fields in their ranges. -/
def Safe (t : DateTime) (result : Option (Bool × DateTime)) : Prop :=
  ∃ accepted t', result = some (accepted, t') ∧ (accepted = false → t' = t) ∧ (accepted = true → t'.InRanges)

/-- A text that is refused where the object already holds what was read up to there, or that is accepted with numbers
in range. -/
inductive Harmless (t : DateTime) (s : List Char) : Prop where
  | short (few : ∀ first, s.findIdx? (· == ',') = some first → s.length - first < 20)
  | unknownDay {first} (comma : s.findIdx? (· == ',') = some first) (long : ¬ s.length - first < 20)
    (unknown : findName flashDayNames 7 ((s ++ ['\x00']).take 3) = none) (same : t.dayofWeek = 7)
  | dayEnds {w ptr day rest} (part : DayPart s w ptr) (number : strtol ptr = some (day, '\x00' :: rest))
    (same : t.dayofWeek = ofNat w ∧ t.day = ofInt day)
  | unknownMonth {w day ptr} (part : MonthPart s w day ptr) (inside : ¬ ptr.length < 3)
    (unknown : findName flashMonthNames 12 (ptr.take 3) = none)
    (same : t.dayofWeek = ofNat w ∧ t.day = ofInt day ∧ t.month = 12)
  | yearEnds {w day month ptr year rest} (part : YearPart s w day month ptr)
    (number : strtol ptr = some (year, '\x00' :: rest))
    (same : t.dayofWeek = ofNat w ∧ t.day = ofInt day ∧ t.month = ofNat month ∧
      t.year = Int16.ofInt year)
  | hourEnds {w day month year ptr hour c rest} (part : HourPart s w day month year ptr)
    (number : strtol ptr = some (hour, c :: rest)) (stop : c ≠ ':')
    (same : t.dayofWeek = ofNat w ∧ t.day = ofInt day ∧ t.month = ofNat month ∧ t.year = year ∧
      t.hour = ofInt hour)
  | minuteEnds {w day month year hour ptr minute c rest} (part : MinutePart s w day month year hour ptr)
    (number : strtol ptr = some (minute, c :: rest)) (stop : c ≠ ':')
    (same : t.dayofWeek = ofNat w ∧ t.day = ofInt day ∧ t.month = ofNat month ∧ t.year = year ∧
      t.hour = ofInt hour ∧ t.minute = ofInt minute)
  | accepted {w day month year hour minute ptr second rest} (part : SecondPart s w day month year hour minute ptr)
    (number : strtol ptr = some (second, rest))
    (days : 1 ≤ (ofInt day).toInt ∧ (ofInt day).toInt ≤ 31)
    (hours : 0 ≤ (ofInt hour).toInt ∧ (ofInt hour).toInt ≤ 23)
    (minutes : 0 ≤ (ofInt minute).toInt ∧ (ofInt minute).toInt ≤ 59)
    (seconds : 0 ≤ (ofInt second).toInt ∧ (ofInt second).toInt ≤ 59)

/-! ## What `fromHttpDate` makes of the parts -/

variable {t t' : DateTime} {s ptr ptr' : List Char} {accepted : Bool} {w w' month month' : Nat} {year year' : Int16}
  {day day' hour minute : Int}

lemma HourPart.unique (part : HourPart s w day month year ptr) (part' : HourPart s w' day' month' year' ptr') :
    w = w' ∧ day = day' ∧ month = month' ∧ year = year' := by
  obtain ⟨⟨⟨⟨comma, -, named⟩, number, -⟩, -, months⟩, years, -⟩ := part
  obtain ⟨⟨⟨⟨comma', -, named'⟩, number', -⟩, -, months'⟩, years', -⟩ := part'
  cases comma.symm.trans comma'
  cases named.symm.trans named'
  cases number.symm.trans number'
  cases months.symm.trans months'
  cases years.symm.trans years'
  exact ⟨rfl, rfl, rfl, rfl⟩

section
variable {rest : List Char} {v : Int} {c : Char} (number : strtol ptr = some (v, c :: rest))
include number

lemma readDay_eq : t.readDay ptr = if c = '\x00' then some (false, { t with day := ofInt v })
    else readMonth { t with day := ofInt v } rest := by
  rw [readDay, number]
  rfl

lemma readYear_eq : t.readYear ptr = if c = '\x00' then some (false, { t with year := Int16.ofInt v })
    else readHour { t with year := fullYear (Int16.ofInt v) } (c :: rest) := by
  rw [readYear, number]
  rfl

lemma readHour_eq : t.readHour ptr = if c ≠ ':' then some (false, { t with hour := ofInt v })
    else readMinute { t with hour := ofInt v } rest := by
  rw [readHour, number]
  rfl

lemma readMinute_eq : t.readMinute ptr = if c ≠ ':' then some (false, { t with minute := ofInt v })
    else readSecond { t with minute := ofInt v } rest := by
  rw [readMinute, number]
  rfl

end

lemma fromHttpDate_dayPart (part : DayPart s w ptr) (t : DateTime) :
    t.fromHttpDate s = readDay { t with dayofWeek := ofNat w } ptr := by
  obtain ⟨comma, long, named⟩ := part
  rw [fromHttpDate, comma]
  simp only [if_neg long, named]

lemma fromHttpDate_monthPart (part : MonthPart s w day ptr) (t : DateTime) : t.fromHttpDate s =
      readMonth { t with dayofWeek := ofNat w, day := ofInt day } ptr := by
  obtain ⟨part, number, more⟩ := part
  rw [fromHttpDate_dayPart part, readDay_eq number, if_neg more]

lemma fromHttpDate_yearPart (part : YearPart s w day month ptr) (t : DateTime) : t.fromHttpDate s = readYear { t with
      dayofWeek := ofNat w, day := ofInt day, month := ofNat month } ptr := by
  obtain ⟨part, inside, named⟩ := part
  rw [fromHttpDate_monthPart part, readMonth, if_neg inside, named]

lemma fromHttpDate_hourPart (part : HourPart s w day month year ptr) (t : DateTime) :
    t.fromHttpDate s = readHour { t with
      dayofWeek := ofNat w, day := ofInt day, month := ofNat month, year := year } ptr := by
  obtain ⟨part, number, more⟩ := part
  rw [fromHttpDate_yearPart part, readYear_eq number, if_neg more]

lemma fromHttpDate_minutePart (part : MinutePart s w day month year hour ptr) (t : DateTime) :
    t.fromHttpDate s = readMinute { t with
      dayofWeek := ofNat w, day := ofInt day, month := ofNat month, year := year
      hour := ofInt hour } ptr := by
  obtain ⟨part, number⟩ := part
  rw [fromHttpDate_hourPart part, readHour_eq number, if_neg (not_not.mpr rfl)]

lemma fromHttpDate_secondPart (part : SecondPart s w day month year hour minute ptr) (t : DateTime) :
    t.fromHttpDate s = readSecond { t with
      dayofWeek := ofNat w, day := ofInt day, month := ofNat month, year := year
      hour := ofInt hour, minute := ofInt minute } ptr := by
  obtain ⟨part, number⟩ := part
  rw [fromHttpDate_minutePart part, readMinute_eq number, if_neg (not_not.mpr rfl)]

lemma safe_false : Safe t (some (false, t')) ↔ t' = t := by
  constructor
  · rintro ⟨_, _, result, same, -⟩
    cases result
    exact same rfl
  · exact fun same => ⟨false, t', rfl, fun _ => same, nofun⟩

lemma safe_true : Safe t (some (true, t')) ↔ t'.InRanges := by
  constructor
  · rintro ⟨_, _, result, -, ranges⟩
    cases result
    exact ranges rfl
  · exact fun ranges => ⟨true, t', rfl, nofun, fun _ => ranges⟩

lemma findName_lt {names : Data.CStringArray} {n : Nat} {given : List Char} {i : Nat}
    (found : findName names n given = some i) : i < n := List.mem_range.mp (List.mem_of_find?_eq_some found)

/-! ## From part to part

A call that returns has refused the text at this part, and then the text is harmless if the object is as before, or it
has gone on to the next one. -/

lemma exists_number {f : DateTime → List Char → Option (Bool × DateTime)} {r : Bool × DateTime}
    (call : f t ptr = some r) (outside : strtol ptr = none → f t ptr = none)
    (past : ∀ v, strtol ptr = some (v, []) → f t ptr = none) : ∃ v c rest, strtol ptr = some (v, c :: rest) := by
  rcases number : strtol ptr with _ | ⟨v, _ | ⟨c, rest⟩⟩
  · cases (outside number).symm.trans call
  · cases (past v number).symm.trans call
  · exact ⟨v, c, rest, rfl⟩

section
variable (call : t.fromHttpDate s = some (accepted, t'))
include call

lemma exists_dayPart : (accepted = false ∧ (t' = t → Harmless t s)) ∨ ∃ w ptr, DayPart s w ptr := by
  cases comma : s.findIdx? (· == ',') with
  | none =>
    simp only [fromHttpDate, comma] at call
    cases call
    exact .inl ⟨rfl, fun _ => .short (by simp [comma])⟩
  | some first =>
    by_cases long : s.length - first < 20
    · simp only [fromHttpDate, comma, if_pos long] at call
      cases call
      refine .inl ⟨rfl, fun _ => .short fun i found => ?_⟩
      obtain rfl := Option.some.inj (comma.symm.trans found)
      exact long
    · cases named : findName flashDayNames 7 ((s ++ ['\x00']).take 3) with
      | none =>
        simp only [fromHttpDate, comma, if_neg long, named] at call
        cases call
        exact .inl ⟨rfl, fun same => .unknownDay comma long named (congrArg DateTime.dayofWeek same).symm⟩
      | some w => exact .inr ⟨w, _, .mk comma long named⟩

lemma DayPart.next (part : DayPart s w ptr) :
    (accepted = false ∧ (t' = t → Harmless t s)) ∨ ∃ day rest, MonthPart s w day rest := by
  rw [fromHttpDate_dayPart part] at call
  obtain ⟨day, c, rest, number⟩ := exists_number call (fun h => by simp [readDay, h]) (fun _ h => by simp [readDay, h])
  rw [readDay_eq number] at call
  by_cases last : c = '\x00'
  · rw [if_pos last] at call
    cases call
    exact .inl ⟨rfl, fun same => .dayEnds part (last ▸ number) (same ▸ ⟨rfl, rfl⟩)⟩
  · exact .inr ⟨day, rest, .mk part number last⟩

lemma MonthPart.next (part : MonthPart s w day ptr) :
    (accepted = false ∧ (t' = t → Harmless t s)) ∨ ∃ month rest, YearPart s w day month rest := by
  rw [fromHttpDate_monthPart part, readMonth] at call
  by_cases inside : ptr.length < 3
  · rw [if_pos inside] at call
    cases call
  · rw [if_neg inside] at call
    cases named : findName flashMonthNames 12 (ptr.take 3) with
    | none =>
      simp only [named] at call
      cases call
      exact .inl ⟨rfl, fun same => .unknownMonth part inside named (same ▸ ⟨rfl, rfl, rfl⟩)⟩
    | some month => exact .inr ⟨month, _, .mk part inside named⟩

lemma YearPart.next (part : YearPart s w day month ptr) :
    (accepted = false ∧ (t' = t → Harmless t s)) ∨ ∃ year rest, HourPart s w day month year rest := by
  rw [fromHttpDate_yearPart part] at call
  obtain ⟨year, c, rest, number⟩ := exists_number call (fun h => by simp [readYear, h])
    (fun _ h => by simp [readYear, h])
  rw [readYear_eq number] at call
  by_cases last : c = '\x00'
  · rw [if_pos last] at call
    cases call
    exact .inl ⟨rfl, fun same => .yearEnds part (last ▸ number) (same ▸ ⟨rfl, rfl, rfl, rfl⟩)⟩
  · exact .inr ⟨_, _, .mk part number last⟩

lemma HourPart.next (part : HourPart s w day month year ptr) :
    (accepted = false ∧ (t' = t → Harmless t s)) ∨ ∃ hour rest, MinutePart s w day month year hour rest := by
  rw [fromHttpDate_hourPart part] at call
  obtain ⟨hour, c, rest, number⟩ := exists_number call (fun h => by simp [readHour, h])
    (fun _ h => by simp [readHour, h])
  rw [readHour_eq number] at call
  by_cases stop : c = ':'
  · exact .inr ⟨hour, rest, .mk part (stop ▸ number)⟩
  · rw [if_pos stop] at call
    cases call
    exact .inl ⟨rfl, fun same => .hourEnds part number stop (same ▸ ⟨rfl, rfl, rfl, rfl, rfl⟩)⟩

lemma MinutePart.next (part : MinutePart s w day month year hour ptr) :
    (accepted = false ∧ (t' = t → Harmless t s)) ∨ ∃ minute rest, SecondPart s w day month year hour minute rest := by
  rw [fromHttpDate_minutePart part] at call
  obtain ⟨minute, c, rest, number⟩ := exists_number call (fun h => by simp [readMinute, h])
    (fun _ h => by simp [readMinute, h])
  rw [readMinute_eq number] at call
  by_cases stop : c = ':'
  · exact .inr ⟨minute, rest, .mk part (stop ▸ number)⟩
  · rw [if_pos stop] at call
    cases call
    exact .inl ⟨rfl, fun same => .minuteEnds part number stop (same ▸ ⟨rfl, rfl, rfl, rfl, rfl, rfl⟩)⟩

lemma fromHttpDate_cases :
    (accepted = false ∧ (t' = t → Harmless t s)) ∨
      accepted = true ∧ ∃ w day month year hour minute ptr second rest,
        SecondPart s w day month year hour minute ptr ∧ strtol ptr = some (second, rest) ∧
        t' = calcDayOfYear { t with
          dayofWeek := ofNat w, day := ofInt day, month := ofNat month, year := year
          hour := ofInt hour, minute := ofInt minute, second := ofInt second, milliseconds := 0 } := by
  obtain refused | ⟨w, ptr, part⟩ := exists_dayPart call
  · exact .inl refused
  obtain refused | ⟨day, ptr, part⟩ := part.next call
  · exact .inl refused
  obtain refused | ⟨month, ptr, part⟩ := part.next call
  · exact .inl refused
  obtain refused | ⟨year, ptr, part⟩ := part.next call
  · exact .inl refused
  obtain refused | ⟨hour, ptr, part⟩ := part.next call
  · exact .inl refused
  obtain refused | ⟨minute, ptr, part⟩ := part.next call
  · exact .inl refused
  rw [fromHttpDate_secondPart part, readSecond] at call
  obtain ⟨⟨second, rest⟩, number, result⟩ := Option.bind_eq_some_iff.mp call
  cases result
  exact .inr ⟨rfl, w, day, month, year, hour, minute, ptr, second, rest, part, number, rfl⟩

end

lemma HourPart.names_lt (part : HourPart s w day month year ptr) : w < 7 ∧ month < 12 := by
  obtain ⟨⟨⟨⟨-, -, day⟩, -, -⟩, -, month⟩, -, -⟩ := part
  exact ⟨findName_lt day, findName_lt month⟩

lemma SecondPart.names_lt (part : SecondPart s w day month year hour minute ptr) : w < 7 ∧ month < 12 := by
  obtain ⟨⟨part, -⟩, -⟩ := part
  exact part.names_lt

/-- `fromHttpDate` stays within the text, leaves the object alone if it refuses the text and fields in range if it
accepts it, exactly for the harmless texts. -/
theorem fromHttpDate_safe_iff (t : DateTime) (s : List Char) : Safe t (t.fromHttpDate s) ↔ Harmless t s := by
  constructor
  · rintro ⟨accepted, t', call, refused, ranges⟩
    obtain ⟨rfl, harmless⟩ | ⟨rfl, _, _, _, _, _, _, _, _, _, part, number, rfl⟩ := fromHttpDate_cases call
    · exact harmless (refused rfl)
    · have fields := ranges rfl
      exact .accepted part number fields.day fields.hour fields.minute fields.second
  · intro harmless
    cases harmless with
    | short few =>
      rw [fromHttpDate]
      split
      case h_1 => exact safe_false.mpr rfl
      case h_2 first comma =>
        rw [if_pos (few first comma)]
        exact safe_false.mpr rfl
    | unknownDay comma long unknown same =>
      simp only [fromHttpDate, comma, if_neg long, unknown, safe_false, ← same]
    | dayEnds part number same =>
      rw [fromHttpDate_dayPart part, readDay_eq number, if_pos rfl, ← same.1, ← same.2]
      exact safe_false.mpr rfl
    | unknownMonth part inside unknown same =>
      rw [fromHttpDate_monthPart part, readMonth, if_neg inside, unknown, ← same.1, ← same.2.1, ← same.2.2]
      exact safe_false.mpr rfl
    | yearEnds part number same =>
      obtain ⟨w, day, month, year⟩ := same
      rw [fromHttpDate_yearPart part, readYear_eq number, if_pos rfl, ← w, ← day, ← month, ← year]
      exact safe_false.mpr rfl
    | hourEnds part number stop same =>
      obtain ⟨w, day, month, rfl, hour⟩ := same
      rw [fromHttpDate_hourPart part, readHour_eq number, if_pos stop, ← w, ← day, ← month, ← hour]
      exact safe_false.mpr rfl
    | minuteEnds part number stop same =>
      obtain ⟨w, day, month, rfl, hour, minute⟩ := same
      rw [fromHttpDate_minutePart part, readMinute_eq number, if_pos stop, ← w, ← day, ← month, ← hour, ← minute]
      exact safe_false.mpr rfl
    | @accepted w day month _ _ _ _ _ _ part number days hours minutes seconds =>
      obtain ⟨wlt, mlt⟩ := part.names_lt
      rw [fromHttpDate_secondPart part, readSecond, number]
      have ws : (ofNat w).toInt = w := toInt_ofNat_of_lt (by omega)
      have ms : (ofNat month).toInt = month := toInt_ofNat_of_lt (by omega)
      refine safe_true.mpr ⟨hours, minutes, seconds, days, ?_, ?_⟩
      · change 0 ≤ (ofNat month).toInt ∧ (ofNat month).toInt ≤ 11
        omega
      · change 0 ≤ (ofNat w).toInt ∧ (ofNat w).toInt ≤ 6
        omega

/-- A text without the name of a day is refused, and the day of the week is 7 afterwards. -/
theorem fromHttpDate_leaves_traces : ¬ ∀ (t : DateTime) (s : List Char), Safe t (t.fromHttpDate s) := by
  intro all
  have safe := all {} "Xyz, 06 Nov 1994 08:49:37".toList
  have result : fromHttpDate {} "Xyz, 06 Nov 1994 08:49:37".toList = some (false, { dayofWeek := 7 }) := by
    decide +kernel
  rw [result, safe_false] at safe
  revert safe
  decide

/-- Ninety-nine hours are accepted. -/
example : fromHttpDate {} "Sun, 06 Nov 1994 99:49:37".toList = some (true, {
    hour := 99, minute := 49, second := 37, day := 6, dayofYear := 310, month := 10, year := 1994 }) := by
  decide +kernel

/-- A text that ends with the name of the month is read behind its end. -/
example : fromHttpDate {} "Sun, 0000000000000006 Nov".toList = none := by decide +kernel

end Sming.DateTime

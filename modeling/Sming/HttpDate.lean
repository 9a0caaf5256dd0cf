import Sming.Data.CStringArray
import Sming.DateTime
import Sming.System.MPrintf

/-!
# Dates as text

Embedding of `DateTime::format` and `DateTime::fromHttpDate` of `Sming/SmingCore/DateTime.cpp`, for the English names.
A conversion of `format` may call `format` with a fixed text that has simpler conversions only; so there are three levels
of conversions here instead of the recursion. `none` is a text that cannot be made or, in `fromHttpDate`, a byte
that is read behind the terminator.
-/

namespace Sming
open Sming.Lib Sming.Data Sming.System Sming.Wiring.WString List

def flashMonthNames : CStringArray where
  buffer := ("January\x00February\x00March\x00April\x00May\x00June\x00July\x00August\x00September\x00October\x00" ++
    "November\x00December").toList

def flashDayNames : CStringArray where
  buffer := "Sunday\x00Monday\x00Tuesday\x00Wednesday\x00Thursday\x00Friday\x00Saturday".toList

namespace DateTime

/-! ## Format -/

variable (t : DateTime)

def calcWeek (firstDay : Int) : UInt8 :=
  let startOfWeek := t.dayofYear.toInt - t.dayofWeek.toInt + firstDay
  let firstDayofWeek := startOfWeek.tmod 7
  let firstDayofWeek := if firstDayofWeek < 0 then firstDayofWeek + 7 else firstDayofWeek
  UInt8.ofInt ((startOfWeek + 7 - firstDayofWeek).tdiv 7)

def number (v : Int) : List PrintfArg := [.int (Int32.ofInt v)]

def name (names : CStringArray) (index : Int8) : List PrintfArg :=
  [.str (names.getValue (index.toInt % 2 ^ 32).toNat)]

/-- The text of a conversion that needs no other; the outer `none` is an unknown one. -/
def simpleText : Char → Option (Option (List Char))
  | 'Y' => some (mSnprintf 64 "%04d" (number t.year.toInt))
  | 'y' => some (mSnprintf 64 "%02d" (number (t.year.toInt.tmod 100)))
  | 'C' => some (mSnprintf 64 "%02d" (number (t.year.toInt.tdiv 100)))
  | 'b' => some (mSnprintf 4 "%s" (name flashMonthNames t.month))
  | 'h' => some (mSnprintf 4 "%s" (name flashMonthNames t.month))
  | 'B' => some (mSnprintf 64 "%s" (name flashMonthNames t.month))
  | 'm' => some (mSnprintf 64 "%02d" (number (t.month.toInt + 1)))
  | 'U' => some (mSnprintf 64 "%02d" (number (t.calcWeek 0).toNat))
  | 'V' => some (mSnprintf 64 "%02d" (number ((t.calcWeek 1).toNat + 1)))
  | 'W' => some (mSnprintf 64 "%02d" (number (t.calcWeek 1).toNat))
  | 'j' => some (mSnprintf 64 "%03d" (number t.dayofYear.toInt))
  | 'd' => some (mSnprintf 64 "%02d" (number t.day.toInt))
  | 'e' => some (mSnprintf 64 "% 2d" (number t.day.toInt))
  | 'w' => some (mSnprintf 64 "%d" (number t.dayofWeek.toInt))
  | 'a' => some (mSnprintf 4 "%s" (name flashDayNames t.dayofWeek))
  | 'A' => some (mSnprintf 64 "%s" (name flashDayNames t.dayofWeek))
  | 'u' => some (mSnprintf 64 "%d" (number (if t.dayofWeek = 0 then 7 else t.dayofWeek.toInt)))
  | 'H' => some (mSnprintf 64 "%02d" (number t.hour.toInt))
  | 'I' => some (mSnprintf 64 "%02d"
      (number (if t.hour ≠ 0 then if 12 < t.hour then t.hour.toInt - 12 else t.hour.toInt else 12)))
  | 'M' => some (mSnprintf 64 "%02d" (number t.minute.toInt))
  | 'S' => some (mSnprintf 64 "%02d" (number t.second.toInt))
  | 'R' => some (mSnprintf 64 "%02d:%02d" (number t.hour.toInt ++ number t.minute.toInt))
  | 'p' => some (mSnprintf 64 "%s" [.str (some (if t.hour < 12 then "AM" else "PM").toList)])
  | '%' => some (mSnprintf 64 "%s" [.str (some ['%'])])
  | 'n' => some (mSnprintf 64 "%s" [.str (some ['\n'])])
  | 't' => some (mSnprintf 64 "%s" [.str (some ['\t'])])
  | _ => none

/-- The loop of C++ `DateTime::format` for given conversions. A `%` at the end and one in front of an unknown letter
are dropped. -/
def formatLoop (conversion : Char → Option (Option (List Char))) : List Char → Option (List Char)
  | [] => some []
  | [c] => some (if c = '%' then [] else [c])
  | c :: f :: rest =>
    if c ≠ '%' then (formatLoop conversion (f :: rest)).map (c :: ·)
    else
      match conversion f with
      | none => formatLoop conversion (f :: rest)
      | some text => do
        let text ← text
        (formatLoop conversion rest).map (text ++ ·)

def nested (conversion : Char → Option (Option (List Char))) (sFormat : String) : Option (Option (List Char)) :=
  some (do mSnprintf 64 "%s" [.str (← formatLoop conversion sFormat.toList)])

def compoundText : Char → Option (Option (List Char))
  | 'x' => nested t.simpleText "%d/%m/%Y"
  | 'X' => nested t.simpleText "%H:%M:%S"
  | 'D' => nested t.simpleText "%m/%d/%y"
  | 'F' => nested t.simpleText "%Y-%m-%d"
  | 'r' => nested t.simpleText "%I:%M:%S %p"
  | 'T' => nested t.simpleText "%H:%M:%S"
  | f => t.simpleText f

def conversionText : Char → Option (Option (List Char))
  | 'c' => nested t.compoundText "%a %d %b %Y %X"
  | f => t.compoundText f

def format (sFormat : String) : Option (List Char) :=
  formatLoop t.conversionText sFormat.toList

def toHTTPDate : Option (List Char) := t.format "%a, %d %b %Y %T GMT"

/-! ## Read -/

def strncmp (s t : List Char) (n : Nat) : Bool := (before '\x00' s).take n == (before '\x00' t).take n

/-- The number at the start of a text, which goes up to the terminator, and the rest; the text itself if there is
none. -/
def strtol (text : List Char) : Option (Int × List Char) :=
  if text = [] then none else some (Wiring.WString.strtol text)

/-- The index of the first of `n` names that begins as the given one. -/
def findName (names : CStringArray) (n : Nat) (given : List Char) : Option Nat :=
  (range n).find? fun i => strncmp ((names.getValue i).getD []) given 3

/-- Two-digit years stand for 1970 to 2069. -/
def fullYear (year : Int16) : Int16 :=
  if year < 70 then year + 2000 else if year < 100 then year + 1900 else year

/-- The last part of C++ `fromHttpDate`: the seconds. -/
def readSecond (ptr : List Char) : Option (Bool × DateTime) := do
  let (second, _) ← strtol ptr
  some (true, calcDayOfYear { t with second := Int8.ofInt second, milliseconds := 0 })

def readMinute (ptr : List Char) : Option (Bool × DateTime) := do
  let (minute, ptr) ← strtol ptr
  let t := { t with minute := Int8.ofInt minute }
  if (← ptr.head?) ≠ ':' then some (false, t) else readSecond t (ptr.drop 1)

def readHour (ptr : List Char) : Option (Bool × DateTime) := do
  let (hour, ptr) ← strtol ptr
  let t := { t with hour := Int8.ofInt hour }
  if (← ptr.head?) ≠ ':' then some (false, t) else readMinute t (ptr.drop 1)

def readYear (ptr : List Char) : Option (Bool × DateTime) := do
  let (year, ptr) ← strtol ptr
  let t := { t with year := Int16.ofInt year }
  if (← ptr.head?) = '\x00' then some (false, t) else readHour { t with year := fullYear t.year } ptr

/-- From the name of the month on; its three characters are read in any case. -/
def readMonth (ptr : List Char) : Option (Bool × DateTime) :=
  if ptr.length < 3 then none
  else
    match findName flashMonthNames 12 (ptr.take 3) with
    | none => some (false, { t with month := 12 })
    | some month => readYear { t with month := Int8.ofNat month } (ptr.drop 4)

def readDay (ptr : List Char) : Option (Bool × DateTime) := do
  let (day, ptr) ← strtol ptr
  let t := { t with day := Int8.ofInt day }
  if (← ptr.head?) = '\x00' then some (false, t) else readMonth t (ptr.drop 1)

def fromHttpDate (httpDate : List Char) : Option (Bool × DateTime) :=
  match httpDate.findIdx? (· == ',') with
  | none => some (false, t)
  | some first =>
    if httpDate.length - first < 20 then some (false, t)
    else
      match findName flashDayNames 7 ((httpDate ++ ['\x00']).take 3) with
      | none => some (false, { t with dayofWeek := 7 })
      | some dayofWeek =>
        readDay { t with dayofWeek := Int8.ofNat dayofWeek } ((httpDate ++ ['\x00']).drop (first + 2))

/-! ## There and back -/

def digit (k : Nat) : Char := hexchar (UInt8.ofNat k)

lemma isDigit_digit : ∀ k < 10, (digit k).isDigit = true := by decide

lemma toNat_digit : ∀ k < 10, (digit k).toNat = 48 + k := by decide

lemma strtol_digits {blanks ds : List Char} (skipped : ∀ b ∈ blanks, isspace b = true) (ne : ds ≠ [])
    (all : ∀ d ∈ ds, d.isDigit = true) (small : digits ds < 2 ^ 31) {c : Char} (stop : c.isDigit = false)
    (rest : List Char) : strtol (blanks ++ (ds ++ c :: rest)) = some ((digits ds : Int), c :: rest) := by
  rw [strtol, if_neg (by simp), Wiring.WString.strtol_digits skipped ne all small (by rintro _ ⟨⟩; exact stop)]

def two (n : Nat) : List Char := [digit (n / 10), digit (n % 10)]

def four (n : Nat) : List Char := [digit (n / 1000), digit (n / 100 % 10), digit (n / 10 % 10), digit (n % 10)]

variable {n : Nat}

lemma digits_ten (some : 10 ≤ n) : Nat.digits 10 n = n % 10 :: Nat.digits 10 (n / 10) :=
  Nat.digits_def' (by decide) (by omega)

lemma numeral_two (lt : n < 100) :
    List.replicate ((2 : Int) - (numeral 10 n).length).toNat '0' ++ numeral 10 n = two n := by
  obtain small | large := Nat.lt_or_ge n 10
  · have one : numeral 10 n = [digit n] := by
      rw [numeral]
      split
      case isTrue zero => subst zero; rfl
      case isFalse some => rw [Nat.digits_of_lt 10 n some small]; rfl
    rw [one, two, Nat.div_eq_of_lt small, Nat.mod_eq_of_lt small]
    rfl
  · have both : numeral 10 n = two n := by
      rw [numeral, if_neg (by omega), digits_ten large, Nat.digits_of_lt 10 (n / 10) (by omega) (by omega)]
      rfl
    rw [both]
    rfl

lemma numeral_four (low : 1000 ≤ n) (lt : n < 10000) : numeral 10 n = four n := by
  have hundreds : n / 10 / 10 = n / 100 := Nat.div_div_eq_div_mul n 10 10
  have thousands : n / 100 / 10 = n / 1000 := Nat.div_div_eq_div_mul n 100 10
  rw [numeral, if_neg (by omega), digits_ten (by omega), digits_ten (by omega), hundreds, digits_ten (by omega),
    thousands, Nat.digits_of_lt 10 (n / 1000) (by omega) (by omega)]
  rfl

lemma text_number (small : n < 2 ^ 31) {width : Int32} {text : List Char} {fmt : String}
    (made : ∀ v, mSnprintf 64 fmt (number v) =
      some (before '\x00' ((ltoaWp (Int32.ofInt v) 10 width '0' ++ []).take 63)))
    (pos : 0 ≤ width.toInt)
    (same : List.replicate (width.toInt - (numeral 10 n).length).toNat '0' ++ numeral 10 n = text)
    (short : text.length ≤ 63) (whole : '\x00' ∉ text) : mSnprintf 64 fmt (number n) = some text := by
  rw [made, Int32.ofInt_eq_ofNat, ltoaWp_eq (by decide) (by decide) small pos, same, append_nil,
    take_of_length_le short, before_of_not_mem whole]

lemma nul_ne_digit : ∀ k < 10, digit k ≠ '\x00' := by decide

lemma nul_not_mem_two (lt : n < 100) : '\x00' ∉ two n := by
  have tens := nul_ne_digit (n / 10) (by omega)
  have ones := nul_ne_digit (n % 10) (by omega)
  simp [two, tens.symm, ones.symm]

lemma text_two (lt : n < 100) : mSnprintf 64 "%02d" (number n) = some (two n) := by
  exact text_number (by omega) (fun v => rfl) (by decide) (numeral_two lt) (by simp [two]) (nul_not_mem_two lt)

lemma text_four (low : 1000 ≤ n) (lt : n < 10000) : mSnprintf 64 "%04d" (number n) = some (four n) := by
  have same : List.replicate ((4 : Int) - (numeral 10 n).length).toNat '0' ++ numeral 10 n = four n := by
    rw [numeral_four low lt]
    rfl
  refine text_number (by omega) (fun v => rfl) (by decide) same (by simp [four]) ?_
  have a := nul_ne_digit (n / 1000) (by omega)
  have b := nul_ne_digit (n / 100 % 10) (by omega)
  have c := nul_ne_digit (n / 10 % 10) (by omega)
  have d := nul_ne_digit (n % 10) (by omega)
  simp [four, a.symm, b.symm, c.symm, d.symm]

lemma strtol_two (lt : n < 100) {blanks : List Char} (skipped : ∀ b ∈ blanks, isspace b = true) {c : Char}
    (stop : c.isDigit = false) (rest : List Char) :
    strtol (blanks ++ (two n ++ c :: rest)) = some ((n : Int), c :: rest) := by
  have tens := isDigit_digit (n / 10) (by omega)
  have ones := isDigit_digit (n % 10) (by omega)
  have value : digits (two n) = n := by
    simp [digits, two, tens, ones, toNat_digit (n / 10) (by omega), toNat_digit (n % 10) (by omega)]
    omega
  have read := @strtol_digits blanks (two n) skipped (by simp [two]) (by simp [two, tens, ones]) (by omega) c stop rest
  rwa [value] at read

lemma strtol_four (lt : n < 10000) {c : Char} (stop : c.isDigit = false) (rest : List Char) :
    strtol (four n ++ c :: rest) = some ((n : Int), c :: rest) := by
  have a := isDigit_digit (n / 1000) (by omega)
  have b := isDigit_digit (n / 100 % 10) (by omega)
  have c' := isDigit_digit (n / 10 % 10) (by omega)
  have d := isDigit_digit (n % 10) (by omega)
  have value : digits (four n) = n := by
    simp [digits, four, a, b, c', d, toNat_digit (n / 1000) (by omega), toNat_digit (n / 100 % 10) (by omega),
      toNat_digit (n / 10 % 10) (by omega), toNat_digit (n % 10) (by omega)]
    omega
  have read := @strtol_digits [] (four n) (by simp) (by simp [four]) (by simp [four, a, b, c', d]) (by omega) c stop
    rest
  rwa [value] at read

def shortName (names : CStringArray) (i : Nat) : List Char := ((names.getValue i).getD []).take 3

lemma dayName_spec : ∀ i < 7, (shortName flashDayNames i).length = 3 ∧ ',' ∉ shortName flashDayNames i ∧
    findName flashDayNames 7 (shortName flashDayNames i) = some i ∧
    mSnprintf 4 "%s" [.str (flashDayNames.getValue i)] = some (shortName flashDayNames i) := by decide +kernel

lemma monthName_spec : ∀ i < 12, (shortName flashMonthNames i).length = 3 ∧
    findName flashMonthNames 12 (shortName flashMonthNames i) = some i ∧
    mSnprintf 4 "%s" [.str (flashMonthNames.getValue i)] = some (shortName flashMonthNames i) := by decide +kernel

def timeText (m : Gregorian.Moment) (rest : List Char) : List Char :=
  two m.hour ++ ':' :: (two m.minute ++ ':' :: (two m.second ++ rest))

def httpText (m : Gregorian.Moment) : List Char :=
  shortName flashDayNames m.date.weekday ++ ',' :: ' ' :: (two m.date.day ++ ' ' ::
    (shortName flashMonthNames m.date.month ++ ' ' :: (four m.date.year ++ ' ' :: timeText m " GMT".toList)))

variable {t : DateTime} {m : Gregorian.Moment}

lemma weekday_lt (d : Gregorian.Date) : d.weekday < 7 := Nat.mod_lt _ (by decide)

lemma day_lt (d : Gregorian.Date) : d.day < 32 := Nat.lt_succ_of_le (Nat.le_trans d.day_le (monthDays_le _ _))

lemma name_eq (names : CStringArray) {index : Int8} {i : Nat} (same : index.toInt = i) (lt : i < 128) :
    name names index = [.str (names.getValue i)] := by
  rw [name, same]
  congr 3
  omega

lemma text_str {s : List Char} (short : s.length ≤ 63) (whole : '\x00' ∉ s) :
    mSnprintf 64 "%s" [.str (some s)] = some s := by
  have made : mSnprintf 64 "%s" [.str (some s)] =
      some (before '\x00' ((List.replicate ((0 : Int) - s.length).toNat ' ' ++ s ++ []).take 63)) := rfl
  have none : ((0 : Int) - s.length).toNat = 0 := by omega
  rw [made, none, append_nil, replicate_zero, nil_append, take_of_length_le short, before_of_not_mem whole]

lemma toHTTPDate_eq (shows : t.Shows m) (low : 1000 ≤ m.date.year) (high : m.date.year < 10000) :
    t.toHTTPDate = some (httpText m) := by
  have weekday := (dayName_spec _ (weekday_lt m.date)).2.2.2
  have month := (monthName_spec _ m.date.month_lt).2.2
  have small := weekday_lt m.date
  have months := m.date.month_lt
  have days := day_lt m.date
  have hours := m.hour_lt
  have minutes := m.minute_lt
  have seconds := m.second_lt
  have a : t.conversionText 'a' = some (some (shortName flashDayNames m.date.weekday)) := by
    rw [← weekday, ← name_eq _ shows.dayofWeek (by omega)]
    rfl
  have d : t.conversionText 'd' = some (some (two m.date.day)) := by
    rw [← text_two (by omega), ← shows.day]
    rfl
  have b : t.conversionText 'b' = some (some (shortName flashMonthNames m.date.month)) := by
    rw [← month, ← name_eq _ shows.month (by omega)]
    rfl
  have y : t.conversionText 'Y' = some (some (four m.date.year)) := by
    rw [← text_four low high, ← shows.year]
    rfl
  have h : t.simpleText 'H' = some (some (two m.hour)) := by
    rw [← text_two (by omega), ← shows.hour]
    rfl
  have mi : t.simpleText 'M' = some (some (two m.minute)) := by
    rw [← text_two (by omega), ← shows.minute]
    rfl
  have se : t.simpleText 'S' = some (some (two m.second)) := by
    rw [← text_two (by omega), ← shows.second]
    rfl
  have inner : formatLoop t.simpleText "%H:%M:%S".toList = some (timeText m []) := by
    change formatLoop t.simpleText ['%', 'H', ':', '%', 'M', ':', '%', 'S'] = _
    simp [formatLoop, h, mi, se, timeText]
  have whole : '\x00' ∉ timeText m [] := by
    simp [timeText, @nul_not_mem_two m.hour (by omega), @nul_not_mem_two m.minute (by omega),
      @nul_not_mem_two m.second (by omega)]
  have time : t.conversionText 'T' = some (some (timeText m [])) := by
    have outer : t.conversionText 'T' = nested t.simpleText "%H:%M:%S" := rfl
    rw [outer, nested, inner]
    exact congrArg some (text_str (by simp [timeText, two]) whole)
  change formatLoop t.conversionText ['%', 'a', ',', ' ', '%', 'd', ' ', '%', 'b', ' ', '%', 'Y', ' ', '%', 'T', ' ',
    'G', 'M', 'T'] = _
  simp [formatLoop, a, d, b, y, time, httpText, timeText]

lemma readHour_timeText (t : DateTime) (m : Gregorian.Moment) {c : Char} (stop : c.isDigit = false)
    (rest : List Char) :
    t.readHour (' ' :: timeText m (c :: rest)) = some (true, calcDayOfYear { t with
      hour := Int8.ofNat m.hour, minute := Int8.ofNat m.minute, second := Int8.ofNat m.second, milliseconds := 0 }) := by
  have hours := m.hour_lt
  have minutes := m.minute_lt
  have seconds := m.second_lt
  have hour := @strtol_two m.hour (by omega) [' '] (by simp [isspace]) ':' (by decide)
  have minute := @strtol_two m.minute (by omega) [] (by simp) ':' (by decide)
  have second := @strtol_two m.second (by omega) [] (by simp) c stop
  simp only [nil_append, cons_append] at hour minute second
  simp [readHour, readMinute, readSecond, timeText, hour, minute, second, Int8.ofInt_eq_ofNat]

lemma fromHttpDate_httpText (t : DateTime) (m : Gregorian.Moment) (low : 1000 ≤ m.date.year)
    (high : m.date.year < 10000) : t.fromHttpDate (httpText m) = some (true, calcDayOfYear {
      hour := Int8.ofNat m.hour, minute := Int8.ofNat m.minute, second := Int8.ofNat m.second, milliseconds := 0
      day := Int8.ofNat m.date.day, dayofWeek := Int8.ofNat m.date.weekday, dayofYear := t.dayofYear
      month := Int8.ofNat m.date.month, year := Int16.ofNat m.date.year }) := by
  obtain ⟨three, comma, found, -⟩ := dayName_spec _ (weekday_lt m.date)
  obtain ⟨three', found', -⟩ := monthName_spec _ m.date.month_lt
  have days := day_lt m.date
  obtain ⟨a, b, c, name⟩ := length_eq_three.mp three
  obtain ⟨a', b', c', name'⟩ := length_eq_three.mp three'
  rw [name] at comma found
  rw [name'] at found'
  have text : httpText m ++ ['\x00'] = a :: b :: c :: ',' :: ' ' :: (two m.date.day ++ ' ' :: a' :: b' :: c' :: ' ' ::
      (four m.date.year ++ ' ' :: timeText m (' ' :: 'G' :: 'M' :: 'T' :: ['\x00']))) := by
    simp [httpText, timeText, name, name']
  have length : (httpText m).length = 29 := by
    simp [httpText, timeText, name, name', two, four]
  have first : (httpText m).findIdx? (· == ',') = some 3 := by
    simp only [mem_cons, not_mem_nil, or_false, not_or] at comma
    simp [httpText, name, findIdx?_cons, Ne.symm comma.1, Ne.symm comma.2.1, Ne.symm comma.2.2]
  have year : fullYear (Int16.ofInt m.date.year) = Int16.ofNat m.date.year := by
    have value : (Int16.ofNat m.date.year).toInt = m.date.year := Int16.toInt_ofNat_of_lt (by omega)
    have seventy : (70 : Int16).toInt = 70 := by decide
    have hundred : (100 : Int16).toInt = 100 := by decide
    rw [Int16.ofInt_eq_ofNat, fullYear, if_neg, if_neg]
    · rw [Int16.lt_iff_toInt_lt, value, hundred]
      omega
    · rw [Int16.lt_iff_toInt_lt, value, seventy]
      omega
  have day := @strtol_two m.date.day (by omega) [] (by simp) ' ' (by decide)
  have years := @strtol_four m.date.year high ' ' (by decide)
  have time := readHour_timeText
  rw [fromHttpDate, first]
  simp only [length, text]
  rw [if_neg (by decide), take_succ_cons, take_succ_cons, take_succ_cons, take_zero, found]
  simp only [drop_succ_cons, drop_zero, nil_append] at day ⊢
  simp [readDay, readMonth, readYear, day, years, found', year, time, Int8.ofInt_eq_ofNat]

lemma Shows.eq {s : DateTime} (agree : LeapAgrees m.date) (shows : t.Shows m)
    (milliseconds : t.milliseconds = 0) : calcDayOfYear {
      hour := Int8.ofNat m.hour, minute := Int8.ofNat m.minute, second := Int8.ofNat m.second, milliseconds := 0
      day := Int8.ofNat m.date.day, dayofWeek := Int8.ofNat m.date.weekday, dayofYear := s.dayofYear
      month := Int8.ofNat m.date.month, year := Int16.ofNat m.date.year } = t := by
  have byte : ∀ {v : Int8} {n : Nat}, v.toInt = n → Int8.ofNat n = v := by
    intro v n same
    rw [← Int8.ofInt_eq_ofNat, ← same, Int8.ofInt_toInt]
  have year : Int16.ofNat m.date.year = t.year := by
    rw [← Int16.ofInt_eq_ofNat, ← shows.year, Int16.ofInt_toInt]
  rw [byte shows.hour, byte shows.minute, byte shows.second, byte shows.day, byte shows.dayofWeek, byte shows.month,
    year, ← milliseconds]
  have ordinal : ∀ s : DateTime, s.day = t.day → s.month = t.month → s.year = t.year →
      s.calcDayOfYear.dayofYear = t.dayofYear := by
    intro s day month year
    rw [← Int16.toInt_inj, shows.dayofYear]
    exact dayofYear_calcDayOfYear agree (year ▸ shows.year) (month ▸ shows.month) (day ▸ shows.day)
  have same := ordinal { t with dayofYear := s.dayofYear } rfl rfl rfl
  cases t
  simpa [calcDayOfYear] using same

/-- Reading the date that was written gives the object again, whatever the reader held before. -/
theorem fromHttpDate_toHTTPDate (time : Int32) (since : 0 ≤ time.toInt) (d s : DateTime) :
    ∃ text, (d.setTime time).toHTTPDate = some text ∧ s.fromHttpDate text = some (true, d.setTime time) ∧
      (d.setTime time).toUnixTime = some time := by
  obtain ⟨m, unix, low, high, components⟩ := exists_shows since
  have agree : LeapAgrees m.date := leapAgrees_of_lt (by omega) (.inr high)
  have shows := shows_setTime agree components d
  refine ⟨httpText m, toHTTPDate_eq shows (by omega) (by omega), ?_, toUnixTime_setTime time d⟩
  rw [fromHttpDate_httpText s m (by omega) (by omega), Shows.eq agree shows rfl]

theorem fromHttpDate_toHTTPDate_november : ∃ text, (setTime {} 784111777).toHTTPDate = some text ∧
    fromHttpDate {} text = some (true, setTime {} 784111777) := by
  obtain ⟨text, written, read, -⟩ := fromHttpDate_toHTTPDate 784111777 (by decide) {} {}
  exact ⟨text, written, read⟩

end DateTime

end Sming

import Mathlib.Tactic.SplitIfs
import Mathlib.Algebra.Group.Nat.Defs

/-!
# Timers

Embedding of `Sming/SmingCore/Timer.cpp` and `SimpleTimer.h`: a timer over one of the operating system. An interval
that the latter cannot hold is cut into equal parts, which the timer counts.
-/

namespace Sming
open Option

/-- How a timer of the operating system was armed (C++ `ets_timer_arm_new`). -/
structure OsTimer where
  interval : UInt32
  repeating : Bool
  milliseconds : Bool
  deriving Repr, DecidableEq

def maxOsTimerIntervalUs : UInt64 := 268435000

/-- The callbacks are left out; `simpleTimer` is the timer of the operating system while it is armed. -/
structure Timer where
  simpleTimer : Option OsTimer := none
  interval : UInt32 := 0
  repeating : Bool := false
  started : Bool := false
  longIntervalCounter : UInt16 := 0
  longIntervalCounterLimit : UInt16 := 0
  deriving Repr, DecidableEq

namespace Timer

variable (t : Timer)

def stop : Timer :=
  if t.started then { t with simpleTimer := none, started := false, longIntervalCounter := 0 } else t

def start (repeating : Bool) : Timer :=
  let t := stop { t with repeating }
  if t.interval = 0 then t
  else
    let armed : OsTimer :=
      if 10000 < t.interval then ⟨t.interval / 1000, t.longIntervalCounterLimit ≠ 0 || repeating, true⟩
      else ⟨t.interval, repeating, false⟩
    { t with simpleTimer := some armed, started := true }

def startOnce : Timer := t.start false

def restart : Timer := t.stop.start true

/-- Cuts the interval (the first half of C++ `Timer::setIntervalUs`). The number of parts is an `int`, which is
stored in 16 bits; `none` is the division by zero when its low 32 bits are 0. -/
def cut (microseconds : UInt64) : Option Timer :=
  if maxOsTimerIntervalUs < microseconds then
    let div := Int32.ofNat (microseconds / maxOsTimerIntervalUs + 1).toNat
    if div.toInt = 0 then none
    else
      some { t with
        interval := (microseconds / UInt64.ofInt div.toInt).toUInt32
        longIntervalCounter := 0
        longIntervalCounterLimit := UInt16.ofInt div.toInt }
  else
    some { t with interval := microseconds.toUInt32, longIntervalCounter := 0, longIntervalCounterLimit := 0 }

def setIntervalUs (microseconds : UInt64) : Option Timer :=
  (t.cut microseconds).map fun t => if t.started then t.restart else t

/-- The division by zero does not happen. -/
def setIntervalMs (milliseconds : UInt32) : Timer :=
  (t.setIntervalUs (milliseconds.toUInt64 * 1000)).getD t

/-- The timer is started and the operating system will call it. -/
def Running : Prop := t.started = true ∧ t.simpleTimer ≠ none

@[simp] lemma started_stop (t : Timer) : t.stop.started = false := by
  cases started : t.started <;> simp [stop, started]

@[simp] lemma interval_stop (t : Timer) : t.stop.interval = t.interval := by
  cases started : t.started <;> simp [stop, started]

@[simp] lemma longIntervalCounterLimit_stop (t : Timer) :
    t.stop.longIntervalCounterLimit = t.longIntervalCounterLimit := by
  cases started : t.started <;> simp [stop, started]

@[simp] lemma interval_start (t : Timer) (repeating : Bool) : (t.start repeating).interval = t.interval := by
  simp only [start]
  split <;> simp

@[simp] lemma longIntervalCounterLimit_start (t : Timer) (repeating : Bool) :
    (t.start repeating).longIntervalCounterLimit = t.longIntervalCounterLimit := by
  simp only [start]
  split <;> simp

lemma running_start (repeating : Bool) : (t.start repeating).Running ↔ t.interval ≠ 0 := by
  simp only [start, interval_stop]
  split
  next zero => simp [Running, zero]
  next some => simp [Running, some]

/-! ## Cutting an interval -/

variable {us : UInt64}

lemma toInt_parts (fits : us.toNat / 268435000 + 1 < 2 ^ 31) :
    (Int32.ofNat (us / maxOsTimerIntervalUs + 1).toNat).toInt = (us.toNat / 268435000 + 1 : Nat) := by
  have parts : (us / maxOsTimerIntervalUs + 1).toNat = us.toNat / 268435000 + 1 := by
    rw [UInt64.toNat_add, UInt64.toNat_div]
    exact Nat.mod_eq_of_lt (by change us.toNat / 268435000 + 1 < _; omega)
  rw [parts]
  exact Int32.toInt_ofNat_of_lt fits

lemma cut_long (long : 268435000 < us.toNat) (fits : us.toNat / 268435000 + 1 < 2 ^ 31) :
    t.cut us = some { t with
      interval := UInt32.ofNat (us.toNat / (us.toNat / 268435000 + 1)), longIntervalCounter := 0
      longIntervalCounterLimit := UInt16.ofNat (us.toNat / 268435000 + 1) } := by
  have some : ¬ (Int32.ofNat (us / maxOsTimerIntervalUs + 1).toNat).toInt = 0 := by
    rw [toInt_parts fits]
    omega
  have div : UInt64.ofInt (us.toNat / 268435000 + 1 : Nat) = UInt64.ofNat (us.toNat / 268435000 + 1) := by
    rw [UInt64.ofInt]
    congr 1
    omega
  have limit : UInt16.ofInt (us.toNat / 268435000 + 1 : Nat) = UInt16.ofNat (us.toNat / 268435000 + 1) := by
    rw [UInt16.ofInt, ← UInt16.toNat_inj, UInt16.toNat_ofNat', UInt16.toNat_ofNat']
    omega
  have part : (us / UInt64.ofNat (us.toNat / 268435000 + 1)).toUInt32 =
      UInt32.ofNat (us.toNat / (us.toNat / 268435000 + 1)) := by
    rw [← UInt32.toNat_inj, UInt64.toNat_toUInt32, UInt64.toNat_div, UInt32.toNat_ofNat',
      UInt64.toNat_ofNat_of_lt' (by change _ < 2 ^ 64; omega)]
  have lt : maxOsTimerIntervalUs < us := UInt64.lt_iff_toNat_lt.mpr long
  rw [cut, if_pos lt, if_neg some, toInt_parts fits, div, limit, part]

lemma cut_short (short : us.toNat ≤ 268435000) : t.cut us = some { t with
    interval := UInt32.ofNat us.toNat, longIntervalCounter := 0, longIntervalCounterLimit := 0 } := by
  have le : ¬ maxOsTimerIntervalUs < us := fun lt => Nat.not_lt.mpr short (UInt64.lt_iff_toNat_lt.mp lt)
  rw [cut, if_neg le]
  rfl

lemma part_le (us : UInt64) : us.toNat / (us.toNat / 268435000 + 1) ≤ 268435000 := by
  refine Nat.le_of_lt_succ ((Nat.div_lt_iff_lt_mul (Nat.succ_pos _)).mpr ?_)
  omega

lemma toNat_ms (ms : UInt32) : (ms.toUInt64 * 1000).toNat = ms.toNat * 1000 := by
  have small := ms.toNat_lt
  rw [UInt64.toNat_mul, UInt32.toNat_toUInt64]
  exact Nat.mod_eq_of_lt (by change ms.toNat * 1000 < _; omega)

lemma cut_ms (ms : UInt32) :
    ∃ t', t.cut (ms.toUInt64 * 1000) = some t' ∧ t'.started = t.started ∧ (t'.interval = 0 ↔ ms = 0) := by
  have small := ms.toNat_lt
  have us := toNat_ms ms
  have none : ms = 0 ↔ ms.toNat = 0 := UInt32.toNat_inj.symm
  have zero : ∀ n < 2 ^ 32, UInt32.ofNat n = 0 ↔ n = 0 := by
    intro n fits
    rw [← UInt32.toNat_inj, UInt32.toNat_ofNat_of_lt' fits]
    rfl
  obtain long | short := Nat.lt_or_ge 268435000 (ms.toUInt64 * 1000).toNat
  · refine ⟨_, cut_long t long (by omega), rfl, ?_⟩
    have le := part_le (ms.toUInt64 * 1000)
    have pos : 0 < (ms.toUInt64 * 1000).toNat / ((ms.toUInt64 * 1000).toNat / 268435000 + 1) :=
      Nat.div_pos (by omega) (Nat.succ_pos _)
    change UInt32.ofNat _ = 0 ↔ _
    rw [zero _ (by omega), none]
    omega
  · refine ⟨_, cut_short t short, rfl, ?_⟩
    change UInt32.ofNat _ = 0 ↔ _
    rw [zero _ (by omega), none]
    omega

lemma running_startOnce {t : Timer} (stopped : t.started = false) (ms : UInt32) :
    (t.setIntervalMs ms).startOnce.Running ↔ ms ≠ 0 := by
  obtain ⟨t', cut, same, zero⟩ := t.cut_ms ms
  have interval : t.setIntervalMs ms = t' := by
    rw [setIntervalMs, setIntervalUs, cut, map_some, same, stopped]
    rfl
  rw [startOnce, running_start, interval, Ne, zero]

/-! ## The interval of a timer -/

/-- The conditional operator binds weaker than the product, which has 32 bits. -/
def getIntervalUs : UInt64 :=
  let product := t.interval * t.longIntervalCounterLimit.toUInt32
  if product ≠ 0 then product.toUInt64 else 1

def parts : Nat := max 1 t.longIntervalCounterLimit.toNat

/-- The operating system can wait for a part, the parts make up the interval up to the remainder of the division, and
the timer reports them. -/
structure Holds (t : Timer) (us : UInt64) : Prop where
  part : t.interval.toNat ≤ 268435000
  above : us.toNat < t.interval.toNat * t.parts + t.parts
  below : t.interval.toNat * t.parts ≤ us.toNat
  reported : t.getIntervalUs.toNat = t.interval.toNat * t.parts

lemma toNat_getIntervalUs : t.getIntervalUs.toNat =
    if t.interval.toNat * t.longIntervalCounterLimit.toNat % 2 ^ 32 = 0 then 1
    else t.interval.toNat * t.longIntervalCounterLimit.toNat % 2 ^ 32 := by
  have product : (t.interval * t.longIntervalCounterLimit.toUInt32).toNat =
      t.interval.toNat * t.longIntervalCounterLimit.toNat % 2 ^ 32 := by
    rw [UInt32.toNat_mul, UInt16.toNat_toUInt32]
  have zero : t.interval * t.longIntervalCounterLimit.toUInt32 = 0 ↔
      t.interval.toNat * t.longIntervalCounterLimit.toNat % 2 ^ 32 = 0 := by
    rw [← UInt32.toNat_inj, product]
    rfl
  simp only [getIntervalUs, ne_eq, zero]
  split_ifs
  · rfl
  · rw [UInt32.toNat_toUInt64, product]

lemma getIntervalUs_lt : t.getIntervalUs.toNat < 2 ^ 32 := by
  rw [toNat_getIntervalUs]
  split_ifs
  · decide
  · exact Nat.mod_lt _ (by decide)

lemma Holds.congr {t t' : Timer} (interval : t'.interval = t.interval)
    (limit : t'.longIntervalCounterLimit = t.longIntervalCounterLimit) (holds : t.Holds us) : t'.Holds us := by
  have parts : t'.parts = t.parts := by rw [Timer.parts, Timer.parts, limit]
  have reported : t'.getIntervalUs = t.getIntervalUs := by rw [getIntervalUs, getIntervalUs, interval, limit]
  constructor
  · exact interval ▸ holds.part
  · rw [interval, parts]
    exact holds.above
  · rw [interval, parts]
    exact holds.below
  · rw [reported, interval, parts]
    exact holds.reported

lemma holds_setIntervalUs {t : Timer} : (∃ t', t.setIntervalUs us = some t' ∧ t'.Holds us) ↔
    ∃ t', t.cut us = some t' ∧ t'.Holds us := by
  have interval (t : Timer) : (if t.started then t.restart else t).interval = t.interval := by
    split <;> simp [restart]
  have limit (t : Timer) : (if t.started then t.restart else t).longIntervalCounterLimit =
      t.longIntervalCounterLimit := by
    split <;> simp [restart]
  constructor
  · rintro ⟨_, set, holds⟩
    obtain ⟨t', cut, rfl⟩ := map_eq_some_iff.mp set
    exact ⟨t', cut, holds.congr (interval t').symm (limit t').symm⟩
  · rintro ⟨t', cut, holds⟩
    exact ⟨_, map_eq_some_iff.mpr ⟨t', cut, rfl⟩, holds.congr (interval t') (limit t')⟩

lemma holds_cut_long {t : Timer} (long : 268435000 < us.toNat) (small : us.toNat < 2 ^ 32 + 2 ^ 16) :
    (∃ t', t.cut us = some t' ∧ t'.Holds us) ↔ us.toNat < 4294967312 := by
  rw [cut_long t long (by omega)]
  simp only [Option.some.injEq, exists_eq_left']
  have le := part_le us
  have few : us.toNat / 268435000 + 1 ≤ 17 := by omega
  generalize sum : us.toNat / 268435000 + 1 = q at le few ⊢
  have interval : (UInt32.ofNat (us.toNat / q)).toNat = us.toNat / q :=
    UInt32.toNat_ofNat_of_lt' (by change _ < 2 ^ 32; omega)
  have limit : (UInt16.ofNat q).toNat = q := UInt16.toNat_ofNat_of_lt' (by change _ < 2 ^ 16; omega)
  have below := Nat.div_mul_le_self us.toNat q
  have above := @Nat.lt_div_mul_add us.toNat q (by omega)
  -- 17 parts are counted around 2 ^ 32 = 17 * 252645135 + 1
  have fits : us.toNat / q * q < 2 ^ 32 ↔ us.toNat < 4294967312 := by
    obtain less | more := Nat.lt_or_ge us.toNat (2 ^ 32)
    · omega
    · obtain rfl : q = 17 := by omega
      omega
  rw [← fits]
  constructor
  · intro holds
    have reported := holds.reported
    have lt := getIntervalUs_lt { t with
      interval := UInt32.ofNat (us.toNat / q), longIntervalCounter := 0, longIntervalCounterLimit := UInt16.ofNat q }
    rw [reported] at lt
    simp only [parts, interval, limit] at lt
    rwa [Nat.max_eq_right (by omega)] at lt
  · intro fits
    have count : max 1 q = q := Nat.max_eq_right (by omega)
    constructor <;> simp only [parts, toNat_getIntervalUs, interval, limit, count]
    · exact le
    · exact above
    · exact below
    · rw [Nat.mod_eq_of_lt fits, if_neg (by omega)]

lemma holds_cut_short {t : Timer} (pos : 0 < us.toNat) (short : us.toNat ≤ 268435000) :
    (∃ t', t.cut us = some t' ∧ t'.Holds us) ↔ us.toNat = 1 := by
  rw [cut_short t short]
  simp only [Option.some.injEq, exists_eq_left']
  have interval : (UInt32.ofNat us.toNat).toNat = us.toNat :=
    UInt32.toNat_ofNat_of_lt' (by change _ < 2 ^ 32; omega)
  have limit : (0 : UInt16).toNat = 0 := rfl
  constructor
  · intro holds
    have reported := holds.reported
    simp only [parts, toNat_getIntervalUs, interval, limit] at reported
    simpa using reported.symm
  · intro one
    constructor <;> simp only [parts, toNat_getIntervalUs, limit, one] <;> decide

/-- An interval is cut, held and reported as it should be only if it is one microsecond, or long and held in 32 bits.
-/
theorem setIntervalUs_holds_iff (t : Timer) (us : UInt64) (pos : 0 < us) :
    (∃ t', t.setIntervalUs us = some t' ∧ t'.Holds us) ↔
      us = 1 ∨ maxOsTimerIntervalUs < us ∧ us < 4294967312 := by
  have one : us = 1 ↔ us.toNat = 1 := UInt64.toNat_inj.symm
  have above : maxOsTimerIntervalUs < us ↔ 268435000 < us.toNat := UInt64.lt_iff_toNat_lt
  have below : us < 4294967312 ↔ us.toNat < 4294967312 := UInt64.lt_iff_toNat_lt
  have some : 0 < us.toNat := UInt64.lt_iff_toNat_lt.mp pos
  rw [holds_setIntervalUs, one, above, below]
  obtain long | short := Nat.lt_or_ge 268435000 us.toNat
  · obtain small | large := Nat.lt_or_ge us.toNat (2 ^ 32 + 2 ^ 16)
    · rw [holds_cut_long long small]
      omega
    · -- the report has 32 bits
      refine iff_of_false ?_ (by omega)
      rintro ⟨t', -, holds⟩
      have report := t'.getIntervalUs_lt
      have low := holds.above
      have parts : t'.parts < 2 ^ 16 := by
        have limit := t'.longIntervalCounterLimit.toNat_lt
        rw [Timer.parts]
        omega
      rw [holds.reported] at report
      omega
  · rw [holds_cut_short some short]
    omega

theorem setIntervalUs_holds_iff_minutes : ∃ t, setIntervalUs {} 300000000 = some t ∧ t.Holds 300000000 :=
  (setIntervalUs_holds_iff {} 300000000 (by decide)).mpr (.inr ⟨by decide, by decide⟩)

/-- A timer of one second reports one microsecond. -/
theorem setIntervalUs_not_reported : ¬ ∀ (t : Timer) (us : UInt64), 0 < us →
    ∃ t', t.setIntervalUs us = some t' ∧ t'.Holds us := by
  intro all
  obtain ⟨t', set, holds⟩ := all {} 1000000 (by decide)
  have result : setIntervalUs {} 1000000 = some { interval := 1000000 } := by decide
  obtain rfl := Option.some.inj (result.symm.trans set)
  have reported := holds.reported
  revert reported
  decide

end Timer

end Sming

import Mathlib.Algebra.Group.Nat.Defs

/-!
# The hardware timer

Embedding of `Sming/SmingCore/HardwareTimer.cpp`. `timer2_ms_flag` says which of two clocks the conversions are for;
the timer itself is always started on the faster one.
-/

namespace Sming

/-- (C++ `APB_CLK_FREQ`.) -/
def apbClkFreq : UInt32 := 80 * 1000000

def getTimerClockFreq (timer2MsFlag : Bool) : UInt32 := if timer2MsFlag then apbClkFreq / 256 else apbClkFreq / 16

def usToTimerTicks (timer2MsFlag : Bool) (us : UInt32) : UInt32 :=
  if us = 0 then 0
  else if us > 0x35A then
    us / 4 * (getTimerClockFreq timer2MsFlag / 250000) + us % 4 * (getTimerClockFreq timer2MsFlag / 1000000)
  else us * getTimerClockFreq timer2MsFlag / 1000000

def timerTicksToUs (timer2MsFlag : Bool) (ticks : UInt32) : UInt32 :=
  10000 * ticks / (getTimerClockFreq timer2MsFlag / 100)

/-- The products `usToTimerTicks` computes, before they are cut to 32 bits. -/
def usToTimerTicksProducts (timer2MsFlag : Bool) (us : UInt32) : List Nat :=
  if us = 0 then []
  else if us > 0x35A then
    [(us / 4).toNat * (getTimerClockFreq timer2MsFlag / 250000).toNat,
      (us % 4).toNat * (getTimerClockFreq timer2MsFlag / 1000000).toNat]
  else [us.toNat * (getTimerClockFreq timer2MsFlag).toNat]

/-- (C++ `HardwareTimer`, with the registers it writes.) -/
structure HardwareTimer where
  interval : UInt32 := 0
  callback : Bool := false
  repeating : Bool := false
  started : Bool := false
  frc1Ctrl : UInt32 := 0
  frc1Load : UInt32 := 0
  deriving DecidableEq

namespace HardwareTimer

/-- The interrupts are on while the timer is started. -/
def stop (t : HardwareTimer) : HardwareTimer := { t with started := false }

/-- `DIVDED_BY_16 | FRC1_ENABLE_TIMER | TM_EDGE_INT`, and `FRC1_AUTO_LOAD` for a timer that repeats. -/
def start (timer2MsFlag : Bool) (t : HardwareTimer) (repeating : Bool) : HardwareTimer :=
  let t := { t with repeating }.stop
  if t.interval = 0 ∨ ¬ t.callback then t
  else
    { t with
      frc1Ctrl := 4 ||| 0x80 ||| 0 ||| if repeating then 0x40 else 0
      started := true
      frc1Load := usToTimerTicks timer2MsFlag t.interval }

def restart (timer2MsFlag : Bool) (t : HardwareTimer) : HardwareTimer := t.stop.start timer2MsFlag t.repeating

/-- (C++ `MIN_HW_TIMER_INTERVAL_US`, `MAX_HW_TIMER_INTERVAL_US`.) -/
def Accepted (microseconds : UInt32) : Prop := microseconds < 0x7fffff ∧ microseconds > 0x32

instance (us : UInt32) : Decidable (Accepted us) := inferInstanceAs (Decidable (_ ∧ _))

def setIntervalUs (timer2MsFlag : Bool) (t : HardwareTimer) (microseconds : UInt32) : HardwareTimer :=
  if Accepted microseconds then
    let t := { t with interval := microseconds }
    if t.started then t.restart timer2MsFlag else t
  else t.stop

end HardwareTimer

/-! ### The conversions -/

def ticksOf (timer2MsFlag : Bool) (us : UInt32) : Nat := us.toNat * (getTimerClockFreq timer2MsFlag).toNat / 1000000

def timeOf (timer2MsFlag : Bool) (ticks : UInt32) : Nat :=
  ticks.toNat * 1000000 / (getTimerClockFreq timer2MsFlag).toNat

/-- `us` is converted exactly, and no product on the way overflows. -/
def ConvertsUs (timer2MsFlag : Bool) (us : UInt32) : Prop :=
  (usToTimerTicks timer2MsFlag us).toNat = ticksOf timer2MsFlag us ∧
    ∀ p ∈ usToTimerTicksProducts timer2MsFlag us, p < 2 ^ 32

def ConvertsTicks (timer2MsFlag : Bool) (ticks : UInt32) : Prop :=
  (timerTicksToUs timer2MsFlag ticks).toNat = timeOf timer2MsFlag ticks ∧ 10000 * ticks.toNat < 2 ^ 32

lemma toNat_usToTimerTicks (flag : Bool) (us : UInt32) : (usToTimerTicks flag us).toNat =
    if us.toNat ≤ 0x35A then us.toNat * (getTimerClockFreq flag).toNat / 1000000
    else (us.toNat / 4 * ((getTimerClockFreq flag).toNat / 250000) +
      us.toNat % 4 * ((getTimerClockFreq flag).toNat / 1000000)) % 2 ^ 32 := by
  have slow : (getTimerClockFreq flag).toNat ≤ 5000000 := by cases flag <;> decide
  rw [usToTimerTicks]
  split
  case isTrue zero =>
    subst zero
    simp
  simp only [gt_iff_lt, UInt32.lt_iff_toNat_lt, UInt32.reduceToNat]
  split
  case isTrue long =>
    rw [if_neg (Nat.not_le.mpr long)]
    simp only [UInt32.toNat_add, UInt32.toNat_mul, UInt32.toNat_div, UInt32.toNat_mod, UInt32.reduceToNat,
      Nat.add_mod_mod, Nat.mod_add_mod]
  case isFalse short =>
    have short := Nat.not_lt.mp short
    have product : us.toNat * (getTimerClockFreq flag).toNat < 2 ^ 32 :=
      Nat.lt_of_le_of_lt (Nat.mul_le_mul short slow) (by decide)
    rw [if_pos short, UInt32.toNat_div, UInt32.toNat_mul, Nat.mod_eq_of_lt product]
    rfl

lemma usToTimerTicks_fast (us : UInt32) : (usToTimerTicks false us).toNat = 5 * us.toNat % 2 ^ 32 := by
  have freq : (getTimerClockFreq false).toNat = 5000000 := rfl
  rw [toNat_usToTimerTicks, freq]
  split <;> omega

lemma usToTimerTicks_slow (us : UInt32) : (usToTimerTicks true us).toNat =
    if us.toNat ≤ 0x35A then us.toNat * 312500 / 1000000 else us.toNat / 4 := by
  have freq : (getTimerClockFreq true).toNat = 312500 := rfl
  have bound := us.toNat_lt
  rw [toNat_usToTimerTicks, freq]
  split <;> omega

variable {flag : Bool} {us : UInt32}

lemma usToTimerTicks_eq_iff (fits : ticksOf flag us < 2 ^ 32) :
    (usToTimerTicks flag us).toNat = ticksOf flag us ↔ flag = false ∨ us.toNat ≤ 0x35A := by
  cases flag with
  | false =>
    have exact : ticksOf false us = us.toNat * 5000000 / 1000000 := rfl
    rw [usToTimerTicks_fast]
    simp only [true_or, iff_true]
    omega
  | true =>
    have exact : ticksOf true us = us.toNat * 312500 / 1000000 := rfl
    rw [usToTimerTicks_slow, exact]
    split <;> simp <;> omega

lemma usToTimerTicksProducts_lt (fits : ticksOf flag us < 2 ^ 32) :
    ∀ p ∈ usToTimerTicksProducts flag us, p < 2 ^ 32 := by
  have bound := us.toNat_lt
  rw [usToTimerTicksProducts]
  split
  case isTrue => simp
  simp only [gt_iff_lt, UInt32.lt_iff_toNat_lt, UInt32.toNat_div, UInt32.toNat_mod, UInt32.reduceToNat]
  rw [ticksOf] at fits
  generalize freq : (getTimerClockFreq flag).toNat = f at *
  obtain rfl | rfl : f = 5000000 ∨ f = 312500 := by
    rw [← freq]
    cases flag <;> decide
  all_goals
    split
    all_goals
      simp only [List.mem_cons, List.not_mem_nil, or_false, forall_eq_or_imp, forall_eq]
      omega

lemma timerTicksToUs_eq_iff (flag : Bool) (ticks : UInt32) :
    (timerTicksToUs flag ticks).toNat = timeOf flag ticks ↔ 10000 * ticks.toNat < 2 ^ 32 := by
  have bound := ticks.toNat_lt
  rw [timerTicksToUs, UInt32.toNat_div, UInt32.toNat_mul, timeOf]
  cases flag with
  | false =>
    show 10000 * ticks.toNat % 2 ^ 32 / 50000 = ticks.toNat * 1000000 / 5000000 ↔ _
    omega
  | true =>
    show 10000 * ticks.toNat % 2 ^ 32 / 3125 = ticks.toNat * 1000000 / 312500 ↔ _
    omega

/-- Times are converted exactly on the faster clock, and on the slower one if short; ticks while ten thousand times
their number fits. There the order is kept. -/
theorem converts_iff (flag : Bool) :
    (∀ us, ticksOf flag us < 2 ^ 32 → (ConvertsUs flag us ↔ flag = false ∨ us.toNat ≤ 0x35A) ∧
      (flag = false ∨ us.toNat ≤ 0x35A → ∀ us' ≤ us, usToTimerTicks flag us' ≤ usToTimerTicks flag us)) ∧
    (∀ ticks, timeOf flag ticks < 2 ^ 32 → (ConvertsTicks flag ticks ↔ 10000 * ticks.toNat < 2 ^ 32) ∧
      (10000 * ticks.toNat < 2 ^ 32 → ∀ ticks' ≤ ticks, timerTicksToUs flag ticks' ≤ timerTicksToUs flag ticks)) := by
  constructor
  · intro us fits
    refine ⟨(and_iff_left (usToTimerTicksProducts_lt fits)).trans (usToTimerTicks_eq_iff fits), ?_⟩
    intro short us' le
    rw [UInt32.le_iff_toNat_le] at le ⊢
    have less : ticksOf flag us' ≤ ticksOf flag us := Nat.div_le_div_right (Nat.mul_le_mul_right _ le)
    rw [(usToTimerTicks_eq_iff fits).mpr short, (usToTimerTicks_eq_iff (Nat.lt_of_le_of_lt less fits)).mpr
      (short.imp_right (Nat.le_trans le))]
    exact less
  · intro ticks _
    refine ⟨⟨And.right, fun fits => ⟨(timerTicksToUs_eq_iff flag ticks).mpr fits, fits⟩⟩, ?_⟩
    intro fits ticks' le
    rw [UInt32.le_iff_toNat_le] at le ⊢
    rw [(timerTicksToUs_eq_iff flag ticks).mpr fits, (timerTicksToUs_eq_iff flag ticks').mpr (by omega)]
    exact Nat.div_le_div_right (Nat.mul_le_mul_right _ le)

theorem converts_not_all : ¬ ∀ flag, (∀ us, ticksOf flag us < 2 ^ 32 →
      ConvertsUs flag us ∧ ∀ us' ≤ us, usToTimerTicks flag us' ≤ usToTimerTicks flag us) ∧
    (∀ ticks, timeOf flag ticks < 2 ^ 32 →
      ConvertsTicks flag ticks ∧ ∀ ticks' ≤ ticks, timerTicksToUs flag ticks' ≤ timerTicksToUs flag ticks) := by
  intro all
  have wrong : (timerTicksToUs false 429497).toNat = timeOf false 429497 := ((all false).2 429497 (by decide)).1.1
  exact absurd wrong (by decide)

/-! ### The load register -/

namespace HardwareTimer

/-- The load register holds all the ticks of the interval: its 23 bits are a period of `us`, in cycles of the bus
clock. -/
def Fires (t : HardwareTimer) (us : UInt32) : Prop :=
  t.frc1Load.toNat = us.toNat * (apbClkFreq.toNat / 16) / 1000000 ∧ t.frc1Load.toNat < 2 ^ 23 ∧
    t.frc1Load.toNat % 2 ^ 23 * 16 = us.toNat * 80

lemma frc1Load_start {t : HardwareTimer} (accepted : Accepted us) (callback : t.callback)
    (repeating : Bool) : ((t.setIntervalUs flag us).start flag repeating).frc1Load = usToTimerTicks flag us := by
  have some : us ≠ 0 := by
    rintro rfl
    exact absurd accepted (by decide)
  have set : (t.setIntervalUs flag us).interval = us ∧ (t.setIntervalUs flag us).callback := by
    rw [setIntervalUs, if_pos accepted]
    dsimp only
    split
    · rw [restart, start]
      simp [stop, some, callback]
    · exact ⟨rfl, callback⟩
  rw [start]
  simp [stop, set.1, set.2, some]

/-- An interval is loaded rightly exactly if the conversions are for the faster clock and the ticks fit. -/
theorem fires_iff (flag : Bool) (t : HardwareTimer) (us : UInt32) (accepted : Accepted us) (callback : t.callback)
    (repeating : Bool) :
    ((t.setIntervalUs flag us).start flag repeating).Fires us ↔ flag = false ∧ us.toNat * 5 < 2 ^ 23 := by
  have small := UInt32.lt_iff_toNat_lt.mp accepted.1
  have long := UInt32.lt_iff_toNat_lt.mp accepted.2
  have clock : apbClkFreq.toNat / 16 = 5000000 := rfl
  simp only [UInt32.reduceToNat] at small long
  rw [Fires, frc1Load_start accepted callback, clock]
  cases flag with
  | false =>
    rw [usToTimerTicks_fast, Nat.mod_eq_of_lt (by omega)]
    simp only [true_and]
    omega
  | true =>
    rw [usToTimerTicks_slow]
    simp only [Bool.true_eq_false, false_and, iff_false]
    split <;> omega

theorem fires_iff_second : ((({ callback := true } : HardwareTimer).setIntervalUs false 1000000).start false true).Fires
    1000000 := (fires_iff false { callback := true } 1000000 (by decide) rfl true).mpr (by decide)

theorem fires_not_two_seconds : ¬ ∀ (flag : Bool) (t : HardwareTimer) (us : UInt32) (repeating : Bool), Accepted us →
    t.callback → ((t.setIntervalUs flag us).start flag repeating).Fires us := by
  intro all
  have fits := (all false { callback := true } 2000000 true (by decide) rfl).2.1
  exact absurd fits (by decide)

end HardwareTimer

end Sming

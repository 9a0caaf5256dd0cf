import Mathlib.Algebra.Group.Nat.Defs
import Mathlib.Data.List.Basic

/-!
# The real time clock

Embedding of `Sming/SmingCore/Platform/RTC.cpp`. The hardware counts cycles in 32 bits; `RtcClass` keeps the
time in nanoseconds in RTC memory, together with the count at which it was true, and brings it up to date in
every call. `RtcClass` here is the object together with what it works on: RTC memory, which returns
what was saved, and the cycles counted since the counter was last restarted, of which the code sees the low 32
bits. The calibration value is a parameter.

`Reference` is the clock this is meant to be: an exact time, as it was at the last call, and the cycles since.
-/

namespace Sming.Platform
open List

structure RtcData where
  time : UInt64
  magic : UInt32
  cycles : UInt32
  deriving Repr, DecidableEq

def rtcMagic : UInt32 := 0x55aaaa55

def nsPerSecond : Nat := 1000000000

/-- The object, the RTC memory at `RTC_DES_ADDR` and the cycles since the counter's restart. -/
structure RtcClass where
  hardwareReset : Bool := false
  memory : RtcData
  counted : Nat := 0
  deriving Repr, DecidableEq

namespace RtcClass

def loadTime (memory : RtcData) : RtcData :=
  if memory.magic ≠ rtcMagic then ⟨0, rtcMagic, 0⟩ else memory

/-- Both readings of the calibration value are parameters. -/
def updateTime (hardwareReset : Bool) (cal1 cal2 rtcCycles : UInt32) (data : RtcData) : RtcData :=
  let cal := (cal1 + cal2) / 2
  -- a watchdog reset restarts the counter at 0
  let delta := if hardwareReset then rtcCycles else rtcCycles - data.cycles
  { data with
    time := data.time + delta.toUInt64 * ((cal * 1000) >>> 12).toUInt64
    cycles := rtcCycles }

/-- The data after `loadTime` and `updateTime`. -/
def updated (cal : UInt32) (s : RtcClass) : RtcData :=
  updateTime s.hardwareReset cal cal (UInt32.ofNat s.counted) (loadTime s.memory)

/-- Everything that `updateTime` and `saveTime` leave behind. -/
def saveTime (s : RtcClass) (data : RtcData) : RtcClass :=
  { s with hardwareReset := false, memory := data }

def getRtcNanoseconds (cal : UInt32) (s : RtcClass) : UInt64 × RtcClass :=
  ((s.updated cal).time, s.saveTime (s.updated cal))

def getRtcSeconds (cal : UInt32) (s : RtcClass) : UInt32 × RtcClass :=
  (UInt32.ofNat ((s.getRtcNanoseconds cal).1.toNat / nsPerSecond), (s.getRtcNanoseconds cal).2)

def setRtcNanoseconds (cal : UInt32) (s : RtcClass) (nanoseconds : UInt64) : RtcClass :=
  s.saveTime { s.updated cal with time := nanoseconds }

def setRtcSeconds (cal : UInt32) (s : RtcClass) (seconds : UInt32) : RtcClass :=
  s.setRtcNanoseconds cal (seconds.toUInt64 * UInt64.ofNat nsPerSecond)

def elapse (s : RtcClass) (n : Nat) : RtcClass := { s with counted := s.counted + n }

/-- A reset by the hardware watchdog: the counter starts again at 0, RTC memory stays, and the object is
constructed with `REASON_WDT_RST`. -/
def watchdogReset (s : RtcClass) : RtcClass := { s with hardwareReset := true, counted := 0 }

end RtcClass

inductive RtcEvent where
  | elapse (n : Nat)
  | get
  | set (nanoseconds : UInt64)
  | watchdog
  deriving Repr, DecidableEq

namespace RtcClass

def step (cal : UInt32) (s : RtcClass) : RtcEvent → RtcClass
  | .elapse n => s.elapse n
  | .get => (s.getRtcNanoseconds cal).2
  | .set ns => s.setRtcNanoseconds cal ns
  | .watchdog => s.watchdogReset

def run (cal : UInt32) (s : RtcClass) (es : List RtcEvent) : RtcClass := es.foldl (step cal) s

/-- The time that a call of `getRtcNanoseconds` reports after the events. -/
def reading (cal : UInt32) (s : RtcClass) (es : List RtcEvent) : Nat :=
  ((s.run cal es).getRtcNanoseconds cal).1.toNat

end RtcClass

def nsPerCycle (cal : UInt32) : Nat := cal.toNat * 1000 % 2 ^ 32 / 2 ^ 12

def elapsed : List RtcEvent → Nat
  | [] => 0
  | .elapse n :: es => n + elapsed es
  | _ :: es => elapsed es

/-- The calls, the one after the last event included, are less than `2 ^ 32` cycles apart when the first call
comes `gap` cycles after the call before the schedule; a reset starts the count again. -/
def Close (gap : Nat) : List RtcEvent → Prop
  | [] => gap < 2 ^ 32
  | .elapse n :: es => Close (gap + n) es
  | .get :: es => gap < 2 ^ 32 ∧ Close 0 es
  | .set _ :: es => gap < 2 ^ 32 ∧ Close 0 es
  | .watchdog :: es => Close 0 es

/-- The clock that is meant: the exact time at the last call and the cycles since then. -/
structure Reference where
  saved : Nat
  idle : Nat := 0

namespace Reference

def time (k : Nat) (r : Reference) : Nat := r.saved + k * r.idle

def step (k : Nat) (r : Reference) : RtcEvent → Reference
  | .elapse n => { r with idle := r.idle + n }
  | .get => ⟨r.time k, 0⟩
  | .set ns => ⟨ns.toNat, 0⟩
  | .watchdog => ⟨r.saved, 0⟩

def run (k : Nat) (r : Reference) (es : List RtcEvent) : Reference := es.foldl (step k) r

end Reference

def RtcEvent.Quiet : RtcEvent → Prop
  | .elapse _ | .get => True
  | .set _ | .watchdog => False

def RtcEvent.Unset : RtcEvent → Prop
  | .set _ => False
  | _ => True

namespace Reference

variable {k : Nat} {r : Reference} {es : List RtcEvent}

@[simp] lemma time_zero (k v : Nat) : time k ⟨v, 0⟩ = v := rfl

lemma time_run (quiet : ∀ e ∈ es, e.Quiet) : (r.run k es).time k = r.time k + k * elapsed es := by
  induction es generalizing r with
  | nil => rfl
  | cons e es ih =>
    have rest := ih (r := r.step k e) fun e' mem => quiet e' (mem_cons_of_mem e mem)
    change ((r.step k e).run k es).time k = _
    rw [rest]
    cases e with
    | elapse n => simp only [step, time, elapsed, Nat.mul_add, Nat.add_assoc]
    | get => simp only [step, time, elapsed, Nat.mul_zero, Nat.add_zero]
    | set ns => exact (quiet _ mem_cons_self).elim
    | watchdog => exact (quiet _ mem_cons_self).elim

lemma saved_le_time_run (unset : ∀ e ∈ es, e.Unset) :
    r.saved ≤ (r.run k es).time k ∧ (r.run k es).time k ≤ r.time k + k * elapsed es := by
  induction es generalizing r with
  | nil => exact ⟨Nat.le_add_right _ _, Nat.le_add_right _ _⟩
  | cons e es ih =>
    obtain ⟨low, high⟩ := ih (r := r.step k e) fun e' mem => unset e' (mem_cons_of_mem e mem)
    change r.saved ≤ ((r.step k e).run k es).time k ∧ ((r.step k e).run k es).time k ≤ _
    cases e with
    | elapse n =>
      refine ⟨low, Nat.le_trans high (Nat.le_of_eq ?_)⟩
      simp only [step, time, elapsed, Nat.mul_add, Nat.add_assoc]
    | get =>
      refine ⟨Nat.le_trans (Nat.le_add_right _ _) low, Nat.le_trans high (Nat.le_of_eq ?_)⟩
      simp only [step, time, elapsed, Nat.mul_zero, Nat.add_zero]
    | set ns => exact (unset _ mem_cons_self).elim
    | watchdog =>
      refine ⟨low, Nat.le_trans high ?_⟩
      simp only [step, time, elapsed, Nat.mul_zero, Nat.add_zero]
      exact Nat.add_le_add_right (Nat.le_add_right _ _) _

end Reference

namespace RtcClass

variable {cal : UInt32} {s : RtcClass} {r : Reference}

lemma nsPerCycle_eq (cal : UInt32) : (((cal + cal) / 2 * 1000) >>> 12 : UInt32).toNat = nsPerCycle cal := by
  have shift : (((cal + cal) / 2 * 1000) >>> 12 : UInt32).toNat
      = (cal.toNat + cal.toNat) % 2 ^ 32 / 2 * 1000 % 2 ^ 32 / 2 ^ 12 := by
    simp [UInt32.toNat_shiftRight, UInt32.toNat_mul, UInt32.toNat_div, UInt32.toNat_add, Nat.shiftRight_eq_div_pow]
  have small := cal.toNat_lt
  have same : (cal.toNat + cal.toNat) % 2 ^ 32 / 2 * 1000 % 2 ^ 32 = cal.toNat * 1000 % 2 ^ 32 := by
    obtain low | high := Nat.lt_or_ge cal.toNat (2 ^ 31)
    · rw [Nat.mod_eq_of_lt (a := cal.toNat + cal.toNat) (by omega)]
      omega
    · obtain ⟨d, split⟩ := Nat.exists_eq_add_of_le high
      have half : (cal.toNat + cal.toNat) % 2 ^ 32 / 2 = d := by omega
      rw [half, split]
      omega
  rw [shift, same, nsPerCycle]

lemma toNat_updateTime (hardwareReset : Bool) (cal rtcCycles : UInt32) (data : RtcData) :
    (updateTime hardwareReset cal cal rtcCycles data).time.toNat = (data.time.toNat + nsPerCycle cal *
        (if hardwareReset then rtcCycles else rtcCycles - data.cycles).toNat) % 2 ^ 64 := by
  have bound : ∀ d : UInt32, d.toNat * nsPerCycle cal < 2 ^ 64 := by
    intro d
    have small : nsPerCycle cal ≤ 2 ^ 20 := by rw [nsPerCycle]; omega
    exact Nat.lt_of_le_of_lt (Nat.mul_le_mul (Nat.le_of_lt d.toNat_lt) small) (by decide)
  simp only [updateTime, UInt64.toNat_add, UInt64.toNat_mul, UInt32.toNat_toUInt64, nsPerCycle_eq]
  rw [Nat.mod_eq_of_lt (bound _), Nat.mul_comm]

/-- The clock keeps the reference's time: the memory holds it, and the counter says how long ago it was true. -/
structure Refines (s : RtcClass) (r : Reference) : Prop where
  magic : s.memory.magic = rtcMagic
  saved : s.memory.time.toNat = r.saved % 2 ^ 64
  idle : s.counted % 2 ^ 32 = ((if s.hardwareReset then 0 else s.memory.cycles.toNat) + r.idle) % 2 ^ 32

namespace Refines

lemma delta_eq (h : s.Refines r) (close : r.idle < 2 ^ 32) :
    (if s.hardwareReset then UInt32.ofNat s.counted
      else UInt32.ofNat s.counted - s.memory.cycles).toNat = r.idle := by
  have idle := h.idle
  have small := s.memory.cycles.toNat_lt
  cases reset : s.hardwareReset with
  | true =>
    simp only [reset, if_true, Nat.zero_add] at idle ⊢
    rw [UInt32.toNat_ofNat', idle, Nat.mod_eq_of_lt close]
  | false =>
    simp only [reset, Bool.false_eq_true, if_false] at idle ⊢
    rw [UInt32.toNat_sub, UInt32.toNat_ofNat']
    omega

lemma reading (h : s.Refines r) (close : r.idle < 2 ^ 32) :
    (s.getRtcNanoseconds cal).1.toNat = r.time (nsPerCycle cal) % 2 ^ 64 := by
  have loaded : loadTime s.memory = s.memory := if_neg (not_not.mpr h.magic)
  change (updateTime s.hardwareReset cal cal (UInt32.ofNat s.counted) (loadTime s.memory)).time.toNat = _
  rw [toNat_updateTime, loaded, h.delta_eq close, h.saved, Reference.time, Nat.mod_add_mod]

end Refines

lemma refines_saved (cal : UInt32) (s : RtcClass) {v : Nat} {time : UInt64} (same : time.toNat = v % 2 ^ 64) :
    (s.saveTime { s.updated cal with time := time }).Refines ⟨v, 0⟩ := by
  refine ⟨?_, same, ?_⟩
  · change (loadTime s.memory).magic = rtcMagic
    by_cases valid : s.memory.magic = rtcMagic
    · rwa [loadTime, if_neg (not_not.mpr valid)]
    · rw [loadTime, if_pos valid]
  · change s.counted % 2 ^ 32 = ((UInt32.ofNat s.counted).toNat + 0) % 2 ^ 32
    rw [UInt32.toNat_ofNat', Nat.add_zero, Nat.mod_mod]

lemma refines_get (cal : UInt32) (s : RtcClass) :
    (s.getRtcNanoseconds cal).2.Refines ⟨(s.getRtcNanoseconds cal).1.toNat, 0⟩ :=
  refines_saved cal s (Nat.mod_eq_of_lt (UInt64.toNat_lt _)).symm

lemma refines_set (cal : UInt32) (s : RtcClass) (ns : UInt64) : (s.setRtcNanoseconds cal ns).Refines ⟨ns.toNat, 0⟩ :=
  refines_saved cal s (Nat.mod_eq_of_lt ns.toNat_lt).symm

lemma refines_watchdog (valid : s.memory.magic = rtcMagic) : s.watchdogReset.Refines ⟨s.memory.time.toNat, 0⟩ :=
  ⟨valid, (Nat.mod_eq_of_lt (UInt64.toNat_lt _)).symm, rfl⟩

lemma refines_run {es : List RtcEvent} (h : s.Refines r) (close : Close r.idle es) :
    (s.run cal es).Refines (r.run (nsPerCycle cal) es) ∧ (r.run (nsPerCycle cal) es).idle < 2 ^ 32 := by
  induction es generalizing s r with
  | nil => exact ⟨h, close⟩
  | cons e es ih =>
    cases e with
    | elapse n =>
      refine ih (s := s.elapse n) (r := ⟨r.saved, r.idle + n⟩) ⟨h.magic, h.saved, ?_⟩ close
      change (s.counted + n) % 2 ^ 32 = (_ + (r.idle + n)) % 2 ^ 32
      rw [← Nat.add_assoc, Nat.add_mod, h.idle, ← Nat.add_mod]
      rfl
    | get =>
      refine ih (s := (s.getRtcNanoseconds cal).2) (r := ⟨r.time (nsPerCycle cal), 0⟩) ?_ close.2
      exact refines_saved cal s (h.reading close.1)
    | set ns =>
      exact ih (s := s.setRtcNanoseconds cal ns) (r := ⟨ns.toNat, 0⟩) (refines_set cal s ns) close.2
    | watchdog =>
      exact ih (s := s.watchdogReset) (r := ⟨r.saved, 0⟩) ⟨h.magic, h.saved, rfl⟩ close

/-- The schedule `es` ends in `rest` behind its last setting or watchdog reset; `base` is the time that was set or,
at the reset, the one saved last. -/
inductive Since (cal : UInt32) (s : RtcClass) : List RtcEvent → Nat → List RtcEvent → Prop where
  | set {before rest ns} :
    (∀ e ∈ rest, e.Quiet) →
    Since cal s (before ++ .set ns :: rest) ns.toNat rest
  | watchdog {before rest} :
    (s.run cal before).memory.magic = rtcMagic →
    (∀ e ∈ rest, e.Quiet) →
    Since cal s (before ++ .watchdog :: rest) (s.run cal before).memory.time.toNat rest

/-- Every reading is the time last set or saved and the cycles since then, as far as 64 bits go. -/
def Accurate (cal : UInt32) (s : RtcClass) : Prop :=
  ∀ es base rest, Since cal s es base rest → Close 0 rest →
    s.reading cal es = (base + nsPerCycle cal * elapsed rest) % 2 ^ 64

/-- A reading is followed by smaller ones only behind a new setting or when the time leaves 64 bits. -/
def Monotonic (cal : UInt32) (s : RtcClass) : Prop :=
  ∀ es rest, (∀ e ∈ rest, e.Unset) → Close 0 rest →
    s.reading cal es + nsPerCycle cal * elapsed rest < 2 ^ 64 →
    s.reading cal es ≤ s.reading cal (es ++ .get :: rest)

/-- A reading depends on the cycles that have passed and not on the readings in between. -/
def Unobserved (cal : UInt32) (s : RtcClass) : Prop :=
  ∀ es es' base rest rest', Since cal s es base rest → Since cal s es' base rest' → Close 0 rest → Close 0 rest' →
    elapsed rest = elapsed rest' → s.reading cal es = s.reading cal es'

lemma run_append (cal : UInt32) (s : RtcClass) (es es' : List RtcEvent) :
    s.run cal (es ++ es') = (s.run cal es).run cal es' := foldl_append

lemma reading_of_refines {es : List RtcEvent} (h : s.Refines r) (close : Close r.idle es) :
    s.reading cal es = (r.run (nsPerCycle cal) es).time (nsPerCycle cal) % 2 ^ 64 := by
  have refined : (s.run cal es).Refines (r.run (nsPerCycle cal) es) := (refines_run h close).1
  exact refined.reading (refines_run (s := s) h close).2

lemma accurate (cal : UInt32) (s : RtcClass) : s.Accurate cal := by
  have behind : ∀ {e rest base}, (∀ e' ∈ rest, RtcEvent.Quiet e') → Close 0 rest → ∀ t : RtcClass,
      (t.step cal e).Refines ⟨base, 0⟩ →
      t.reading cal (e :: rest) = (base + nsPerCycle cal * elapsed rest) % 2 ^ 64 := by
    intro e rest base quiet close t refines
    have read : t.reading cal (e :: rest) = (t.step cal e).reading cal rest := rfl
    rw [read, reading_of_refines refines close, Reference.time_run quiet, Reference.time_zero]
  intro es base rest since close
  cases since with
  | @set before _ ns quiet =>
    rw [reading, run_append]
    exact behind (e := .set ns) quiet close _ (refines_set cal _ ns)
  | @watchdog before _ valid quiet =>
    rw [reading, run_append]
    exact behind (e := .watchdog) quiet close _ (refines_watchdog valid)

lemma monotonic (cal : UInt32) (s : RtcClass) : s.Monotonic cal := by
  intro es rest unset close fits
  have saved := refines_get cal (s.run cal es)
  have later : s.reading cal (es ++ .get :: rest) =
      ((s.run cal es).getRtcNanoseconds cal).2.reading cal rest := by
    rw [reading, run_append]
    rfl
  obtain ⟨low, high⟩ := Reference.saved_le_time_run (k := nsPerCycle cal)
    (r := ⟨s.reading cal es, 0⟩) unset
  rw [later, reading_of_refines saved close]
  rw [Reference.time_zero] at high
  exact Nat.le_trans low (Nat.le_of_eq (Nat.mod_eq_of_lt (Nat.lt_of_le_of_lt high fits)).symm)

/-- Across all wraps of the counter and all watchdog resets the clock counts every cycle once. -/
theorem rtc_keeps_time (cal : UInt32) (s : RtcClass) : s.Accurate cal ∧ s.Monotonic cal ∧ s.Unobserved cal := by
  refine ⟨accurate cal s, monotonic cal s, ?_⟩
  intro es es' base rest rest' since since' close close' same
  rw [accurate cal s es base rest since close, accurate cal s es' base rest' since' close', same]

/-- A clock that is set, read and reset; the reading counts the cycles before the reading and those after the
reset. -/
theorem rtc_keeps_time_reset :
    (RtcClass.mk false ⟨0, 0, 0⟩ 0).reading 5 [.set 100, .elapse 30, .get, .elapse 4, .watchdog, .elapse 7] =
      137 := by
  have since : Since 5 ⟨false, ⟨0, 0, 0⟩, 0⟩ _ _ [.elapse 7] :=
    @Since.watchdog _ _ [.set 100, .elapse 30, .get, .elapse 4] _ (by decide +kernel) (by simp [RtcEvent.Quiet])
  have reads := (rtc_keeps_time 5 ⟨false, ⟨0, 0, 0⟩, 0⟩).1 _ _ _ since (by simp [Close])
  exact reads.trans (by decide +kernel)

/-- The time that is reported has 64 bits: one cycle after the greatest of them it is 0. -/
theorem rtc_wraps :
    ¬ ∀ (cal : UInt32) (s : RtcClass) (es : List RtcEvent) (base : Nat) (rest : List RtcEvent),
      Since cal s es base rest → Close 0 rest → s.reading cal es = base + nsPerCycle cal * elapsed rest := by
  intro all
  have since : Since 5 ⟨false, ⟨0, 0, 0⟩, 0⟩ _ _ [.elapse 1] :=
    @Since.set _ _ [] _ 0xffffffffffffffff (by simp [RtcEvent.Quiet])
  exact absurd (all _ _ _ _ _ since (by simp [Close])) (by decide +kernel)

end RtcClass

end Sming.Platform

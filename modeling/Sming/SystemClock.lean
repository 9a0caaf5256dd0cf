import Sming.Platform.RTC

/-!
# The system clock

Embedding of `Sming/SmingCore/SystemClock.cpp` over the real time clock. RTC holds local time: `setTime` adds the
offset of the time zone to a UTC time, and `now` takes the offset that is configured then away again.
-/

namespace Sming
open Platform List

inductive TimeZone where
  | utc
  | localTime
  deriving Repr, DecidableEq

inductive SystemClockStatus where
  | initial
  | set
  deriving Repr, DecidableEq

def secsPerHour : Nat := 3600

/-- The object and the real time clock it uses. `time_t` has 32 bits. -/
structure SystemClockClass where
  timeZoneOffsetSecs : Int32 := 0
  status : SystemClockStatus := .initial
  rtc : RtcClass
  deriving Repr, DecidableEq

namespace SystemClockClass

def now (cal : UInt32) (c : SystemClockClass) (timeType : TimeZone) : Int32 × SystemClockClass :=
  let (systemTime, rtc) := c.rtc.getRtcSeconds cal
  let systemTime := if timeType = .utc then systemTime - c.timeZoneOffsetSecs.toUInt32 else systemTime
  (systemTime.toInt32, { c with rtc })

/-- The write to RTC memory succeeds. -/
def setTime (cal : UInt32) (c : SystemClockClass) (time : Int32) (timeType : TimeZone) : SystemClockClass :=
  let time := if timeType = .utc then time + c.timeZoneOffsetSecs else time
  { c with rtc := c.rtc.setRtcSeconds cal time.toUInt32, status := .set }

def setTimeZoneOffset (c : SystemClockClass) (seconds : Int32) : SystemClockClass × Bool :=
  if seconds.toInt.natAbs < 12 * secsPerHour then ({ c with timeZoneOffsetSecs := seconds }, true) else (c, false)

end SystemClockClass

inductive SystemClockEvent where
  | elapse (cycles : Nat)
  | now (timeType : TimeZone)
  | setTime (time : Int32) (timeType : TimeZone)
  | setTimeZoneOffset (seconds : Int32)
  deriving Repr, DecidableEq

def SystemClockEvent.Unset : SystemClockEvent → Prop
  | .setTime _ _ => False
  | _ => True

def SystemClockEvent.rtc : SystemClockEvent → Option RtcEvent
  | .elapse n => some (.elapse n)
  | .now _ => some .get
  | _ => none

namespace SystemClockClass

def step (cal : UInt32) (c : SystemClockClass) : SystemClockEvent → SystemClockClass
  | .elapse n => { c with rtc := c.rtc.elapse n }
  | .now zone => (c.now cal zone).2
  | .setTime t zone => c.setTime cal t zone
  | .setTimeZoneOffset s => (c.setTimeZoneOffset s).1

def run (cal : UInt32) (c : SystemClockClass) (es : List SystemClockEvent) : SystemClockClass :=
  es.foldl (step cal) c

def shown (cal : UInt32) (c : SystemClockClass) (es : List SystemClockEvent) (zone : TimeZone) : UInt32 :=
  ((c.run cal es).now cal zone).1.toUInt32

/-- The UTC instant that `setTime time zone` stands for. -/
def instant (c : SystemClockClass) (time : Int32) : TimeZone → UInt32
  | .utc => time.toUInt32
  | .localTime => time.toUInt32 - c.timeZoneOffsetSecs.toUInt32

def seconds (cal : UInt32) (es : List SystemClockEvent) : Nat :=
  nsPerCycle cal * elapsed (es.filterMap SystemClockEvent.rtc) / nsPerSecond

/-- The real time clock keeps up with the schedule behind a setting to `base` seconds: it is called before its
counter wraps, and the nanoseconds fit. -/
structure Kept (cal : UInt32) (base : UInt32) (es : List SystemClockEvent) : Prop where
  close : Close 0 (es.filterMap SystemClockEvent.rtc)
  fits : base.toNat * nsPerSecond + nsPerCycle cal * elapsed (es.filterMap SystemClockEvent.rtc) < 2 ^ 64

variable {cal : UInt32} {c : SystemClockClass}

@[simp] lemma rtc_setTimeZoneOffset (c : SystemClockClass) (s : Int32) : (c.setTimeZoneOffset s).1.rtc = c.rtc := by
  rw [setTimeZoneOffset]
  split <;> rfl

variable {es : List SystemClockEvent}

lemma rtc_run (unset : ∀ e ∈ es, e.Unset) :
    (c.run cal es).rtc = c.rtc.run cal (es.filterMap SystemClockEvent.rtc) := by
  induction es generalizing c with
  | nil => rfl
  | cons e es ih =>
    have rest := ih (c := c.step cal e) fun e' mem => unset e' (mem_cons_of_mem e mem)
    change ((c.step cal e).run cal es).rtc = _
    rw [rest]
    cases e with
    | elapse n => rfl
    | now zone => rfl
    | setTime t zone => exact (unset _ mem_cons_self).elim
    | setTimeZoneOffset s =>
      change (c.setTimeZoneOffset s).1.rtc.run cal _ = _
      rw [rtc_setTimeZoneOffset]
      rfl

lemma shown_local (cal : UInt32) (c : SystemClockClass) (es : List SystemClockEvent) :
    c.shown cal es .localTime = c.shown cal es .utc + (c.run cal es).timeZoneOffsetSecs.toUInt32 := by
  change (((c.run cal es).rtc.getRtcSeconds cal).1) =
    ((c.run cal es).rtc.getRtcSeconds cal).1 - _ + (c.run cal es).timeZoneOffsetSecs.toUInt32
  rw [UInt32.sub_add_cancel]

lemma toNat_setRtcSeconds (s : UInt32) : (s.toUInt64 * UInt64.ofNat nsPerSecond).toNat = s.toNat * nsPerSecond := by
  have small : s.toNat * nsPerSecond < 2 ^ 64 :=
    Nat.lt_of_le_of_lt (Nat.mul_le_mul_right _ (Nat.le_of_lt s.toNat_lt)) (by decide)
  rw [UInt64.toNat_mul, UInt32.toNat_toUInt64]
  exact Nat.mod_eq_of_lt small

lemma getRtcSeconds_run {es : List RtcEvent} (rtc : RtcClass) (s : UInt32) (quiet : ∀ e ∈ es, e.Quiet)
    (close : Close 0 es) (fits : s.toNat * nsPerSecond + nsPerCycle cal * elapsed es < 2 ^ 64) :
    (((rtc.setRtcSeconds cal s).run cal es).getRtcSeconds cal).1 =
      s + UInt32.ofNat (nsPerCycle cal * elapsed es / nsPerSecond) := by
  have read : (rtc.setRtcSeconds cal s).reading cal es = _ :=
    RtcClass.reading_of_refines (RtcClass.refines_set cal rtc (s.toUInt64 * UInt64.ofNat nsPerSecond)) close
  rw [Reference.time_run quiet, Reference.time_zero, toNat_setRtcSeconds, Nat.mod_eq_of_lt fits] at read
  change UInt32.ofNat (((rtc.setRtcSeconds cal s).reading cal es) / nsPerSecond) = _
  rw [read, Nat.mul_comm s.toNat, Nat.mul_add_div (by decide), UInt32.ofNat_add, UInt32.ofNat_toNat]

/-- The schedule `es` ends in `rest` behind its last `setTime`; that set the clock to the UTC instant `moment` while
the offset was `offset`. -/
inductive Since (cal : UInt32) (c : SystemClockClass) :
    List SystemClockEvent → Int32 → UInt32 → List SystemClockEvent → Prop where
  | setTime {before time zone rest} :
    (∀ e ∈ rest, e.Unset) →
    Since cal c (before ++ .setTime time zone :: rest) (c.run cal before).timeZoneOffsetSecs
      ((c.run cal before).instant time zone) rest

lemma rtc_setTime (cal : UInt32) (c : SystemClockClass) (time : Int32) (zone : TimeZone) :
    (c.setTime cal time zone).rtc =
      c.rtc.setRtcSeconds cal (c.instant time zone + c.timeZoneOffsetSecs.toUInt32) := by
  cases zone with
  | utc => rfl
  | localTime =>
    change c.rtc.setRtcSeconds cal time.toUInt32 = c.rtc.setRtcSeconds cal (_ - _ + _)
    rw [UInt32.sub_add_cancel]

lemma quiet_rtc : ∀ e ∈ es.filterMap SystemClockEvent.rtc, e.Quiet := by
  intro e mem
  obtain ⟨e', -, same⟩ := mem_filterMap.mp mem
  cases e' with
  | elapse n => cases same; trivial
  | now zone => cases same; trivial
  | setTime t zone => cases same
  | setTimeZoneOffset s => cases same

lemma shown_local_eq {offset : Int32} {moment : UInt32} {rest : List SystemClockEvent}
    (since : Since cal c es offset moment rest) (kept : Kept cal (moment + offset.toUInt32) rest) :
    c.shown cal es .localTime = moment + offset.toUInt32 + UInt32.ofNat (seconds cal rest) := by
  cases since with
  | @setTime before time zone _ unset =>
    have split : c.run cal (before ++ .setTime time zone :: rest) =
        ((c.run cal before).setTime cal time zone).run cal rest := foldl_append
    change (((c.run cal (before ++ .setTime time zone :: rest)).rtc).getRtcSeconds cal).1 = _
    rw [split, rtc_run unset, rtc_setTime]
    exact getRtcSeconds_run _ _ quiet_rtc kept.close kept.fits

/-- UTC time is the instant that was set, the seconds since then and what the offset has become smaller since. -/
theorem shown_after_set {es : List SystemClockEvent} {offset : Int32} {moment : UInt32} {rest : List SystemClockEvent}
    (since : Since cal c es offset moment rest) (kept : Kept cal (moment + offset.toUInt32) rest) :
    c.shown cal es .utc = moment + UInt32.ofNat (seconds cal rest) +
        (offset.toUInt32 - (c.run cal es).timeZoneOffsetSecs.toUInt32) ∧
      c.shown cal es .localTime = c.shown cal es .utc + (c.run cal es).timeZoneOffsetSecs.toUInt32 ∧
      (c.shown cal es .utc = moment + UInt32.ofNat (seconds cal rest) ↔
        (c.run cal es).timeZoneOffsetSecs = offset) := by
  have islocal := shown_local cal c es
  have utc : c.shown cal es .utc = moment + UInt32.ofNat (seconds cal rest) +
      (offset.toUInt32 - (c.run cal es).timeZoneOffsetSecs.toUInt32) := by
    rw [shown_local_eq since kept] at islocal
    grind
  refine ⟨utc, islocal, ?_⟩
  rw [utc]
  constructor
  · intro same
    have equal : offset.toUInt32 = (c.run cal es).timeZoneOffsetSecs.toUInt32 := by grind
    have back := congrArg UInt32.toInt32 equal
    rw [Int32.toInt32_toUInt32, Int32.toInt32_toUInt32] at back
    exact back.symm
  · intro same
    rw [same]
    grind

theorem shown_after_set_zone :
    (SystemClockClass.mk 0 .initial ⟨false, ⟨0, 0, 0⟩, 0⟩).shown 5
        [.setTime 1000 .utc, .setTimeZoneOffset 3600, .elapse 2000000000] .utc = 1002 - 3600 := by
  have since : Since 5 ⟨0, .initial, ⟨false, ⟨0, 0, 0⟩, 0⟩⟩
      [.setTime 1000 .utc, .setTimeZoneOffset 3600, .elapse 2000000000] 0 1000
      [.setTimeZoneOffset 3600, .elapse 2000000000] :=
    @Since.setTime _ _ [] 1000 .utc _ (by simp [SystemClockEvent.Unset])
  have kept : Kept 5 (1000 + Int32.toUInt32 0) [.setTimeZoneOffset 3600, .elapse 2000000000] := by
    refine ⟨?_, by decide +kernel⟩
    change 0 + 2000000000 < 2 ^ 32
    decide
  exact (shown_after_set since kept).1.trans (by decide +kernel)

/-- A change of the time zone changes UTC time, and time that nobody asks for in `2 ^ 32` cycles is lost. -/
theorem shown_not_kept :
    (¬ ∀ (cal : UInt32) (c : SystemClockClass) (es : List SystemClockEvent) (offset : Int32) (moment : UInt32)
        (rest : List SystemClockEvent), Since cal c es offset moment rest → Kept cal (moment + offset.toUInt32) rest →
        c.shown cal es .utc = moment + UInt32.ofNat (seconds cal rest)) ∧
      ¬ ∀ (cal : UInt32) (c : SystemClockClass) (es : List SystemClockEvent) (offset : Int32) (moment : UInt32)
        (rest : List SystemClockEvent), Since cal c es offset moment rest →
        (∀ e ∈ rest, e = .now .utc ∨ ∃ n, e = .elapse n) →
        c.shown cal es .utc = moment + UInt32.ofNat (seconds cal rest) := by
  constructor
  · intro all
    have since : Since 5 ⟨0, .initial, ⟨false, ⟨0, 0, 0⟩, 0⟩⟩ [.setTime 1000 .utc, .setTimeZoneOffset 3600] 0 1000
        [.setTimeZoneOffset 3600] := @Since.setTime _ _ [] 1000 .utc _ (by simp [SystemClockEvent.Unset])
    have kept : Kept 5 (1000 + Int32.toUInt32 0) [.setTimeZoneOffset 3600] := by
      refine ⟨?_, by decide +kernel⟩
      change 0 < 2 ^ 32
      decide
    exact absurd (all _ _ _ _ _ _ since kept) (by decide +kernel)
  · intro all
    have since : Since 5 ⟨0, .initial, ⟨false, ⟨0, 0, 0⟩, 0⟩⟩ [.setTime 1000 .utc, .elapse 4294967296] 0 1000
        [.elapse 4294967296] := @Since.setTime _ _ [] 1000 .utc _ (by simp [SystemClockEvent.Unset])
    exact absurd (all _ _ _ _ _ _ since (by simp)) (by decide +kernel)

end SystemClockClass

end Sming

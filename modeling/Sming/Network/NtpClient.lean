import Sming.SystemClock
import Sming.Timer

/-!
# The NTP client

Embedding of the receiving side of `Sming/SmingCore/Network/NtpClient.cpp`. The time stamp is copied into a variable
without an initial value, and `pbuf_copy_partial` copies what there is: `garbage` is what the variable held before.
The completion delegate is application code that may change the client's settings; it is a parameter.
-/

namespace Sming.Network

structure NtpClient where
  /-- Is there a completion delegate? -/
  delegateCompleted : Bool := false
  autoUpdateSystemClock : Bool := false
  autoQueryEnabled : Bool := false
  autoQuerySeconds : UInt32 := 30
  timer : Timer := {}
  deriving Repr, DecidableEq

/-- What a datagram leads to: the client, the system clock and the time that the delegate is called with. -/
structure NtpReceived where
  client : NtpClient
  clock : SystemClockClass
  completed : Option Int32
  deriving Repr, DecidableEq

namespace NtpClient

def ntpVersion : UInt8 := 4

def ntpModeServer : UInt8 := 4

def ntpResponseTimeoutMs : UInt32 := 20000

def startTimer (c : NtpClient) (milliseconds : UInt32) : NtpClient :=
  { c with timer := (c.timer.setIntervalMs milliseconds).startOnce }

def stopTimer (c : NtpClient) : NtpClient := { c with timer := c.timer.stop }

def setAutoQuery (c : NtpClient) (autoQuery : Bool) : NtpClient :=
  let c := { c with autoQueryEnabled := autoQuery }
  if c.autoQueryEnabled then c.startTimer (c.autoQuerySeconds * 1000) else c.stopTimer

/-- The byte at an offset, 0 behind the end. -/
def pbufGetAt (buf : List UInt8) (offset : Nat) : UInt8 := buf.getD offset 0

def bigEndian (a b c d : UInt8) : UInt32 :=
  a.toUInt32 <<< 24 ||| b.toUInt32 <<< 16 ||| c.toUInt32 <<< 8 ||| d.toUInt32

/-- The bytes of the variable `timestamp` after `pbuf_copy_partial`, read by `ntohl`. -/
def timestamp (garbage : Nat → UInt8) (buf : List UInt8) : UInt32 :=
  let byte i := (buf.drop 40).getD i (garbage i)
  bigEndian (byte 0) (byte 1) (byte 2) (byte 3)

def onReceive (cal : UInt32) (delegate : NtpClient → Int32 → NtpClient) (garbage : Nat → UInt8) (c : NtpClient)
    (clock : SystemClockClass) (buf : List UInt8) : NtpReceived :=
  let c := c.stopTimer
  let versionMode := pbufGetAt buf 0
  let ver := (versionMode &&& 0b00111000) >>> 3
  let mode := versionMode &&& 0x07
  if mode = ntpModeServer ∧ (ver = ntpVersion ∨ ver = ntpVersion - 1) then
    let epoch := (timestamp garbage buf - 0x83AA7E80).toInt32
    let clock := if c.autoUpdateSystemClock then clock.setTime cal epoch .utc else clock
    if c.delegateCompleted then
      let c := delegate c epoch
      ⟨c.setAutoQuery c.autoQueryEnabled, clock, some epoch⟩
    else ⟨c.setAutoQuery c.autoQueryEnabled, clock, none⟩
  else ⟨c.startTimer ntpResponseTimeoutMs, clock, none⟩

def ServerHeader (buf : List UInt8) : Prop :=
  ∃ first rest, buf = first :: rest ∧ first &&& 0x07 = 4 ∧ ((first &&& 0x38) >>> 3 = 4 ∨ (first &&& 0x38) >>> 3 = 3)

def transmitTimestamp (buf : List UInt8) : Option UInt32 :=
  match buf.drop 40 with
  | a :: b :: c :: d :: _ => some (bigEndian a b c d)
  | _ => none

def Tells (buf : List UInt8) (epoch : Int32) : Prop :=
  ServerHeader buf ∧ ∃ t, transmitTimestamp buf = some t ∧ epoch = (t - 0x83AA7E80).toInt32

/-- Only the time that a server tells reaches clock and delegate; without one the clock stays and a timer runs; what
was in memory before does not matter. -/
structure Faithful (delegate : NtpClient → Int32 → NtpClient) (c : NtpClient) (buf : List UInt8) : Prop where
  clock : ∀ cal garbage clock, (c.onReceive cal delegate garbage clock buf).clock = clock ∨
    ∃ epoch, Tells buf epoch ∧ (c.onReceive cal delegate garbage clock buf).clock = clock.setTime cal epoch .utc
  completed : ∀ cal garbage clock epoch,
    (c.onReceive cal delegate garbage clock buf).completed = some epoch → Tells buf epoch
  ignored : (∀ epoch, ¬ Tells buf epoch) → ∀ cal garbage clock,
    (c.onReceive cal delegate garbage clock buf).clock = clock ∧
      (c.onReceive cal delegate garbage clock buf).client.timer.Running
  same : ∀ cal garbage garbage' clock,
    c.onReceive cal delegate garbage clock buf = c.onReceive cal delegate garbage' clock buf

/-- A datagram that begins like an answer contains the time stamp, or nobody wants it and the next query is due
some time. -/
def Guarded (c : NtpClient) (buf : List UInt8) : Prop :=
  ServerHeader buf → 44 ≤ buf.length ∨
    c.autoUpdateSystemClock = false ∧ c.delegateCompleted = false ∧ c.autoQueryEnabled = true ∧
      c.autoQuerySeconds * 1000 ≠ 0

variable {cal : UInt32} {delegate : NtpClient → Int32 → NtpClient} {garbage : Nat → UInt8} {c : NtpClient}
  {clock : SystemClockClass} {buf : List UInt8}

lemma header_iff (buf : List UInt8) :
    (pbufGetAt buf 0 &&& 0x07 = ntpModeServer ∧ ((pbufGetAt buf 0 &&& 0b00111000) >>> 3 = ntpVersion ∨
        (pbufGetAt buf 0 &&& 0b00111000) >>> 3 = ntpVersion - 1)) ↔ ServerHeader buf := by
  cases buf with
  | nil =>
    constructor
    · intro h
      exact absurd h.1 (by decide)
    · rintro ⟨_, _, e, _⟩
      cases e
  | cons first rest =>
    constructor
    · rintro ⟨mode, version⟩
      exact ⟨first, rest, rfl, mode, version⟩
    · rintro ⟨_, _, e, mode, version⟩
      cases e
      exact ⟨mode, version⟩

lemma onReceive_other (h : ¬ ServerHeader buf) :
    c.onReceive cal delegate garbage clock buf = ⟨c.stopTimer.startTimer ntpResponseTimeoutMs, clock, none⟩ :=
  if_neg (mt (header_iff buf).mp h)

def taken (garbage : Nat → UInt8) (buf : List UInt8) : Int32 := (timestamp garbage buf - 0x83AA7E80).toInt32

lemma onReceive_answer (h : ServerHeader buf) :
    c.onReceive cal delegate garbage clock buf =
      if c.delegateCompleted then
        ⟨(delegate c.stopTimer (taken garbage buf)).setAutoQuery
            (delegate c.stopTimer (taken garbage buf)).autoQueryEnabled,
          if c.autoUpdateSystemClock then clock.setTime cal (taken garbage buf) .utc else clock,
          some (taken garbage buf)⟩
      else
        ⟨c.stopTimer.setAutoQuery c.autoQueryEnabled,
          if c.autoUpdateSystemClock then clock.setTime cal (taken garbage buf) .utc else clock, none⟩ :=
  if_pos ((header_iff buf).mpr h)

lemma clock_onReceive (h : ServerHeader buf) :
    (c.onReceive cal delegate garbage clock buf).clock =
      if c.autoUpdateSystemClock then clock.setTime cal (taken garbage buf) .utc else clock := by
  rw [onReceive_answer h]
  cases c.delegateCompleted <;> rfl

lemma completed_onReceive (h : ServerHeader buf) :
    (c.onReceive cal delegate garbage clock buf).completed =
      if c.delegateCompleted then some (taken garbage buf) else none := by
  rw [onReceive_answer h]
  cases c.delegateCompleted <;> rfl

lemma taken_of_long (long : 44 ≤ buf.length) :
    ∃ t, transmitTimestamp buf = some t ∧ ∀ garbage, taken garbage buf = (t - 0x83AA7E80).toInt32 := by
  have four : 4 ≤ (buf.drop 40).length := by
    rw [List.length_drop]
    omega
  have field : ∀ l : List UInt8, 4 ≤ l.length → ∃ a b c d rest, l = a :: b :: c :: d :: rest := by
    rintro (_ | ⟨a, _ | ⟨b, _ | ⟨c, _ | ⟨d, rest⟩⟩⟩⟩) len
    case cons.cons.cons.cons => exact ⟨a, b, c, d, rest, rfl⟩
    all_goals exact absurd len (by simp)
  obtain ⟨a, b, c, d, rest, stamp⟩ := field _ four
  refine ⟨bigEndian a b c d, by rw [transmitTimestamp, stamp], fun garbage => ?_⟩
  rw [taken, timestamp, stamp]
  rfl

lemma transmitTimestamp_short (short : buf.length < 44) : transmitTimestamp buf = none := by
  rw [transmitTimestamp]
  split
  next a b c d rest stamp =>
    have len := congrArg List.length stamp
    simp only [List.length_drop, List.length_cons] at len
    omega
  next => rfl

lemma not_tells_of_short (short : buf.length < 44) (epoch : Int32) : ¬ Tells buf epoch := by
  rintro ⟨-, t, told, -⟩
  rw [transmitTimestamp_short short] at told
  cases told

lemma running_startTimer (c : NtpClient) (ms : UInt32) : (c.stopTimer.startTimer ms).timer.Running ↔ ms ≠ 0 :=
  Timer.running_startOnce (Timer.started_stop c.timer) ms

lemma running_setAutoQuery (c : NtpClient) (autoQuery : Bool) :
    (c.stopTimer.setAutoQuery autoQuery).timer.Running ↔ autoQuery = true ∧ c.autoQuerySeconds * 1000 ≠ 0 := by
  cases autoQuery with
  | false =>
    change c.timer.stop.stop.Running ↔ _
    simp [Timer.Running]
  | true =>
    rw [eq_self, true_and]
    exact running_startTimer { c with autoQueryEnabled := true } (c.autoQuerySeconds * 1000)

lemma faithful_other (h : ¬ ServerHeader buf) : Faithful delegate c buf where
  clock _ _ _ := .inl (by rw [onReceive_other h])
  completed _ _ _ _ e := by
    rw [onReceive_other h] at e
    cases e
  ignored _ _ _ _ := by
    rw [onReceive_other h]
    exact ⟨rfl, (running_startTimer c _).mpr (by decide)⟩
  same _ _ _ _ := by rw [onReceive_other h, onReceive_other h]

lemma faithful_long (h : ServerHeader buf) (long : 44 ≤ buf.length) : Faithful delegate c buf := by
  obtain ⟨t, told, all⟩ := taken_of_long long
  have tells : ∀ garbage, Tells buf (taken garbage buf) := fun garbage => ⟨h, t, told, all garbage⟩
  constructor
  case clock =>
    intro cal garbage clock
    rw [clock_onReceive h]
    cases c.autoUpdateSystemClock with
    | false => exact .inl rfl
    | true => exact .inr ⟨_, tells garbage, rfl⟩
  case completed =>
    intro cal garbage clock epoch e
    rw [completed_onReceive h] at e
    cases given : c.delegateCompleted with
    | false => rw [given] at e; cases e
    | true =>
      rw [given] at e
      cases e
      exact tells garbage
  case ignored =>
    intro none
    exact absurd (tells fun _ => 0) (none _)
  case same =>
    intro cal garbage garbage' clock
    rw [onReceive_answer h, onReceive_answer h, all garbage, all garbage']

lemma faithful_unused (h : ServerHeader buf) (update : c.autoUpdateSystemClock = false)
    (given : c.delegateCompleted = false) (query : c.autoQueryEnabled = true)
    (interval : c.autoQuerySeconds * 1000 ≠ 0) : Faithful delegate c buf := by
  have received : ∀ cal garbage clock, c.onReceive cal delegate garbage clock buf =
      ⟨c.stopTimer.setAutoQuery c.autoQueryEnabled, clock, none⟩ := by
    intro cal garbage clock
    rw [onReceive_answer h, given, update]
    rfl
  constructor
  case clock => exact fun cal garbage clock => .inl (by rw [received])
  case completed =>
    intro cal garbage clock epoch e
    rw [received] at e
    cases e
  case ignored =>
    intro _ cal garbage clock
    rw [received]
    exact ⟨rfl, (running_setAutoQuery c _).mpr ⟨query, interval⟩⟩
  case same => exact fun cal garbage garbage' clock => by rw [received, received]

def unsetClock : SystemClockClass := { rtc := { memory := ⟨0, 0, 0⟩ } }

lemma setTime_unsetClock (cal : UInt32) (epoch : Int32) : unsetClock.setTime cal epoch .utc ≠ unsetClock := by
  intro same
  have status : SystemClockStatus.set = .initial := congrArg SystemClockClass.status same
  cases status

/-- Clock and delegate get the time that a server told, and nothing else, exactly for datagrams that contain it. -/
theorem ntp_faithful_iff (delegate : NtpClient → Int32 → NtpClient) (c : NtpClient) (buf : List UInt8) :
    Faithful delegate c buf ↔ Guarded c buf := by
  constructor
  · intro faithful header
    obtain short | long := Nat.lt_or_ge buf.length 44
    · right
      have ignored := faithful.ignored (not_tells_of_short short) 0 (fun _ => 0) unsetClock
      have update : c.autoUpdateSystemClock = false := by
        cases update : c.autoUpdateSystemClock with
        | false => rfl
        | true =>
          have kept := ignored.1
          rw [clock_onReceive header, update] at kept
          exact absurd kept (setTime_unsetClock _ _)
      have given : c.delegateCompleted = false := by
        cases given : c.delegateCompleted with
        | false => rfl
        | true =>
          have told := faithful.completed 0 (fun _ => 0) unsetClock (taken (fun _ => 0) buf)
            (by rw [completed_onReceive header, given]; rfl)
          exact absurd told (not_tells_of_short short _)
      have running := ignored.2
      rw [onReceive_answer header, given] at running
      exact ⟨update, given, (running_setAutoQuery c _).mp running⟩
    · exact .inl long
  · intro guarded
    by_cases header : ServerHeader buf
    · obtain long | ⟨update, given, query, interval⟩ := guarded header
      · exact faithful_long header long
      · exact faithful_unused header update given query interval
    · exact faithful_other header

/-- One byte is enough to set the clock: to whatever was in memory. -/
theorem ntp_takes_garbage :
    ¬ ∀ (delegate : NtpClient → Int32 → NtpClient) (c : NtpClient) (buf : List UInt8), Faithful delegate c buf := by
  intro all
  have kept := ((all (fun c _ => c) { autoUpdateSystemClock := true } [0x24]).ignored
    (not_tells_of_short (by decide)) 0 (fun _ => 0) unsetClock).1
  exact absurd (congrArg SystemClockClass.status kept) (by decide +kernel)

end NtpClient

end Sming.Network

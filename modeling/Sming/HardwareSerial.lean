import Sming.Services.CommandExecutor
import Sming.System.UartReceive

/-!
# Command processing on the serial port

Model of the callback path of `SmingCore/HardwareSerial.cpp`. When the interrupt handler calls back with received
bytes, one callback is put in the task queue of the system, with the last character of the receive buffer. The task
calls the application's delegate and passes the character to the command executor.

`HardwareSerial` is the port with its tasks (`UartSystem`), the task queue, which others share and which drops a
callback when full, and the executor. A task has two halves, since the delegate may read the port, and be interrupted,
before the executor gets the character.
-/

namespace Sming
open Sming.Lib Sming.System Sming.Services List Option

def taskQueueLength : Nat := 10

/-- What is queued: the two callbacks of the port, or one of another part of the system. -/
inductive TaskCallback where
  | transmitComplete
  | serial (charCount : UInt16) (receivedChar : UInt8)
  | other
  deriving DecidableEq, Repr

def TaskCallback.chars : TaskCallback → List UInt8
  | .serial _ receivedChar => [receivedChar]
  | _ => []

structure HardwareSerial (φ : Type) where
  port : UartSystem
  /-- A delegate for the end of transmission is set. -/
  transmitComplete : Bool := false
  /-- A delegate for received characters is set. -/
  hwsDelegate : Bool := false
  commandExecutor : Option (CommandExecutor φ)
  taskQueue : List TaskCallback := []
  /-- The task that runs. -/
  running : Option TaskCallback := none
  /-- The calls of the delegate for received characters. -/
  delegated : List (UInt8 × UInt16) := []
  /-- The characters that the executor has received. -/
  received : List UInt8 := []
  deriving DecidableEq

inductive HardwareSerialEvent where
  | port (e : UartEvent)
  /-- Another part of the system queues a callback. -/
  | queue
  /-- The system takes the next callback from the queue. -/
  | task
  /-- The delegate has returned and the callback ends. -/
  | finish
  deriving DecidableEq, Repr

namespace HardwareSerial

variable {φ : Type} (s : HardwareSerial φ)

def queueCallback (callback : TaskCallback) : HardwareSerial φ :=
  if s.taskQueue.length < taskQueueLength then { s with taskQueue := s.taskQueue ++ [callback] } else s

/-- The first part of `callbackHandler`. -/
def announceSent (status : UInt32) : HardwareSerial φ :=
  if status &&& uife ≠ 0 ∧ s.transmitComplete then s.queueCallback .transmitComplete else s

def callbackHandler (status : UInt32) : HardwareSerial φ :=
  let s := s.announceSent status
  if status &&& rxSources = 0 then s
  else if s.hwsDelegate || s.commandExecutor.isSome then
    s.queueCallback (.serial (.ofNat s.port.uart.rxAvailable) (s.port.uart.peekLastChar.getD 0xFF))
  else s

def afterPort (port : UartSystem) : UartEvent → HardwareSerial φ
  | .interrupt usis =>
    let status := (s.port.uart.handleUartInterrupt usis).2
    if status ≠ 0 then { s with port := port }.callbackHandler status else { s with port := port }
  | _ => { s with port := port }

def startTask : Option (HardwareSerial φ) :=
  match s.taskQueue with
  | [] => none
  | .serial charCount receivedChar :: rest =>
    some { s with
      taskQueue := rest
      running := some (.serial charCount receivedChar)
      delegated := if s.hwsDelegate then s.delegated ++ [(receivedChar, charCount)] else s.delegated }
  | callback :: rest => some { s with taskQueue := rest, running := some callback }

def finishTask (call : CommandCall φ) (s : HardwareSerial φ) : Option (HardwareSerial φ) :=
  match s.running, s.commandExecutor with
  | none, _ => none
  | some (.serial _ receivedChar), some executor =>
    (executor.executorReceive call receivedChar).map fun r =>
      { s with running := none, commandExecutor := some r.1, received := s.received ++ [receivedChar] }
  | some _, _ => some { s with running := none }

/-- One step. A task runs while no call of `uart_read` or `uart_write` is under way; it may make such calls itself
before it ends. -/
def step (call : CommandCall φ) (s : HardwareSerial φ) : HardwareSerialEvent → Option (HardwareSerial φ)
  | .port e => (s.port.step e).map fun port => s.afterPort port e
  | .queue => some (s.queueCallback .other)
  | .task => if s.port.task = .idle ∧ s.running = none then s.startTask else none
  | .finish => if s.port.task = .idle then s.finishTask call else none

/-! ### The characters on their way -/

def inFlight : List UInt8 := (s.running.toList ++ s.taskQueue).flatMap TaskCallback.chars

/-- Every character that arrived was received by the executor, is on its way to it or is in the FIFO, in this
order. -/
def Relayed : Prop := s.received ++ s.inFlight ++ s.port.uart.rxFifo = s.port.arrived

instance (s : HardwareSerial φ) : Decidable s.Relayed := inferInstanceAs (Decidable (_ = _))

/-- There is room in the queue for a received character. The end of transmission is announced first. -/
def hasRoom (usis : UInt32) : Bool :=
  s.taskQueue.length + (if s.transmitComplete && s.port.uart.drained usis then 1 else 0) < taskQueueLength

/-- An interrupt for received bytes finds one byte to move while there is room in the queue, and none when there is
not. -/
def paired : UartEvent → Bool
  | .interrupt usis => !s.port.uart.serves usis || s.port.uart.received == if s.hasRoom usis then 1 else 0
  | _ => true

/-- The condition on a step: it moves a byte for each callback that it queues, and `uart_read` takes no byte from the
FIFO. -/
def OneByOne : HardwareSerialEvent → Prop
  | .port e => s.paired e = true ∧ s.port.takesFromFifo e = false
  | _ => True

instance (s : HardwareSerial φ) : (e : HardwareSerialEvent) → Decidable (s.OneByOne e)
  | .port e => inferInstanceAs (Decidable (s.paired e = true ∧ s.port.takesFromFifo e = false))
  | .queue | .task | .finish => .isTrue trivial

def Delivered : Prop := s.inFlight = [] ∧ s.port.uart.rxFifo = []

variable {call : CommandCall φ} {s t : HardwareSerial φ}

/-! ### What a step does to the characters -/

lemma queueCallback_eq (s : HardwareSerial φ) (callback : TaskCallback) : s.queueCallback callback =
    { s with taskQueue := s.taskQueue ++ if s.taskQueue.length < taskQueueLength then [callback] else [] } := by
  rw [queueCallback]
  split
  · rfl
  · rw [append_nil]

/-- The end of transmission takes a place in the queue, but is no character. -/
lemma announceSent_spec (s : HardwareSerial φ) (status : UInt32) :
    ∃ q, s.announceSent status = { s with taskQueue := s.taskQueue ++ q } ∧ q.flatMap TaskCallback.chars = [] ∧
      ((s.taskQueue ++ q).length < taskQueueLength ↔
        s.taskQueue.length + (if status &&& uife ≠ 0 ∧ s.transmitComplete then 1 else 0) < taskQueueLength) := by
  rw [announceSent]
  split
  case isTrue announce =>
    refine ⟨_, queueCallback_eq s _, ?_⟩
    split
    case isTrue => exact ⟨rfl, by rw [List.length_append, List.length_singleton]⟩
    case isFalse full =>
      refine ⟨rfl, ?_⟩
      rw [append_nil]
      omega
  case isFalse => exact ⟨[], by rw [append_nil], rfl, by rw [append_nil, Nat.add_zero]⟩

lemma callbackHandler_spec (enabled : s.commandExecutor.isSome) (status : UInt32) :
    ∃ q, s.callbackHandler status = { s with taskQueue := s.taskQueue ++ q } ∧ q.flatMap TaskCallback.chars =
      if status &&& rxSources ≠ 0 ∧ s.taskQueue.length +
          (if status &&& uife ≠ 0 ∧ s.transmitComplete then 1 else 0) < taskQueueLength
        then [s.port.uart.peekLastChar.getD 0xFF] else [] := by
  obtain ⟨q, announced, none, room⟩ := s.announceSent_spec status
  simp only [callbackHandler, announced]
  by_cases rx : status &&& rxSources = 0
  · rw [if_pos rx, if_neg (fun h => h.1 rx)]
    exact ⟨q, rfl, none⟩
  · rw [if_neg rx, enabled, Bool.or_true, if_pos rfl, queueCallback_eq]
    refine ⟨q ++ _, by rw [List.append_assoc], ?_⟩
    rw [flatMap_append, none, nil_append]
    by_cases free : (s.taskQueue ++ q).length < taskQueueLength
    · rw [if_pos free, if_pos ⟨rx, room.mp free⟩]
      rfl
    · rw [if_neg free, if_neg fun h => free (room.mpr h.2)]
      rfl

lemma peekLastChar_eq {u : Uart} (sound : u.Sound) : u.peekLastChar = u.rxContent.getLast? := by
  rw [Uart.peekLastChar, Uart.rxContent]
  cases hb : u.rxBuffer with
  | none => rfl
  | some b => exact (sound.rx b hb).peekLastChar_eq

lemma received_le (u : Uart) : u.received ≤ u.rxFifo.length := by
  rw [Uart.received]
  cases u.rxBuffer with
  | none => exact Nat.zero_le _
  | some b => exact (Nat.min_le_right _ _).trans Nat.and_le_left

lemma afterPort_interrupt (sound : s.port.uart.Sound) (enabled : s.commandExecutor.isSome) (usis : UInt32)
    (port : UartSystem) :
    ∃ q, s.afterPort port (.interrupt usis) = { s with port := port, taskQueue := s.taskQueue ++ q } ∧
      q.flatMap TaskCallback.chars = if s.port.uart.serves usis = true ∧ s.hasRoom usis = true
        then [port.uart.peekLastChar.getD 0xFF] else [] := by
  obtain ⟨rx, tx⟩ := Uart.handleUartInterrupt_status sound usis
  obtain ⟨q, queued, chars⟩ := @callbackHandler_spec φ { s with port := port } enabled
    (s.port.uart.handleUartInterrupt usis).2
  simp only [afterPort]
  by_cases none : (s.port.uart.handleUartInterrupt usis).2 = 0
  · have idle : ¬ s.port.uart.serves usis = true := by
      rw [← rx, none]
      exact not_not.mpr UInt32.zero_and
    rw [if_neg (not_not.mpr none), if_neg fun h => idle h.1]
    exact ⟨[], by rw [append_nil], rfl⟩
  · rw [if_pos none]
    refine ⟨q, queued, chars.trans ?_⟩
    simp only [rx, tx, hasRoom, decide_eq_true_eq, Bool.and_eq_true, and_comm]

/-! ### What a step keeps -/

lemma inFlight_queued (s : HardwareSerial φ) (port : UartSystem) (q : List TaskCallback) :
    inFlight { s with port := port, taskQueue := s.taskQueue ++ q } = s.inFlight ++ q.flatMap TaskCallback.chars := by
  rw [inFlight, inFlight, ← List.append_assoc, flatMap_append]

lemma queued_eq_moved_iff {u v : Uart} {moved transmitted : List UInt8} (sound : v.Sound)
    (handled : Uart.Handled u v moved transmitted) (room : Bool) :
    (if room then [v.peekLastChar.getD 0xFF] else []) = moved ↔ moved.length = if room then 1 else 0 := by
  cases room with
  | false => exact eq_comm.trans List.length_eq_zero_iff.symm
  | true =>
    refine ⟨fun h => (congrArg List.length h).symm, fun one => ?_⟩
    obtain ⟨c, rfl⟩ := length_eq_one_iff.mp one
    rw [peekLastChar_eq sound, handled.rxContent, getLast?_concat]
    rfl

lemma Relayed.interrupt (relayed : s.Relayed) (sound : s.port.uart.Sound)
    (enabled : s.commandExecutor.isSome) {usis : UInt32} {port : UartSystem}
    (st : s.port.step (.interrupt usis) = some port) :
    (s.afterPort port (.interrupt usis)).Relayed ↔ s.paired (.interrupt usis) = true := by
  obtain ⟨q, queued, chars⟩ := afterPort_interrupt sound enabled usis port
  rw [UartSystem.step] at st
  obtain ⟨-, e⟩ := ite_none_right_eq_some.mp st
  cases e
  obtain ⟨sound', transmitted, handled⟩ := Uart.handleUartInterrupt_spec sound usis
  rw [Relayed, handled.rxFifo] at relayed
  rw [queued, Relayed, inFlight_queued, chars, ← relayed]
  simp only [List.append_assoc, append_cancel_left_eq, append_cancel_right_eq, paired]
  by_cases served : s.port.uart.serves usis = true
  · rw [if_pos served] at handled ⊢
    have queued := queued_eq_moved_iff sound' handled (s.hasRoom usis)
    rw [length_take_of_le (received_le _)] at queued
    simpa only [served, true_and, Bool.not_true, Bool.false_or, beq_iff_eq] using queued
  · rw [if_neg served, if_neg fun h => served h.1, Bool.eq_false_of_not_eq_true served]
    exact iff_of_true rfl rfl

lemma Relayed.port (relayed : s.Relayed) (sound : s.port.uart.Sound) {e : UartEvent} {port : UartSystem}
    (other : ∀ usis, e ≠ .interrupt usis) (st : s.port.step e = some port) :
    Relayed { s with port := port } ↔ s.port.takesFromFifo e = false := by
  rw [Relayed] at relayed ⊢
  by_cases takes : s.port.takesFromFifo e = true
  · obtain ⟨arrived, c, fifo⟩ := UartSystem.fifo_of_takesFromFifo takes st
    refine iff_of_false ?_ (by rw [takes]; decide)
    rw [arrived, ← relayed, fifo]
    intro h
    have lengths := congrArg List.length h
    simp [inFlight] at lengths
  · refine iff_of_true ?_ (Bool.eq_false_of_not_eq_true takes)
    rcases UartSystem.step_rx sound st with ⟨arrived, fifo, -⟩ | ⟨arrived, fifo, -⟩ | ⟨interrupt, -⟩ |
      ⟨arrived, fifo, -⟩ | ⟨direct, -⟩
    · rw [arrived, fifo]
      exact relayed
    · rw [arrived, fifo, ← relayed]
      exact (List.append_assoc _ _ _).symm
    · exact absurd interrupt (other _)
    · rw [arrived, fifo]
      exact relayed
    · exact absurd direct takes

structure Serves (call : CommandCall φ) (x : CommandExecutor φ) (s : HardwareSerial φ) : Prop where
  sound : s.port.uart.Sound
  executor : ∃ y current, s.commandExecutor = some y ∧
    x.executorReceiveAll call 0 s.received = some (y, 0) ∧ y.Edits current

lemma startTask_spec {callback : TaskCallback} {rest : List TaskCallback} (queue : s.taskQueue = callback :: rest) :
    ∃ delegated, s.startTask =
      some { s with taskQueue := rest, running := some callback, delegated := delegated } := by
  rw [startTask, queue]
  cases callback <;> exact ⟨_, rfl⟩

variable {x : CommandExecutor φ}

lemma Serves.finishTask (serves : Serves call x s) {callback : TaskCallback} (running : s.running = some callback) :
    ∃ y, s.finishTask call = some { s with
        running := none
        commandExecutor := some y
        received := s.received ++ callback.chars } ∧
      Serves call x { s with running := none, commandExecutor := some y, received := s.received ++ callback.chars } := by
  obtain ⟨y, current, executor, fed, edits⟩ := serves.executor
  rw [HardwareSerial.finishTask, running, executor]
  cases callback with
  | serial charCount receivedChar =>
    obtain ⟨z, current', received, edits'⟩ := @CommandTwin.executorReceive_total _ call _ _ edits receivedChar
    simp only [received, map_some]
    exact ⟨z, rfl, serves.sound, z, current', rfl, CommandTwin.executorReceiveAll_snoc fed received, edits'⟩
  | _ =>
    have none : s.received ++ [] = s.received := append_nil _
    refine ⟨y, ?_, serves.sound, y, current, rfl, none.symm ▸ fed, edits⟩
    simp [TaskCallback.chars, ← executor]

lemma Serves.step (serves : Serves call x s) {e : HardwareSerialEvent}
    (st : step call s e = some t) : Serves call x t ∧ (s.Relayed → (t.Relayed ↔ s.OneByOne e)) := by
  have enabled : s.commandExecutor.isSome := by
    obtain ⟨y, current, executor, -⟩ := serves.executor
    exact isSome_of_eq_some executor
  cases e with
  | port e =>
    obtain ⟨port, portStep, rfl⟩ := map_eq_some_iff.mp st
    have sound := UartSystem.step_sound serves.sound portStep
    cases e with
    | interrupt usis =>
      obtain ⟨q, queued, -⟩ := afterPort_interrupt serves.sound enabled usis port
      refine ⟨?_, fun relayed => ?_⟩
      · rw [queued]
        exact ⟨sound, serves.executor⟩
      · exact (relayed.interrupt serves.sound enabled portStep).trans (and_iff_left rfl).symm
    | _ =>
      refine ⟨⟨sound, serves.executor⟩, fun relayed => ?_⟩
      exact (relayed.port serves.sound (fun _ h => by cases h) portStep).trans (and_iff_right rfl).symm
  | queue =>
    cases st
    rw [queueCallback_eq]
    refine ⟨⟨serves.sound, serves.executor⟩, fun relayed => iff_of_true ?_ trivial⟩
    have none : (if s.taskQueue.length < taskQueueLength then [TaskCallback.other] else []).flatMap
        TaskCallback.chars = [] := by
      split <;> rfl
    rw [Relayed, inFlight_queued s s.port, none, append_nil]
    exact relayed
  | task =>
    obtain ⟨⟨-, idle⟩, start⟩ := ite_none_right_eq_some.mp st
    cases queue : s.taskQueue with
    | nil =>
      rw [startTask, queue] at start
      cases start
    | cons callback rest =>
      obtain ⟨delegated, started⟩ := startTask_spec queue
      rw [start] at started
      cases started
      refine ⟨⟨serves.sound, serves.executor⟩, fun relayed => iff_of_true ?_ trivial⟩
      rw [Relayed, inFlight, idle, queue] at relayed
      exact relayed
  | finish =>
    obtain ⟨-, finish⟩ := ite_none_right_eq_some.mp st
    cases running : s.running with
    | none =>
      rw [HardwareSerial.finishTask, running] at finish
      cases finish
    | some callback =>
      obtain ⟨y, finished, serves'⟩ := serves.finishTask running
      rw [finish] at finished
      cases finished
      refine ⟨serves', fun relayed => iff_of_true ?_ trivial⟩
      rw [Relayed, inFlight, running] at relayed
      rw [Relayed, inFlight, ← relayed]
      simp

/-- What is on its way can be delivered: the task that runs ends, and those of the queue run one by one. -/
lemma Serves.deliver (serves : Serves call x s) (idle : s.port.task = .idle) :
    ∃ es u, Run (HardwareSerial.step call) OneByOne s es u ∧ u.port = s.port ∧ u.inFlight = [] ∧
      u.received = s.received ++ s.inFlight := by
  have queued : ∀ queue (s : HardwareSerial φ), Serves call x s → s.port.task = .idle → s.running = none →
      s.taskQueue = queue → ∃ es u, Run (HardwareSerial.step call) OneByOne s es u ∧ u.port = s.port ∧
        u.inFlight = [] ∧ u.received = s.received ++ s.inFlight := by
    intro queue
    induction queue with
    | nil =>
      intro s serves idle none empty
      have nothing : s.inFlight = [] := by rw [inFlight, none, empty]; rfl
      exact ⟨[], s, .nil, rfl, nothing, by rw [nothing, append_nil]⟩
    | cons callback rest ih =>
      intro s serves idle none queue
      obtain ⟨delegated, started⟩ := startTask_spec queue
      have first : HardwareSerial.step call s .task = _ := (if_pos ⟨idle, none⟩).trans started
      obtain ⟨y, finished, serves'⟩ := (serves.step first).1.finishTask rfl
      obtain ⟨es, v, r, port, nothing, received⟩ := ih _ serves' idle rfl rfl
      refine ⟨.task :: .finish :: es, v, .cons trivial first (.cons trivial ((if_pos idle).trans finished) r),
        port, nothing, ?_⟩
      rw [received, inFlight, inFlight, none, queue]
      simp
  cases running : s.running with
  | none => exact queued _ s serves idle running rfl
  | some callback =>
    obtain ⟨y, finished, serves'⟩ := serves.finishTask running
    obtain ⟨es, v, r, port, nothing, received⟩ := queued _ _ serves' idle rfl rfl
    refine ⟨.finish :: es, v, .cons trivial ((if_pos idle).trans finished) r, port, nothing, ?_⟩
    rw [received, inFlight, inFlight, running]
    simp

/-- A port with command processing just enabled, in any state of its buffers: the executor has received nothing,
and no character is on its way. -/
structure Enabled (x : CommandExecutor φ) (s : HardwareSerial φ) : Prop where
  sound : s.port.uart.Sound
  executor : s.commandExecutor = some x
  empty : x.Edits []
  received : s.received = []
  relayed : s.Relayed

variable {es : List HardwareSerialEvent}

lemma Enabled.serves (enabled : Enabled x s) (r : Run (step call) Always s es t) : Serves call x t := by
  have init : Serves call x s := by
    refine ⟨enabled.sound, x, [], enabled.executor, ?_, enabled.empty⟩
    rw [enabled.received]
    rfl
  exact r.invariant init fun inv _ st => (inv.step st).1

lemma Enabled.relays (enabled : Enabled x s) (r : Run (step call) OneByOne s es t) : t.Relayed := by
  have both : Serves call x t ∧ t.Relayed := by
    refine @Run.invariant _ _ _ _ (fun t => Serves call x t ∧ t.Relayed) _ _ _ r
      ⟨enabled.serves .nil, enabled.relayed⟩ ?_
    intro t e u h one st
    obtain ⟨inv, same⟩ := h.1.step st
    exact ⟨inv, (same h.2).mpr one⟩
  exact both.2

lemma Enabled.executor_eq (enabled : Enabled x s) (r : Run (step call) OneByOne s es t) (delivered : t.Delivered) :
    t.commandExecutor = (x.executorReceiveAll call 0 t.port.arrived).map Prod.fst := by
  obtain ⟨y, -, executor, fed, -⟩ := (enabled.serves r.always).executor
  have relayed := enabled.relays r
  rw [Relayed, delivered.1, delivered.2, append_nil, append_nil] at relayed
  rw [executor, ← relayed, fed]
  rfl

/-- The characters of a run are relayed all along exactly if every interrupt moves one byte for each callback it
queues and `uart_read` leaves the FIFO alone. Once the calls of the port have returned, the executor can be given what
is on its way, and however the characters were grouped, it ends the same. -/
theorem executor_relayed_iff (call : CommandCall φ) {x : CommandExecutor φ} (enabled : Enabled x s)
    {es : List HardwareSerialEvent} (r : Run (step call) Always s es t) :
    ((∀ es' t', es' <+: es → Run (step call) Always s es' t' → t'.Relayed) ↔ Run (step call) OneByOne s es t) ∧
    (t.port.task = .idle → ∃ es' u, Run (step call) OneByOne t es' u ∧ u.port = t.port ∧ u.inFlight = [] ∧
      u.received = t.received ++ t.inFlight) ∧
    ∀ es' t', Run (step call) OneByOne s es t → Run (step call) OneByOne s es' t' →
      t.Delivered → t'.Delivered →
      t.port.arrived = t'.port.arrived → t.commandExecutor = t'.commandExecutor := by
  refine ⟨?_, (enabled.serves r).deliver, ?_⟩
  · apply r.forall_prefix_iff_guarded enabled.relayed
    intro es t e u r _ st
    exact ((enabled.serves r.always).step st).2 (enabled.relays r)
  · intro es' t' one one' delivered delivered' same
    rw [enabled.executor_eq one delivered, enabled.executor_eq one' delivered', same]

def smallSerial : HardwareSerial Unit where
  port := { uart := UartSystem.smallPort }
  commandExecutor := some { commandBuf := List.replicate (maxCommandSize + 1) 0, padding := 0, commandHandler := {} }

lemma smallSerial_enabled : Enabled
    { commandBuf := List.replicate (maxCommandSize + 1) 0, padding := 0, commandHandler := {} } smallSerial where
  sound := UartSystem.smallPort_fresh.toSound
  executor := rfl
  empty := .first (List.length_replicate ..) rfl
  received := rfl
  relayed := by decide

theorem executor_relayed_iff_smallSerial : ∃ t, Run (step fun _ _ h => (h, [])) OneByOne smallSerial
      [.port (.arrive 97), .port (.interrupt uito), .port (.arrive 13), .port (.interrupt uito), .task, .finish] t ∧
    t.received = [97] ∧ t.inFlight = [13] ∧
    ∀ es' (t' : HardwareSerial Unit), es' <+: [.port (.arrive 97), .port (.interrupt uito), .port (.arrive 13),
      .port (.interrupt uito), .task, .finish] →
      Run (step fun _ _ h => (h, [])) Always smallSerial es' t' → t'.Relayed :=
  exists_run (fun t => t.received = [97] ∧ t.inFlight = [13]) (by decide) fun _ run done =>
    ⟨done.1, done.2, (executor_relayed_iff _ smallSerial_enabled run.always).1.mpr run⟩

/-- Two characters in one interrupt: only the second one reaches the executor. -/
theorem executor_misses_character : ¬ ∀ (φ : Type) (call : CommandCall φ) (x : CommandExecutor φ) s,
    Enabled x s → ∀ es t, Run (step call) Always s es t → t.Relayed := by
  intro all
  exact not_forall_run [.port (.arrive 97), .port (.arrive 13), .port (.interrupt uito), .task, .finish]
    (by decide) (all Unit (fun _ _ h => (h, [])) _ _ smallSerial_enabled)

end HardwareSerial

end Sming

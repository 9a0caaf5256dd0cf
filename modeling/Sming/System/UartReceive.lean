import Sming.System.Uart

/-!
# Reading from the serial port

`RxMoved` lists what one step can do to the bytes on the receive side: a byte arrives in the FIFO, the
interrupt handler moves bytes from the FIFO to the buffer, and `uart_read` takes a byte from the buffer or from
the FIFO. All of them but the last keep the bytes in the order of their arrival. `uart_read` goes to the
FIFO after it has found the buffer empty, but the handler may fill the buffer in between.
-/

namespace Sming.System
open Sming.Lib

/-- What a call of `uart_read` has read so far. -/
def UartTask.readSoFar : UartTask → List UInt8
  | .readBuffer _ buf => buf
  | .readFifo _ buf => buf
  | _ => []

namespace UartSystem

def taken (s : UartSystem) : List UInt8 := s.reads.flatten ++ s.task.readSoFar

def takesFromFifo (s : UartSystem) : UartEvent → Bool
  | .turn =>
    match s.task with
    | .readFifo size buf => buf.length < size && uartRxCount s.uart.rxFifo != 0
    | _ => false
  | _ => false

inductive RxMoved (s : UartSystem) (e : UartEvent) (t : UartSystem) : Prop where
  | same :
    t.arrived = s.arrived →
    t.uart.rxFifo = s.uart.rxFifo →
    t.uart.rxContent = s.uart.rxContent →
    t.taken = s.taken →
    RxMoved s e t
  | arrived {c} :
    t.arrived = s.arrived ++ [c] →
    t.uart.rxFifo = s.uart.rxFifo ++ [c] →
    t.uart.rxContent = s.uart.rxContent →
    t.taken = s.taken →
    RxMoved s e t
  | buffered {usis moved} :
    e = .interrupt usis →
    t.arrived = s.arrived →
    s.uart.rxFifo = moved ++ t.uart.rxFifo →
    t.uart.rxContent = s.uart.rxContent ++ moved →
    t.taken = s.taken →
    RxMoved s e t
  | fromBuffer {c} :
    t.arrived = s.arrived →
    t.uart.rxFifo = s.uart.rxFifo →
    s.uart.rxContent = c :: t.uart.rxContent →
    t.taken = s.taken ++ [c] →
    RxMoved s e t
  | fromFifo {c} :
    s.takesFromFifo e = true →
    t.arrived = s.arrived →
    s.uart.rxFifo = c :: t.uart.rxFifo →
    t.uart.rxContent = s.uart.rxContent →
    t.taken = s.taken ++ [c] →
    RxMoved s e t

variable {s t : UartSystem} {e : UartEvent}

lemma taken_snoc (s : UartSystem) (buf : List UInt8) (c : UInt8) :
    s.reads.flatten ++ (buf ++ [c]) = (s.reads.flatten ++ buf) ++ [c] := (List.append_assoc _ _ _).symm

lemma step_rx (sound : s.uart.Sound) (st : s.step e = some t) : RxMoved s e t := by
  cases step_cases sound st with
  | arrive => exact .arrived rfl rfl rfl rfl
  | interrupt =>
    obtain ⟨-, transmitted, handled⟩ := Uart.handleUartInterrupt_spec sound _
    exact .buffered rfl rfl handled.rxFifo handled.rxContent rfl
  | @fromBuffer _ _ _ c _ task used content =>
    refine .fromBuffer (c := c) rfl rfl ?_ ?_
    · rw [Uart.rxContent, used]
      exact content
    · rw [taken, taken, task]
      exact taken_snoc ..
  | fromFifo task fifo more =>
    refine .fromFifo ?_ rfl fifo rfl ?_
    · simp [takesFromFifo, task, fifo, more.1, more.2]
    · rw [taken, taken, task]
      exact taken_snoc ..
  | noRead task | endRead task =>
    refine .same rfl rfl rfl ?_
    simp [taken, UartSystem.endRead, task, UartTask.readSoFar]
  | endWrite task =>
    refine .same rfl ?_ ?_ (by rw [taken, taken, task]; rfl)
    · rw [endWrite]
      split <;> rfl
    · rw [endWrite]
      split <;> rfl
  | shift | level | noWrite => exact .same rfl rfl rfl rfl
  | uartRead task | uartWrite task | bufferRead task | direct task | buffered task | toFifo task | fifoWritten task
  | toBuffer task | bufferWritten task | again task =>
    exact .same rfl rfl rfl (by rw [taken, taken, task]; rfl)

lemma fifo_of_takesFromFifo (takes : s.takesFromFifo e = true) (st : s.step e = some t) :
    t.arrived = s.arrived ∧ ∃ c, s.uart.rxFifo = c :: t.uart.rxFifo := by
  unfold takesFromFifo at takes
  split at takes
  case h_1 =>
    split at takes
    case h_1 size buf task =>
      obtain ⟨room, count⟩ := (Bool.and_eq_true _ _).mp takes
      simp only [step, turn, task] at st
      rw [readFifo, if_pos ⟨of_decide_eq_true room, bne_iff_ne.mp count⟩] at st
      cases st
      refine ⟨rfl, ?_⟩
      cases fifo : s.uart.rxFifo with
      | nil =>
        rw [fifo] at count
        exact absurd count (by decide)
      | cons c rest => exact ⟨c, rfl⟩
    case h_2 => cases takes
  case h_2 => cases takes

/-- The condition on a step: `uart_read` takes a byte from the FIFO only while the receive buffer is not in use or
empty. -/
def InOrder (s : UartSystem) (e : UartEvent) : Prop :=
  s.takesFromFifo e = true → s.uart.rxBuffer.all SerialBuffer.isEmpty = true

instance (s : UartSystem) (e : UartEvent) : Decidable (s.InOrder e) := inferInstanceAs (Decidable (_ → _))

lemma rxContent_eq_nil_iff (sound : s.uart.Sound) :
    s.uart.rxBuffer.all SerialBuffer.isEmpty = true ↔ s.uart.rxContent = [] := by
  rw [Uart.rxContent]
  cases hb : s.uart.rxBuffer with
  | none => exact iff_of_true rfl rfl
  | some b => exact (sound.rx b hb).isEmpty_iff

/-- Every byte that arrived was taken, is in the buffer or is in the FIFO, in this order. -/
structure RxInv (s : UartSystem) : Prop where
  sound : s.uart.Sound
  account : s.taken ++ s.uart.rxContent ++ s.uart.rxFifo = s.arrived

lemma RxInv.step (inv : RxInv s) (ok : s.InOrder e) (st : s.step e = some t) : RxInv t := by
  refine ⟨step_sound inv.sound st, ?_⟩
  have account := inv.account
  rcases step_rx inv.sound st with ⟨arrived, fifo, content, taken⟩ | ⟨arrived, fifo, content, taken⟩ |
    ⟨-, arrived, fifo, content, taken⟩ | ⟨arrived, fifo, content, taken⟩ | ⟨direct, arrived, fifo, content, taken⟩
  · rw [arrived, fifo, content, taken, account]
  · rw [arrived, fifo, content, taken, ← List.append_assoc, account]
  · rw [arrived, content, taken, ← account, fifo]
    simp
  · rw [arrived, fifo, taken, ← account, content]
    simp
  · -- the byte overtakes nothing
    have empty := (rxContent_eq_nil_iff inv.sound).mp (ok direct)
    rw [arrived, content, taken, ← account, fifo, empty]
    simp

/-- In every run in which `uart_read` takes bytes from the FIFO only while the buffer is empty, it has returned the
first bytes that arrived, and the others are where the next reads find them. -/
theorem uartRead_isPrefix {u : Uart} (fresh : u.Fresh) {es : List UartEvent}
    (r : Run step InOrder { uart := u } es t) :
    t.reads.flatten <+: t.arrived ∧ t.taken ++ t.uart.rxContent ++ t.uart.rxFifo = t.arrived := by
  have init : RxInv { uart := u } := by
    refine ⟨fresh.toSound, ?_⟩
    change [] ++ u.rxContent ++ u.rxFifo = []
    rw [fresh.rxContent, fresh.rxFifo]
    rfl
  have inv : RxInv t := r.invariant init fun inv ok st => inv.step ok st
  refine ⟨?_, inv.account⟩
  rw [← inv.account, taken, List.append_assoc, List.append_assoc]
  exact List.prefix_append _ _

/-- A port with a receive buffer of four cells. -/
def smallPort : Uart := { rxBuffer := some (.holding [] 4), usie := rxSources ||| uifr }

lemma smallPort_fresh : smallPort.Fresh :=
  Uart.init_fresh (by decide : Uart.init .full false 4 0 (true, true) = some smallPort)

theorem uartRead_isPrefix_smallPort : ∃ t, Run step InOrder { uart := smallPort }
      [.arrive 1, .interrupt uito, .arrive 2, .uartRead 3, .turn, .turn, .turn, .turn] t ∧
    t.reads.flatten <+: t.arrived ∧ t.taken ++ t.uart.rxContent ++ t.uart.rxFifo = t.arrived :=
  exists_run (fun t => t.reads = [[1, 2]]) (by decide) fun _ run _ => uartRead_isPrefix smallPort_fresh run

/-- The handler moves the first byte to the buffer after `uart_read` found it empty; the second, read from the FIFO,
comes out first. -/
theorem uartRead_overtakes : ¬ ∀ u : Uart, u.Fresh → ∀ es t, Run step Always { uart := u } es t →
    t.reads.flatten <+: t.arrived := by
  intro all
  obtain ⟨t, run, bad⟩ : ∃ t, exec step Always { uart := smallPort } [.arrive 1, .uartRead 1, .turn,
      .interrupt uito, .arrive 2, .turn, .turn] = some t ∧ ¬ t.reads.flatten <+: t.arrived :=
    exists_exec (by decide)
  exact bad (all smallPort smallPort_fresh _ t (exec_run run))

end UartSystem

end Sming.System

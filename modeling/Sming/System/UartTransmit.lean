import Sming.System.Uart

/-!
# Writing to the serial port

`TxMoved` lists what one step can do to the bytes on the transmit side. `uart_write` writes to the transmit FIFO only
in its first inner loop, which it enters when the buffer is empty; the handler takes bytes from the buffer and never
adds any, so the buffer stays empty until the loop is left.
-/

namespace Sming.System
open Sming.Lib List

/-- What a call of `uart_write` has accepted so far. -/
def UartTask.acceptedSoFar : UartTask → List UInt8
  | .write data written => data.take written
  | .writeFifo data written => data.take written
  | .writeBuffer data written => data.take written
  | .check data written => data.take written
  | _ => []

def UartTask.atFifo : UartTask → Bool
  | .writeFifo .. => true
  | _ => false

namespace UartSystem

/-- The bytes that `uart_write` has accepted, in the order of the calls: of each call as many as its answer
says, and of the call that is not finished as many as it has written. -/
def accepted (s : UartSystem) : List UInt8 :=
  s.writes.flatMap (fun call => call.1.take call.2) ++ s.task.acceptedSoFar

/-- The bytes that were written to the transmit FIFO: those that have gone out and those still in it. -/
def transmitted (s : UartSystem) : List UInt8 := s.sent ++ s.uart.txFifo

inductive TxMoved (s t : UartSystem) : Prop where
  | same :
    t.transmitted = s.transmitted →
    t.uart.txContent = s.uart.txContent →
    t.accepted = s.accepted →
    TxMoved s t
  | drained {moved} :
    t.transmitted = s.transmitted ++ moved →
    s.uart.txContent = moved ++ t.uart.txContent →
    t.accepted = s.accepted →
    TxMoved s t
  | toFifo {c} :
    s.task.atFifo = true →
    t.transmitted = s.transmitted ++ [c] →
    t.uart.txContent = s.uart.txContent →
    t.accepted = s.accepted ++ [c] →
    TxMoved s t
  | toBuffer {c} :
    t.task.atFifo = false →
    t.transmitted = s.transmitted →
    t.uart.txContent = s.uart.txContent ++ [c] →
    t.accepted = s.accepted ++ [c] →
    TxMoved s t

variable {s t : UartSystem} {e : UartEvent} {data : List UInt8}

lemma take_getD {n : Nat} (h : n < data.length) : data.take (n + 1) = data.take n ++ [data.getD n 0] := by
  rw [take_add_one, getD_eq_getElem?_getD, getElem?_eq_getElem h]
  rfl

lemma accepted_snoc {written : Nat} (more : written < data.length) :
    s.writes.flatMap (fun call => call.1.take call.2) ++ data.take (written + 1) =
      s.writes.flatMap (fun call => call.1.take call.2) ++ data.take written ++ [data.getD written 0] := by
  rw [List.append_assoc, take_getD more]

lemma step_tx (sound : s.uart.Sound) (st : s.step e = some t) : TxMoved s t := by
  cases step_cases sound st with
  | shift fifo =>
    refine .same ?_ rfl rfl
    rw [transmitted, transmitted, fifo]
    exact List.append_assoc _ _ _
  | interrupt =>
    obtain ⟨-, moved, handled⟩ := Uart.handleUartInterrupt_spec sound _
    refine .drained ?_ handled.txContent rfl
    rw [transmitted, transmitted, List.append_assoc, ← handled.txFifo]
  | toFifo task more =>
    refine .toFifo (by rw [task]; rfl) (List.append_assoc _ _ _).symm rfl ?_
    rw [accepted, accepted, task]
    exact accepted_snoc more
  | @toBuffer data written _ _ task used more content =>
    refine .toBuffer (c := data.getD written 0) rfl rfl ?_ ?_
    · rw [Uart.txContent, Uart.txContent, used]
      exact content
    · rw [accepted, accepted, task]
      exact accepted_snoc more
  | @endWrite data written task =>
    have same : (s.endWrite data written).uart.txFifo = s.uart.txFifo ∧
        (s.endWrite data written).uart.txContent = s.uart.txContent := by
      rw [endWrite]
      split <;> exact ⟨rfl, rfl⟩
    refine .same ?_ same.2 ?_
    · rw [transmitted, same.1]
      rfl
    · simp [accepted, endWrite, task, UartTask.acceptedSoFar]
  | noWrite task | uartWrite task =>
    refine .same rfl rfl ?_
    simp [accepted, task, UartTask.acceptedSoFar]
  | arrive | level | noRead => exact .same rfl rfl rfl
  | uartRead task | fromBuffer task | bufferRead task | fromFifo task | endRead task | direct task | buffered task
  | fifoWritten task | bufferWritten task | again task =>
    exact .same rfl rfl (by rw [accepted, accepted, task]; rfl)

lemma direct_iff (sound : s.uart.Sound) : s.direct = true ↔ s.uart.txContent = [] := by
  rw [direct, Uart.txContent]
  cases hb : s.uart.txBuffer with
  | none => exact iff_of_true rfl rfl
  | some b => exact (sound.tx b hb).isEmpty_iff

lemma step_atFifo (sound : s.uart.Sound) (st : s.step e = some t) (h : t.task.atFifo = true) :
    s.task.atFifo = true ∨ s.uart.txContent = [] := by
  cases step_cases sound st with
  | arrive | shift | level | interrupt | noRead | noWrite => exact .inl h
  | direct _ direct => exact .inr ((direct_iff sound).mp direct)
  | toFifo task =>
    rw [task]
    exact .inl rfl
  | _ => cases h

/-- Every accepted byte has gone to the FIFO or is in the buffer, in this order. -/
structure TxInv (s : UartSystem) : Prop where
  sound : s.uart.Sound
  account : s.transmitted ++ s.uart.txContent = s.accepted
  direct : s.task.atFifo = true → s.uart.txContent = []

lemma TxInv.step (inv : TxInv s) (st : s.step e = some t) : TxInv t := by
  have account := inv.account
  have direct (h : t.task.atFifo = true) : s.uart.txContent = [] :=
    (step_atFifo inv.sound st h).elim inv.direct id
  rcases step_tx inv.sound st with ⟨fifo, content, accepted⟩ | ⟨fifo, content, accepted⟩ |
    ⟨loop, fifo, content, accepted⟩ | ⟨other, fifo, content, accepted⟩
  · refine ⟨step_sound inv.sound st, ?_, fun h => content.trans (direct h)⟩
    rw [fifo, content, accepted, account]
  · refine ⟨step_sound inv.sound st, ?_, ?_⟩
    · rw [fifo, accepted, ← account, content, List.append_assoc]
    · intro h
      have nil := direct h
      rw [content] at nil
      exact (append_eq_nil_iff.mp nil).2
  · -- the byte overtakes nothing
    have empty := inv.direct loop
    refine ⟨step_sound inv.sound st, ?_, fun _ => content.trans empty⟩
    rw [fifo, accepted, ← account, content, empty]
    simp
  · refine ⟨step_sound inv.sound st, ?_, fun h => absurd h (by rw [other]; decide)⟩
    rw [fifo, accepted, ← account, content, List.append_assoc]

/-- In every run the bytes written to the transmit FIFO are the first ones that `uart_write` has accepted, and the
others are in the buffer. -/
theorem uartWrite_isPrefix {u : Uart} (fresh : u.Fresh) {es : List UartEvent}
    (r : Run step Always { uart := u } es t) :
    t.transmitted <+: t.accepted ∧ t.accepted = t.transmitted ++ t.uart.txContent := by
  have init : TxInv { uart := u } := by
    refine ⟨fresh.toSound, ?_, fun h => (by cases h)⟩
    change [] ++ u.txFifo ++ u.txContent = []
    rw [fresh.txFifo, fresh.txContent]
    rfl
  have inv : TxInv t := r.invariant init fun inv _ st => inv.step st
  rw [← inv.account]
  exact ⟨prefix_append _ _, rfl⟩

/-- A port with a transmit buffer of three cells. -/
def bufferedPort : Uart :=
  { txWait := true, txBuffer := some (.holding [] 3), usie := rxSources ||| uifr }

theorem uartWrite_isPrefix_bufferedPort : ∃ t, Run step Always { uart := bufferedPort }
      [.level 1, .uartWrite [1, 2], .turn, .turn, .turn, .turn, .turn, .turn, .level 0, .interrupt uife, .shift] t ∧
    t.transmitted <+: t.accepted ∧ t.accepted = t.transmitted ++ t.uart.txContent := by
  have fresh : bufferedPort.Fresh :=
    Uart.init_fresh (by decide : Uart.init .full true 0 3 (true, true) = some bufferedPort)
  exact exists_run (fun t => t.sent = [1] ∧ t.writes = [([1, 2], 2)]) (by decide) fun _ run _ => uartWrite_isPrefix fresh run

end UartSystem

end Sming.System

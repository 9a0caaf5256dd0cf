import Sming.System.SerialBuffer

/-!
# The serial port

Embedding of the data paths of `Sming/system/uart.cpp`. The port has a receive and a transmit FIFO in
hardware and, optionally, a `SerialBuffer` behind each of them. The interrupt handler moves bytes between FIFO
and buffer; `uart_read` and `uart_write` use the buffer and go to the FIFO directly when they take the
buffer for empty or unused.

`UartSystem` is a port with the task that calls the two functions. A call is cut into the turns of its
loops, and between two turns everything else may happen: bytes arrive, the line takes bytes from the transmit
FIFO, and the interrupt handler runs. The handler is one step. Which status it finds is not
determined by the model, except that only enabled sources show up in it.
-/

namespace Sming.System
open Sming.Lib List Option

inductive UartMode where
  | full
  | rxOnly
  | txOnly
  deriving Repr, DecidableEq

/-- RX FIFO full (C++ `_BV(UIFF)`). -/
def uiff : UInt32 := 0x001

/-- TX FIFO empty (C++ `_BV(UIFE)`). -/
def uife : UInt32 := 0x002

/-- RX FIFO timeout (C++ `_BV(UITO)`). -/
def uito : UInt32 := 0x100

/-- Frame error (C++ `_BV(UIFR)`). -/
def uifr : UInt32 := 0x008

/-- The sources of a receive interrupt. -/
def rxSources : UInt32 := uiff ||| uito

def uartRxFifoSize : Nat := 0x80

/-- The fields of `uart_t` that the data paths use, and the registers of the port. -/
structure Uart where
  mode : UartMode := .full
  /-- `options & _BV(UART_OPT_TXWAIT)`. -/
  txWait : Bool := false
  rxBuffer : Option SerialBuffer := none
  txBuffer : Option SerialBuffer := none
  /-- `UART_ISR_ENABLED`. -/
  isrEnabled : Bool := true
  /-- The interrupt sources that are enabled. -/
  usie : UInt32 := rxSources
  rxFifo : List UInt8 := []
  txFifo : List UInt8 := []
  /-- The bits of the status register above the number of bytes in the transmit FIFO. -/
  pins : Nat := 0
  deriving Repr, DecidableEq

/-- (C++ `UART_RXCOUNT`), of a FIFO with these bytes. -/
def uartRxCount (rxFifo : List UInt8) : Nat := rxFifo.length &&& 0x7f

def uartTxCount (pins : Nat) (txFifo : List UInt8) : Nat := pins <<< 8 + txFifo.length

def uartTxFull (pins : Nat) (txFifo : List UInt8) : Bool := 0x7f ≤ uartTxCount pins txFifo

namespace Uart

variable (u : Uart)

def rxEnabled : Bool := u.mode != .txOnly

def txEnabled : Bool := u.mode != .rxOnly

def reallocBuffer (buffer : Option SerialBuffer) (newSize : Nat) (heap : Bool) : Option SerialBuffer × Bool :=
  match buffer with
  | some buffer =>
    if newSize = 0 then (none, true)
    else
      let r := buffer.resize newSize heap
      (some r.1, r.2 == newSize)
  | none =>
    if newSize = 0 then (none, true)
    else
      let r := ({} : SerialBuffer).resize newSize heap
      if r.2 ≠ 0 then (some r.1, true) else (none, false)

def rxContent : List UInt8 := u.rxBuffer.elim [] SerialBuffer.toList

def txContent : List UInt8 := u.txBuffer.elim [] SerialBuffer.toList

def rxAvailable : Nat :=
  if u.rxEnabled then uartRxCount u.rxFifo + u.rxBuffer.elim 0 SerialBuffer.available else 0

/-- `none` stands for -1 (C++ `uart_peek_last_char`). -/
def peekLastChar : Option UInt8 := u.rxBuffer.bind SerialBuffer.peekLastChar

/-- Write to the register of enabled sources (C++ `USIE`). -/
def setUsie (usie : UInt32) : Uart := { u with usie := usie }

def newBuffer (enabled : Bool) (size : Nat) (heap : Bool) : Option SerialBuffer × Bool :=
  if enabled then reallocBuffer none size heap else (none, true)

/-- The first port as it is set up; `heap` is the answer to the two allocations
(C++ `uart_init_ex`, `uart_start_isr`). -/
def init (mode : UartMode) (txWait : Bool) (rxSize txSize : Nat) (heap : Bool × Bool) : Option Uart :=
  let u : Uart := { mode, txWait, usie := 0 }
  let rx := newBuffer u.rxEnabled rxSize heap.1
  let tx := newBuffer u.txEnabled txSize heap.2
  if rx.2 && tx.2 then
    some { u with
      rxBuffer := rx.1
      txBuffer := tx.1
      usie := if u.rxEnabled then rxSources ||| uifr else 0 }
  else none

/-! ### The interrupt handler -/

/-- The loop that reads the FIFO into the buffer, with what it has moved. -/
def receiveChars : Nat → SerialBuffer → List UInt8 → SerialBuffer × List UInt8 × Nat
  | 0, buffer, rxFifo => (buffer, rxFifo, 0)
  | space + 1, buffer, rxFifo =>
    if uartRxCount rxFifo ≠ 0 then
      let r := receiveChars space (buffer.writeChar (rxFifo.headD 0)).1 rxFifo.tail
      (r.1, r.2.1, r.2.2 + 1)
    else (buffer, rxFifo, 0)

/-- The part for a full receive FIFO or a timeout. If nothing was read the sources are masked out. -/
def rxInterrupt : Uart :=
  match u.rxBuffer with
  | none => u.setUsie (u.usie &&& ~~~rxSources)
  | some buffer =>
    let r := receiveChars buffer.getFreeSpace buffer u.rxFifo
    let u := { u with rxBuffer := some r.1, rxFifo := r.2.1 }
    if r.2.2 = 0 then u.setUsie (u.usie &&& ~~~rxSources) else u

/-- The loop that writes the buffer to the FIFO. -/
def transmitChars (pins : Nat) : Nat → SerialBuffer → List UInt8 → SerialBuffer × List UInt8
  | 0, buffer, txFifo => (buffer, txFifo)
  | avail + 1, buffer, txFifo =>
    if uartTxFull pins txFifo then (buffer, txFifo)
    else transmitChars pins avail buffer.readChar.2 (txFifo ++ [buffer.readChar.1.getD 0xFF])

/-- The part for an empty transmit FIFO; the answer says whether it is still taken for empty. -/
def txInterrupt : Uart × Bool :=
  match u.txBuffer with
  | none => (u, true)
  | some buffer =>
    if buffer.isEmpty then (u, true)
    else
      let r := transmitChars u.pins buffer.available buffer u.txFifo
      ({ u with txBuffer := some r.1, txFifo := r.2 }, uartTxCount u.pins r.2 == 0)

/-- The second half of the handler. Unless the FIFO was topped up, its source is disabled. -/
def serveTx (usis : UInt32) : Uart × UInt32 :=
  if usis &&& uife ≠ 0 then
    let r := u.txInterrupt
    if r.2 then (r.1.setUsie (r.1.usie &&& ~~~uife), usis) else (r.1, usis &&& ~~~uife)
  else (u, usis)

/-- The answer is the status that the callback is called with; 0 stands for no call. -/
def handleUartInterrupt (usis : UInt32) : Uart × UInt32 :=
  if usis = 0 then (u, 0)
  else if u.isrEnabled = false then (u.setUsie 0, 0)
  else if usis &&& rxSources ≠ 0 then u.rxInterrupt.serveTx usis
  else u.serveTx usis

/-- The buffers of a port are in order. -/
structure Sound (u : Uart) : Prop where
  rx : ∀ b ∈ u.rxBuffer, b.Valid
  tx : ∀ b ∈ u.txBuffer, b.Valid

structure Fresh (u : Uart) : Prop extends Sound u where
  rxContent : u.rxContent = []
  rxFifo : u.rxFifo = []
  txContent : u.txContent = []
  txFifo : u.txFifo = []

variable {u : Uart}

lemma newBuffer_spec {enabled : Bool} {size : Nat} {heap : Bool} {b : SerialBuffer}
    (h : (newBuffer enabled size heap).1 = some b) : b.Valid ∧ b.toList = [] := by
  simp only [newBuffer, reallocBuffer] at h
  split at h
  · split at h
    · cases h
    case isFalse pos =>
      by_cases memory : SerialBuffer.allocates heap size
      · obtain ⟨rfl, small⟩ := (Bool.and_eq_true _ _).mp memory
        have small := of_decide_eq_true small
        have new := SerialBuffer.resize_new (Nat.pos_of_ne_zero pos) small
        obtain ⟨valid, -, content⟩ := @SerialBuffer.holding_spec [] size (Nat.pos_of_ne_zero pos) small
        split at h
        · rw [new] at h
          cases h
          exact ⟨valid, content⟩
        · cases h
      · have stays : ({} : SerialBuffer).Stays size heap := .inr (Bool.eq_false_of_not_eq_true memory)
        rw [SerialBuffer.resize_stays stays, if_neg (by decide)] at h
        cases h
  · cases h

lemma newBuffer_content (enabled : Bool) (size : Nat) (heap : Bool) :
    (newBuffer enabled size heap).1.elim [] SerialBuffer.toList = [] := by
  cases h : (newBuffer enabled size heap).1 with
  | none => rfl
  | some b => exact (newBuffer_spec h).2

lemma init_fresh {mode : UartMode} {txWait : Bool} {rxSize txSize : Nat} {heap : Bool × Bool}
    (h : init mode txWait rxSize txSize heap = some u) : u.Fresh := by
  rw [init] at h
  obtain ⟨-, e⟩ := ite_none_right_eq_some.mp h
  cases e
  exact ⟨⟨fun b mem => (newBuffer_spec mem).1, fun b mem => (newBuffer_spec mem).1⟩,
    newBuffer_content _ _ _, rfl, newBuffer_content _ _ _, rfl⟩

lemma uartRxCount_cons {c : UInt8} {rxFifo : List UInt8} (h : uartRxCount (c :: rxFifo) ≠ 0) :
    uartRxCount (c :: rxFifo) = uartRxCount rxFifo + 1 := by
  have mask : (0x7f : Nat) = 2 ^ 7 - 1 := by decide
  simp only [uartRxCount, mask, Nat.and_two_pow_sub_one_eq_mod, length_cons] at h ⊢
  omega

lemma receiveChars_spec {buffer : SerialBuffer} (valid : buffer.Valid) {space : Nat}
    (fits : buffer.toList.length + space < buffer.size) (rxFifo : List UInt8) :
    (receiveChars space buffer rxFifo).1.Valid ∧ (receiveChars space buffer rxFifo).1.toList =
        buffer.toList ++ rxFifo.take (min space (uartRxCount rxFifo)) ∧
      (receiveChars space buffer rxFifo).2.1 = rxFifo.drop (min space (uartRxCount rxFifo)) ∧
      (receiveChars space buffer rxFifo).2.2 = min space (uartRxCount rxFifo) := by
  induction space generalizing buffer rxFifo with
  | zero => simp [receiveChars, valid]
  | succ space ih =>
    rw [receiveChars]
    by_cases h : uartRxCount rxFifo = 0
    · rw [if_neg (not_not.mpr h), h, Nat.min_zero]
      exact ⟨valid, (append_nil _).symm, rfl, rfl⟩
    · rw [if_pos h]
      cases rxFifo with
      | nil => exact absurd rfl h
      | cons c rest =>
        obtain ⟨d, written, valid', same, more⟩ := valid.writeChar_room c (by omega)
        obtain ⟨last, content, fifo, count⟩ := @ih d valid' (by rw [more, same, List.length_append]; simp; omega) rest
        rw [headD_cons, tail_cons, written, uartRxCount_cons h, Nat.succ_min_succ]
        refine ⟨last, ?_, fifo, congrArg (· + 1) count⟩
        rw [content, more]
        simp

lemma transmitChars_spec (pins : Nat) {buffer : SerialBuffer} (valid : buffer.Valid) {avail : Nat}
    (le : avail ≤ buffer.toList.length) (txFifo : List UInt8) :
    (transmitChars pins avail buffer txFifo).1.Valid ∧ ∃ moved,
      (transmitChars pins avail buffer txFifo).2 = txFifo ++ moved ∧
        buffer.toList = moved ++ (transmitChars pins avail buffer txFifo).1.toList := by
  induction avail generalizing buffer txFifo with
  | zero => exact ⟨valid, [], (append_nil _).symm, rfl⟩
  | succ avail ih =>
    rw [transmitChars]
    split
    · exact ⟨valid, [], (append_nil _).symm, rfl⟩
    · cases content : buffer.toList with
      | nil =>
        rw [content] at le
        cases le
      | cons c rest =>
        obtain ⟨d, read, valid', -, left⟩ := valid.readChar_cons content
        have le' : avail ≤ d.toList.length := by
          rw [left]
          rw [content] at le
          exact Nat.le_of_succ_le_succ le
        obtain ⟨last, moved, fifo, more⟩ := ih valid' le' (txFifo ++ [c])
        rw [read]
        refine ⟨last, c :: moved, ?_, ?_⟩
        · exact fifo.trans (List.append_assoc _ _ _)
        · rw [← left, more]
          rfl

/-- Some bytes go from the receive FIFO to its buffer, and some from the transmit buffer to its FIFO. -/
structure Handled (u v : Uart) (received transmitted : List UInt8) : Prop where
  rxContent : v.rxContent = u.rxContent ++ received
  rxFifo : u.rxFifo = received ++ v.rxFifo
  txContent : u.txContent = transmitted ++ v.txContent
  txFifo : v.txFifo = u.txFifo ++ transmitted

lemma Handled.refl (u : Uart) : Handled u u [] [] :=
  ⟨(append_nil _).symm, rfl, rfl, (append_nil _).symm⟩

lemma Handled.setUsie {u v : Uart} {a b : List UInt8} (h : Handled u v a b) (usie : UInt32) :
    Handled u (v.setUsie usie) a b :=
  ⟨h.rxContent, h.rxFifo, h.txContent, h.txFifo⟩

lemma Handled.trans {u v w : Uart} {a b c d : List UInt8} (h : Handled u v a b) (h' : Handled v w c d) :
    Handled u w (a ++ c) (b ++ d) where
  rxContent := by rw [h'.rxContent, h.rxContent, List.append_assoc]
  rxFifo := by rw [h.rxFifo, h'.rxFifo, List.append_assoc]
  txContent := by rw [h.txContent, h'.txContent, List.append_assoc]
  txFifo := by rw [h'.txFifo, h.txFifo, List.append_assoc]

/-- The number of bytes that a receive interrupt moves. -/
def received (u : Uart) : Nat :=
  u.rxBuffer.elim 0 fun buffer => min buffer.getFreeSpace (uartRxCount u.rxFifo)

section
variable (sound : u.Sound)
include sound

lemma Sound.setUsie (usie : UInt32) : (u.setUsie usie).Sound := ⟨sound.rx, sound.tx⟩

lemma rxInterrupt_spec : u.rxInterrupt.Sound ∧ Handled u u.rxInterrupt (u.rxFifo.take u.received) [] := by
  rw [rxInterrupt, received]
  cases hb : u.rxBuffer with
  | none => exact ⟨sound.setUsie _, (Handled.refl u).setUsie _⟩
  | some buffer =>
    have valid := sound.rx buffer hb
    have less := valid.length_toList_lt
    have free := valid.getFreeSpace_eq
    obtain ⟨valid', content, fifo, -⟩ :=
      receiveChars_spec valid (by omega : _ + buffer.getFreeSpace < _) u.rxFifo
    simp only [elim_some]
    generalize receiveChars buffer.getFreeSpace buffer u.rxFifo = r at *
    have sound' : Sound { u with rxBuffer := some r.1, rxFifo := r.2.1 } := by
      refine ⟨?_, sound.tx⟩
      rintro b ⟨⟩
      exact valid'
    have moved : Handled u { u with rxBuffer := some r.1, rxFifo := r.2.1 }
        (u.rxFifo.take (min buffer.getFreeSpace (uartRxCount u.rxFifo))) [] := by
      refine ⟨?_, ?_, rfl, (append_nil _).symm⟩
      · rw [rxContent, rxContent, hb]
        exact content
      · simp only [fifo]
        exact (take_append_drop _ _).symm
    split
    · exact ⟨sound'.setUsie _, moved.setUsie _⟩
    · exact ⟨sound', moved⟩

lemma txInterrupt_spec : u.txInterrupt.1.Sound ∧ ∃ transmitted, Handled u u.txInterrupt.1 [] transmitted := by
  rw [txInterrupt]
  cases hb : u.txBuffer with
  | none => exact ⟨sound, [], .refl u⟩
  | some buffer =>
    simp only
    split
    · exact ⟨sound, [], .refl u⟩
    · have valid := sound.tx buffer hb
      obtain ⟨valid', moved, fifo, content⟩ :=
        transmitChars_spec u.pins valid (Nat.le_of_eq valid.available_eq) u.txFifo
      refine ⟨⟨sound.rx, ?_⟩, moved, (append_nil _).symm, rfl, ?_, fifo⟩
      · rintro b ⟨⟩
        exact valid'
      · rw [txContent, hb]
        exact content

lemma serveTx_spec (usis : UInt32) :
    (u.serveTx usis).1.Sound ∧ ∃ transmitted, Handled u (u.serveTx usis).1 [] transmitted := by
  obtain ⟨sound', transmitted, moved⟩ := txInterrupt_spec sound
  rw [serveTx]
  split
  · simp only
    split
    · exact ⟨sound'.setUsie _, transmitted, moved.setUsie _⟩
    · exact ⟨sound', transmitted, moved⟩
  · exact ⟨sound, [], .refl u⟩

def serves (u : Uart) (usis : UInt32) : Bool := u.isrEnabled && usis &&& rxSources != 0

lemma handleUartInterrupt_spec (usis : UInt32) :
    (u.handleUartInterrupt usis).1.Sound ∧ ∃ transmitted, Handled u (u.handleUartInterrupt usis).1
      (if u.serves usis then u.rxFifo.take u.received else []) transmitted := by
  rw [handleUartInterrupt]
  split
  case isTrue none =>
    have idle : u.serves usis = false := by simp [serves, none]
    rw [idle]
    exact ⟨sound, [], .refl u⟩
  split
  case isTrue disabled =>
    have idle : u.serves usis = false := by simp [serves, disabled]
    rw [idle]
    exact ⟨sound.setUsie 0, [], (Handled.refl u).setUsie 0⟩
  rename_i enabled
  rw [Bool.not_eq_false] at enabled
  split
  case isTrue rx =>
    have served : u.serves usis = true := by simp [serves, enabled, rx]
    obtain ⟨sound', first⟩ := rxInterrupt_spec sound
    obtain ⟨sound'', transmitted, second⟩ := serveTx_spec sound' usis
    have both := first.trans second
    rw [append_nil, nil_append] at both
    rw [served]
    exact ⟨sound'', transmitted, both⟩
  case isFalse tx =>
    have idle : u.serves usis = false := by simp [serves, not_not.mp tx]
    rw [idle]
    exact serveTx_spec sound usis

def drained (u : Uart) (usis : UInt32) : Bool :=
  u.isrEnabled && usis &&& uife != 0 && u.txBuffer.all SerialBuffer.isEmpty

lemma txInterrupt_empty : u.txInterrupt.2 = u.txBuffer.all SerialBuffer.isEmpty := by
  rw [txInterrupt]
  cases hb : u.txBuffer with
  | none => rfl
  | some buffer =>
    simp only [all_some]
    by_cases empty : buffer.isEmpty = true
    · rw [if_pos empty, empty]
    · rw [if_neg empty, Bool.eq_false_of_not_eq_true empty, beq_eq_false_iff_ne]
      have valid := sound.tx buffer hb
      obtain ⟨c, rest, content⟩ := exists_cons_of_ne_nil (mt valid.isEmpty_iff.mpr empty)
      have avail : buffer.available = rest.length + 1 := by rw [valid.available_eq, content, length_cons]
      rw [avail, transmitChars]
      split
      case isTrue full =>
        have many : 0x7f ≤ uartTxCount u.pins u.txFifo := of_decide_eq_true full
        intro zero
        rw [zero] at many
        exact absurd many (by decide)
      case isFalse =>
        obtain ⟨d, read, valid', -, left⟩ := valid.readChar_cons content
        rw [read]
        obtain ⟨-, moved, fifo, -⟩ :=
          transmitChars_spec u.pins valid' (Nat.le_of_eq (congrArg List.length left).symm) (u.txFifo ++ [c])
        rw [getD_some, fifo, uartTxCount, List.length_append, List.length_append, List.length_singleton]
        omega

lemma serveTx_status (usis : UInt32) :
    (u.serveTx usis).2 &&& rxSources = usis &&& rxSources ∧
      ((u.serveTx usis).2 &&& uife ≠ 0 ↔ usis &&& uife ≠ 0 ∧ u.txBuffer.all SerialBuffer.isEmpty = true) := by
  rw [serveTx, ← txInterrupt_empty sound]
  split
  case isTrue tx =>
    simp only
    split
    case isTrue empty => exact ⟨rfl, iff_of_true tx ⟨tx, empty⟩⟩
    case isFalse filled =>
      refine ⟨?_, iff_of_false ?_ fun h => filled h.2⟩
      · rw [UInt32.and_assoc]
        rfl
      · rw [UInt32.and_assoc]
        exact not_not.mpr UInt32.and_zero
  case isFalse idle => exact ⟨rfl, iff_of_false idle fun h => idle h.1⟩

end

lemma rxInterrupt_txBuffer (u : Uart) : u.rxInterrupt.txBuffer = u.txBuffer := by
  rw [rxInterrupt]
  split
  · rfl
  · simp only
    split <;> rfl

lemma handleUartInterrupt_status (sound : u.Sound) (usis : UInt32) :
    ((u.handleUartInterrupt usis).2 &&& rxSources ≠ 0 ↔ u.serves usis = true) ∧
      ((u.handleUartInterrupt usis).2 &&& uife ≠ 0 ↔ u.drained usis = true) := by
  rw [handleUartInterrupt]
  split
  case isTrue none =>
    simp [serves, drained, none]
  split
  case isTrue disabled =>
    simp [serves, drained, disabled]
  rename_i enabled
  rw [Bool.not_eq_false] at enabled
  split
  case isTrue rx =>
    obtain ⟨same, empty⟩ := serveTx_status (rxInterrupt_spec sound).1 usis
    rw [same, empty, rxInterrupt_txBuffer]
    simp [serves, drained, enabled]
  case isFalse tx =>
    obtain ⟨same, empty⟩ := serveTx_status sound usis
    rw [same, empty]
    simp [serves, drained, enabled]

end Uart

/-! ### The tasks -/

/-- Where the task is: a call of `uart_read` with its size and what it has read, one of `uart_write` with its data and
the number of bytes written. -/
inductive UartTask where
  | idle
  | readBuffer (size : Nat) (buf : List UInt8)
  | readFifo (size : Nat) (buf : List UInt8)
  /-- The start of a turn of the outer loop of `uart_write`. -/
  | write (data : List UInt8) (written : Nat)
  | writeFifo (data : List UInt8) (written : Nat)
  | writeBuffer (data : List UInt8) (written : Nat)
  /-- The end of the turn. -/
  | check (data : List UInt8) (written : Nat)
  deriving Repr, DecidableEq

/-- A port, its task and what has happened so far. -/
structure UartSystem where
  uart : Uart
  task : UartTask := .idle
  /-- The bytes that came in on the line. -/
  arrived : List UInt8 := []
  /-- The bytes that went out on the line. -/
  sent : List UInt8 := []
  /-- What the calls of `uart_read` have returned. -/
  reads : List (List UInt8) := []
  /-- The data of the calls of `uart_write`, and what they have returned. -/
  writes : List (List UInt8 × Nat) := []
  deriving DecidableEq

inductive UartEvent where
  /-- A byte comes in. -/
  | arrive (c : UInt8)
  /-- A byte of the transmit FIFO goes out. -/
  | shift
  /-- The levels of the pins change. -/
  | level (pins : Nat)
  | interrupt (usis : UInt32)
  | uartRead (size : Nat)
  | uartWrite (data : List UInt8)
  /-- The task goes on by one turn. -/
  | turn
  deriving Repr, DecidableEq

namespace UartSystem

variable (s : UartSystem)

def endRead (buf : List UInt8) : UartSystem :=
  { s with
    uart := s.uart.setUsie (s.uart.usie ||| rxSources)
    task := .idle
    reads := s.reads ++ [buf] }

def endWrite (data : List UInt8) (written : Nat) : UartSystem :=
  { s with
    uart := if written ≠ 0 then s.uart.setUsie (s.uart.usie ||| uife) else s.uart
    task := .idle
    writes := s.writes ++ [(data, written)] }

def uartRead (size : Nat) : UartSystem :=
  if s.uart.rxEnabled = false ∨ size = 0 then { s with reads := s.reads ++ [[]] }
  else { s with task := .readBuffer size [] }

def uartWrite (data : List UInt8) : UartSystem :=
  if s.uart.txEnabled = false ∨ data.length = 0 then { s with writes := s.writes ++ [(data, 0)] }
  else { s with task := .write data 0 }

def readBuffer (size : Nat) (buf : List UInt8) : UartSystem :=
  match s.uart.rxBuffer with
  | none => { s with task := .readFifo size buf }
  | some buffer =>
    if buf.length < size ∧ buffer.isEmpty = false then
      { s with
        uart := { s.uart with rxBuffer := some buffer.readChar.2 }
        task := .readBuffer size (buf ++ [buffer.readChar.1.getD 0xFF]) }
    else { s with task := .readFifo size buf }

def readFifo (size : Nat) (buf : List UInt8) : UartSystem :=
  if buf.length < size ∧ uartRxCount s.uart.rxFifo ≠ 0 then
    { s with
      uart := { s.uart with rxFifo := s.uart.rxFifo.tail }
      task := .readFifo size (buf ++ [s.uart.rxFifo.headD 0]) }
  else s.endRead buf

def direct : Bool := s.uart.txBuffer.all SerialBuffer.isEmpty

/-- A turn of the first inner loop of `uart_write`. -/
def writeFifo (data : List UInt8) (written : Nat) : UartSystem :=
  if written < data.length ∧ uartTxFull s.uart.pins s.uart.txFifo = false then
    { s with
      uart := { s.uart with txFifo := s.uart.txFifo ++ [data.getD written 0] }
      task := .writeFifo data (written + 1) }
  else { s with task := .writeBuffer data written }

/-- A turn of the second inner loop of `uart_write`. -/
def writeBuffer (data : List UInt8) (written : Nat) : UartSystem :=
  match s.uart.txBuffer with
  | none => { s with task := .check data written }
  | some buffer =>
    if written < data.length ∧ (buffer.writeChar (data.getD written 0)).2 then
      { s with
        uart := { s.uart with txBuffer := some (buffer.writeChar (data.getD written 0)).1 }
        task := .writeBuffer data (written + 1) }
    else { s with task := .check data written }

/-- The end of a turn of the outer loop of `uart_write`. -/
def check (data : List UInt8) (written : Nat) : UartSystem :=
  if data.length ≤ written ∨ s.uart.txWait = false then s.endWrite data written
  else { s with task := .write data written }

def turn : Option UartSystem :=
  match s.task with
  | .idle => none
  | .readBuffer size buf => some (s.readBuffer size buf)
  | .readFifo size buf => some (s.readFifo size buf)
  | .write data written =>
    some { s with task := if s.direct then .writeFifo data written else .writeBuffer data written }
  | .writeFifo data written => some (s.writeFifo data written)
  | .writeBuffer data written => some (s.writeBuffer data written)
  | .check data written => some (s.check data written)

/-- One step. A byte that comes in finds room in the FIFO, and a task makes one call at a time. -/
def step : UartEvent → Option UartSystem
  | .arrive c =>
    if s.uart.rxFifo.length < uartRxFifoSize then
      some { s with
        uart := { s.uart with rxFifo := s.uart.rxFifo ++ [c] }
        arrived := s.arrived ++ [c] }
    else none
  | .shift =>
    match s.uart.txFifo with
    | [] => none
    | c :: txFifo =>
      some { s with uart := { s.uart with txFifo := txFifo }, sent := s.sent ++ [c] }
  | .level pins => some { s with uart := { s.uart with pins := pins } }
  | .interrupt usis =>
    if usis &&& ~~~s.uart.usie = 0 then some { s with uart := (s.uart.handleUartInterrupt usis).1 } else none
  | .uartRead size => if s.task = .idle then some (s.uartRead size) else none
  | .uartWrite data => if s.task = .idle then some (s.uartWrite data) else none
  | .turn => s.turn

/-! ### What a step can do -/

/-- The steps, with what they find out. A buffer that is in order gives its first byte and takes one at its end. -/
inductive Stepped (s : UartSystem) : UartEvent → UartSystem → Prop where
  | arrive {c} : Stepped s (.arrive c)
      { s with uart := { s.uart with rxFifo := s.uart.rxFifo ++ [c] }, arrived := s.arrived ++ [c] }
  | shift {c txFifo} (fifo : s.uart.txFifo = c :: txFifo) :
    Stepped s .shift { s with uart := { s.uart with txFifo := txFifo }, sent := s.sent ++ [c] }
  | level {pins} : Stepped s (.level pins) { s with uart := { s.uart with pins := pins } }
  | interrupt {usis} : Stepped s (.interrupt usis) { s with uart := (s.uart.handleUartInterrupt usis).1 }
  | noRead {size} (task : s.task = .idle) : Stepped s (.uartRead size) { s with reads := s.reads ++ [[]] }
  | uartRead {size} (task : s.task = .idle) : Stepped s (.uartRead size) { s with task := .readBuffer size [] }
  | noWrite {data} (task : s.task = .idle) : Stepped s (.uartWrite data) { s with writes := s.writes ++ [(data, 0)] }
  | uartWrite {data} (task : s.task = .idle) : Stepped s (.uartWrite data) { s with task := .write data 0 }
  | fromBuffer {size buf buffer c d} (task : s.task = .readBuffer size buf) (used : s.uart.rxBuffer = some buffer)
    (content : buffer.toList = c :: d.toList) (valid : d.Valid) : Stepped s .turn
      { s with uart := { s.uart with rxBuffer := some d }, task := .readBuffer size (buf ++ [c]) }
  | bufferRead {size buf} (task : s.task = .readBuffer size buf) : Stepped s .turn { s with task := .readFifo size buf }
  | fromFifo {size buf c rest} (task : s.task = .readFifo size buf) (fifo : s.uart.rxFifo = c :: rest)
    (more : buf.length < size ∧ uartRxCount (c :: rest) ≠ 0) : Stepped s .turn
      { s with uart := { s.uart with rxFifo := rest }, task := .readFifo size (buf ++ [c]) }
  | endRead {size buf} (task : s.task = .readFifo size buf) : Stepped s .turn (s.endRead buf)
  | direct {data written} (task : s.task = .write data written) (direct : s.direct = true) :
    Stepped s .turn { s with task := .writeFifo data written }
  | buffered {data written} (task : s.task = .write data written) :
    Stepped s .turn { s with task := .writeBuffer data written }
  | toFifo {data written} (task : s.task = .writeFifo data written) (more : written < data.length) :
    Stepped s .turn { s with
      uart := { s.uart with txFifo := s.uart.txFifo ++ [data.getD written 0] }
      task := .writeFifo data (written + 1) }
  | fifoWritten {data written} (task : s.task = .writeFifo data written) :
    Stepped s .turn { s with task := .writeBuffer data written }
  | toBuffer {data written buffer d} (task : s.task = .writeBuffer data written) (used : s.uart.txBuffer = some buffer)
    (more : written < data.length) (content : d.toList = buffer.toList ++ [data.getD written 0]) (valid : d.Valid) :
    Stepped s .turn { s with uart := { s.uart with txBuffer := some d }, task := .writeBuffer data (written + 1) }
  | bufferWritten {data written} (task : s.task = .writeBuffer data written) :
    Stepped s .turn { s with task := .check data written }
  | endWrite {data written} (task : s.task = .check data written) : Stepped s .turn (s.endWrite data written)
  | again {data written} (task : s.task = .check data written) : Stepped s .turn { s with task := .write data written }

variable {s t : UartSystem} {e : UartEvent}

lemma turn_cases (sound : s.uart.Sound) (st : s.turn = some t) : Stepped s .turn t := by
  rw [turn] at st
  split at st <;> cases st
  case h_2 size buf task =>
    rw [readBuffer]
    split
    · exact .bufferRead task
    case h_2 buffer used =>
      split
      case isTrue more =>
        have valid := sound.rx buffer used
        have some : buffer.toList ≠ [] := mt valid.isEmpty_iff.mpr (by rw [more.2]; decide)
        obtain ⟨c, rest, content⟩ := exists_cons_of_ne_nil some
        obtain ⟨d, read, valid', -, left⟩ := valid.readChar_cons content
        rw [read]
        exact .fromBuffer task used (left ▸ content) valid'
      case isFalse => exact .bufferRead task
  case h_3 size buf task =>
    rw [readFifo]
    split
    case isTrue more =>
      cases fifo : s.uart.rxFifo with
      | nil =>
        rw [fifo] at more
        exact absurd rfl more.2
      | cons c rest => exact .fromFifo task fifo (fifo ▸ more)
    case isFalse => exact .endRead task
  case h_4 data written task =>
    cases d : s.direct with
    | true => exact .direct task d
    | false => exact .buffered task
  case h_5 data written task =>
    rw [writeFifo]
    split
    case isTrue more => exact .toFifo task more.1
    case isFalse => exact .fifoWritten task
  case h_6 data written task =>
    rw [writeBuffer]
    split
    · exact .bufferWritten task
    case h_2 buffer used =>
      split
      case isTrue more =>
        have valid := sound.tx buffer used
        by_cases room : buffer.toList.length + 1 < buffer.size
        · obtain ⟨d, stored, valid', -, content⟩ := valid.writeChar_room (data.getD written 0) room
          rw [stored]
          exact .toBuffer task used more.1 content valid'
        · rw [valid.writeChar_full _ room] at more
          cases more.2
      case isFalse => exact .bufferWritten task
  case h_7 data written task =>
    rw [check]
    split
    · exact .endWrite task
    · exact .again task

lemma step_cases (sound : s.uart.Sound) (st : s.step e = some t) : Stepped s e t := by
  cases e with
  | arrive c =>
    obtain ⟨-, ⟨⟩⟩ := ite_none_right_eq_some.mp st
    exact .arrive
  | shift =>
    cases fifo : s.uart.txFifo with
    | nil =>
      rw [step, fifo] at st
      cases st
    | cons c rest =>
      rw [step, fifo] at st
      cases st
      exact .shift fifo
  | level pins =>
    cases st
    exact .level
  | interrupt usis =>
    obtain ⟨-, ⟨⟩⟩ := ite_none_right_eq_some.mp st
    exact .interrupt
  | uartRead size =>
    obtain ⟨task, ⟨⟩⟩ := ite_none_right_eq_some.mp st
    rw [uartRead]
    split
    · exact .noRead task
    · exact .uartRead task
  | uartWrite data =>
    obtain ⟨task, ⟨⟩⟩ := ite_none_right_eq_some.mp st
    rw [uartWrite]
    split
    · exact .noWrite task
    · exact .uartWrite task
  | turn => exact turn_cases sound st

lemma step_sound (sound : s.uart.Sound) (st : s.step e = some t) : t.uart.Sound := by
  cases step_cases sound st with
  | interrupt => exact (Uart.handleUartInterrupt_spec sound _).1
  | fromBuffer _ _ _ valid => exact ⟨by rintro b ⟨⟩; exact valid, sound.tx⟩
  | toBuffer _ _ _ _ valid => exact ⟨sound.rx, by rintro b ⟨⟩; exact valid⟩
  | endRead => exact sound.setUsie _
  | endWrite =>
    rw [endWrite]
    split
    · exact sound.setUsie _
    · exact sound
  | _ => exact ⟨sound.rx, sound.tx⟩

end UartSystem

end Sming.System

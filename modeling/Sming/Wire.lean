import Mathlib.Algebra.Group.Nat.Defs
import Sming.Lib.Run
import Sming.Twi

/-!
# The two-wire port

Embedding of `TwoWire` of `Sming/SmingCore/Wire.cpp` on the bus of the software master, and the port it stands for: a
list of bytes to send that is full at 32, a list of bytes to read, and the transfers that a monitor of the bus sees.
-/

namespace Sming.Wire

open List Lib Lib.I2c Twi

def bufferLength : Nat := 32

structure TwoWire where
  rxBuffer : List UInt8 := replicate bufferLength 0
  rxBufferIndex : Nat := 0
  rxBufferLength : Nat := 0
  txAddress : UInt8 := 0
  txBuffer : List UInt8 := replicate bufferLength 0
  txBufferIndex : Nat := 0
  txBufferLength : Nat := 0
  transmitting : Bool := false
  bus : Bus := {}

inductive Call where
  | beginTransmission (address : UInt8)
  | write (data : List UInt8)
  | endTransmission (sendStop : Bool)
  | requestFrom (address : UInt8) (size : Nat) (sendStop : Bool)
  | read
  | flush

namespace TwoWire

variable (w : TwoWire)

/-- (C++ `TwoWire::write(uint8_t)`, without the flag of `setWriteError`.) -/
def write (data : UInt8) : Nat × TwoWire :=
  if w.transmitting then
    if bufferLength ≤ w.txBufferLength then (0, w)
    else
      (1, { w with
        txBuffer := w.txBuffer.set w.txBufferIndex data
        txBufferIndex := w.txBufferIndex + 1
        txBufferLength := w.txBufferIndex + 1 })
  else (1, w)

/-- The loop of `write(const uint8_t*, size_t)`, from `i` on. -/
def writeLoop : Nat → List UInt8 → TwoWire → Nat × TwoWire
  | i, [], w => (i, w)
  | i, x :: data, w =>
    match w.write x with
    | (0, w) => (i, w)
    | (_, w) => writeLoop (i + 1) data w

def endTransmission (d : Device) (sendStop : Bool) : UInt8 × TwoWire :=
  let r := writeTo d w.txAddress (w.txBuffer.take w.txBufferLength) sendStop w.bus
  (r.1, { w with bus := r.2, txBufferIndex := 0, txBufferLength := 0, transmitting := false })

def requestFrom (d : Device) (address : UInt8) (size : Nat) (sendStop : Bool) : Nat × TwoWire :=
  let size := if size > bufferLength then bufferLength else size
  let r := readFrom d address (UInt32.ofNat size) sendStop w.bus
  let read := if r.1 = 0 then size else 0
  (read, { w with
    bus := r.2.2
    rxBuffer := r.2.1 ++ w.rxBuffer.drop r.2.1.length
    rxBufferIndex := 0
    rxBufferLength := read })

def read : Int × TwoWire :=
  if w.rxBufferIndex < w.rxBufferLength then
    ((w.rxBuffer.getD w.rxBufferIndex 0).toNat, { w with rxBufferIndex := w.rxBufferIndex + 1 })
  else (-1, w)

def call (d : Device) : Call → Int × TwoWire
  | .beginTransmission address =>
    (0, { w with transmitting := true, txAddress := address, txBufferIndex := 0, txBufferLength := 0 })
  | .write data => (if w.transmitting then writeLoop 0 data w else (data.length, w)).map Int.ofNat id
  | .endTransmission sendStop => (w.endTransmission d sendStop).map (Int.ofNat ·.toNat) id
  | .requestFrom address size sendStop => (w.requestFrom d address size sendStop).map Int.ofNat id
  | .read => w.read
  | .flush => (0, { w with rxBufferIndex := 0, rxBufferLength := 0, txBufferIndex := 0, txBufferLength := 0 })

end TwoWire

structure Port where
  address : UInt8 := 0
  sending : Bool := false
  outgoing : List UInt8 := []
  incoming : List UInt8 := []
  transfers : List (List Word) := []

/-- A call on the port; a transfer begins in period `p` of the clock. -/
def Port.call (d : Device) (p : Nat) (s : Port) : Call → Int × Port
  | .beginTransmission address => (0, { s with address, sending := true, outgoing := [] })
  | .write data =>
    if s.sending then
      ((min data.length (bufferLength - s.outgoing.length) : Nat), { s with outgoing := (s.outgoing ++ data).take bufferLength })
    else (data.length, s)
  | .endTransmission _ =>
    let ws := sent d p (s.address <<< 1 :: s.outgoing)
    ((code ws).toNat, { s with sending := false, outgoing := [], transfers := s.transfers ++ [ws] })
  | .requestFrom address size _ =>
    let ws := Twi.read d address p (min size bufferLength - 1)
    (ws.tail.length, { s with incoming := ws.tail.map (·.1), transfers := s.transfers ++ [ws] })
  | .read => (s.incoming.head?.elim (-1) fun x => x.toNat, { s with incoming := s.incoming.tail })
  | .flush => (0, { s with outgoing := [], incoming := [] })

def step (d : Device) (s : TwoWire × Port) (c : Call) : Option (TwoWire × Port) :=
  some ((s.1.call d c).2, (s.2.call d s.1.bus.period c).2)

/-- The device keeps to its turns, and something is asked for. -/
def cooperates (d : Device) (s : TwoWire × Port) : Call → Bool
  | .endTransmission _ => listens d s.1.bus.period (s.2.address <<< 1 :: s.2.outgoing)
  | .requestFrom _ size _ => 0 < size && answers d s.1.bus.period (min size bufferLength - 1)
  | _ => true

structure Refines (d : Device) (s : TwoWire × Port) : Prop where
  address : s.2.address = s.1.txAddress
  sending : s.2.sending = s.1.transmitting
  room : s.1.txBuffer.length = bufferLength
  index : s.1.txBufferIndex = s.1.txBufferLength
  outgoing : s.2.outgoing = s.1.txBuffer.take s.1.txBufferLength
  full : s.1.txBufferLength ≤ bufferLength
  rest : s.1.rxBufferIndex ≤ s.1.rxBufferLength
  incoming : s.2.incoming = (s.1.rxBuffer.take s.1.rxBufferLength).drop s.1.rxBufferIndex
  received : s.1.rxBufferLength ≤ s.1.rxBuffer.length
  bus : Rests d s.1.bus s.2.transfers

variable {d : Device} {s : TwoWire × Port} {c : Call}

lemma TwoWire.eta {w : TwoWire} (index : w.txBufferIndex = w.txBufferLength) :
    w = { w with txBufferIndex := w.txBufferLength } := by
  cases w
  cases index
  rfl

lemma TwoWire.writeLoop_spec {w : TwoWire} {i : Nat} {data : List UInt8} (sending : w.transmitting)
    (room : w.txBuffer.length = bufferLength) (index : w.txBufferIndex = w.txBufferLength)
    (full : w.txBufferLength ≤ bufferLength) : ∃ b n,
      writeLoop i data w = (i + min data.length (bufferLength - w.txBufferLength),
        { w with txBuffer := b, txBufferIndex := n, txBufferLength := n }) ∧
      b.length = bufferLength ∧ n ≤ bufferLength ∧
      b.take n = (w.txBuffer.take w.txBufferLength ++ data).take bufferLength := by
  induction data generalizing w i with
  | nil =>
    refine ⟨w.txBuffer, w.txBufferLength, Prod.ext rfl (eta index), room, full, ?_⟩
    rw [append_nil, take_take, Nat.min_eq_right full]
  | cons x data ih =>
    rw [writeLoop, write, if_pos sending]
    by_cases le : bufferLength ≤ w.txBufferLength
    · have e := Nat.le_antisymm full le
      refine ⟨w.txBuffer, w.txBufferLength, ?_, room, full, ?_⟩
      · rw [if_pos le, e, Nat.sub_self, Nat.min_zero, ← e]
        exact Prod.ext rfl (eta index)
      · rw [take_append_of_le_length (by simp [room, e]), take_take, e, Nat.min_self]
    · rw [if_neg le, index]
      obtain ⟨b, n, e, len, le', content⟩ := @ih
        { w with
          txBuffer := w.txBuffer.set w.txBufferLength x
          txBufferIndex := w.txBufferLength + 1
          txBufferLength := w.txBufferLength + 1 } (i + 1) sending (by simp [room]) rfl (by simp; omega)
      refine ⟨b, n, ?_, len, le', ?_⟩
      · simp only [e, length_cons]
        congr 1
        omega
      · rw [content, take_succ_eq_append_getElem (by simp; omega), take_set_of_le (Nat.le_refl _)]
        simp

lemma clamp_eq_min (size : Nat) : (if size > bufferLength then bufferLength else size) = min size bufferLength := by
  split <;> omega

lemma ofNat_sub_one {n : Nat} (lt : n < 32) : (UInt32.ofNat (n + 1) - 1).toNat = n := by
  rw [UInt32.toNat_sub_of_le _ _ (UInt32.le_iff_toNat_le.mpr ?_)] <;> simp <;> omega

lemma Refines.step (clock : ∀ n, d.scl n) (h : Refines d s) (ok : cooperates d s c) :
    Refines d ((s.1.call d c).2, (s.2.call d s.1.bus.period c).2) ∧
      (s.1.call d c).1 = (s.2.call d s.1.bus.period c).1 := by
  cases c with
  | beginTransmission address =>
    exact ⟨⟨rfl, rfl, h.room, rfl, rfl, Nat.zero_le _, h.rest, h.incoming, h.received, h.bus⟩, rfl⟩
  | write data =>
    simp only [TwoWire.call, Port.call, h.sending]
    cases sending : s.1.transmitting with
    | false => exact ⟨h, rfl⟩
    | true =>
      obtain ⟨b, n, e, len, le, content⟩ := @TwoWire.writeLoop_spec s.1 0 data sending h.room h.index h.full
      simp only [if_true, e]
      refine ⟨⟨h.address, sending.symm, len, rfl, ?_, le, h.rest, h.incoming, h.received, h.bus⟩, ?_⟩
      · simp [content, h.outgoing]
      · simp [h.outgoing, h.room, Nat.min_eq_left h.full]
  | endTransmission sendStop =>
    rw [cooperates] at ok
    have ends := writeTo_spec clock sendStop h.bus ok
    rw [h.address, h.outgoing] at ends
    refine ⟨⟨h.address, rfl, h.room, rfl, rfl, Nat.zero_le _, h.rest, h.incoming, h.received, ?_⟩, ?_⟩
    · simp only [Port.call, h.address, h.outgoing]
      exact ends.2
    · simp only [Port.call, h.address, h.outgoing, ← ends.1]
      rfl
  | requestFrom address size sendStop =>
    rw [cooperates, Bool.and_eq_true, decide_eq_true_eq] at ok
    obtain ⟨pos, free⟩ := ok
    have size_eq : bufferLength = 32 := rfl
    obtain ⟨n, least⟩ : ∃ n, min size bufferLength = n + 1 := ⟨min size bufferLength - 1, by omega⟩
    rw [least, Nat.add_sub_cancel] at free
    obtain ⟨answer, stored, bus⟩ := readFrom_spec clock address sendStop h.bus (ofNat_sub_one (by omega)) free
    have counted : (if (readFrom d address (UInt32.ofNat (n + 1)) sendStop s.1.bus).1 = 0 then n + 1 else 0) =
        (Twi.read d address s.1.bus.period n).tail.length := by
      rw [answer, length_tail_read]
      cases d.sda (s.1.bus.period + 9) <;> rfl
    simp only [TwoWire.call, TwoWire.requestFrom, Port.call, clamp_eq_min, least, Nat.add_sub_cancel, counted, stored]
    refine ⟨⟨h.address, h.sending, h.room, h.index, h.outgoing, h.full, Nat.zero_le _, ?_, ?_, bus⟩, rfl⟩
    · simp
    · simp
  | read =>
    simp only [TwoWire.call, TwoWire.read, Port.call, h.incoming, head?_drop, tail_drop]
    split
    case isTrue lt =>
      have received : s.1.rxBufferIndex < s.1.rxBuffer.length := Nat.lt_of_lt_of_le lt h.received
      refine ⟨⟨h.address, h.sending, h.room, h.index, h.outgoing, h.full, lt, rfl, h.received, h.bus⟩, ?_⟩
      simp [lt, received]
    case isFalse ge =>
      have le : (s.1.rxBuffer.take s.1.rxBufferLength).length ≤ s.1.rxBufferIndex := by simp; omega
      refine ⟨⟨h.address, h.sending, h.room, h.index, h.outgoing, h.full, h.rest, ?_, h.received, h.bus⟩, ?_⟩
      · rw [drop_eq_nil_of_le le, drop_eq_nil_of_le (by omega)]
      · rw [getElem?_eq_none le]
        rfl
  | flush => exact ⟨⟨h.address, h.sending, h.room, rfl, rfl, Nat.zero_le _, Nat.le_refl _, rfl, Nat.zero_le _, h.bus⟩, rfl⟩

/-- In every run of calls the port answers as its specification and a monitor sees the transfers that were asked for. -/
theorem wire_refines (clock : ∀ n, d.scl n) (free : d.sda 0) {calls : List Call}
    (run : Run (step d) (cooperates d · ·) ({}, {}) calls s) : Refines d s ∧
      ∀ c, cooperates d s c → (s.1.call d c).1 = (s.2.call d s.1.bus.period c).1 := by
  have kept : Refines d s := by
    refine run.invariant ⟨rfl, rfl, rfl, rfl, rfl, Nat.zero_le _, Nat.le_refl _, rfl, Nat.zero_le _, ?_⟩ ?_
    · exact ⟨rfl, rfl, free, rfl⟩
    · intro t c u h ok st
      cases st
      exact (h.step clock ok).1
  exact ⟨kept, fun c ok => (kept.step clock ok).2⟩

/-- A device that acknowledges its address and one byte. -/
def acknowledging : Device := ⟨fun n => n != 9 && n != 18, fun _ => true⟩

theorem wire_refines_two_bytes : ∃ s, Run (step acknowledging) (cooperates acknowledging · ·) ({}, {})
      [.beginTransmission 8, .write [65, 66], .endTransmission true] s ∧
    s.2.transfers = [[(16, true), (65, true), (66, false)]] ∧ Refines acknowledging s :=
  exists_run (·.2.transfers = [[(16, true), (65, true), (66, false)]]) (by decide +kernel) fun _ run seen =>
    ⟨seen, (wire_refines (fun _ => rfl) rfl run).1⟩

/-- A request that the device acknowledges stays inside the receive buffer exactly if it asks for something: `len - 1`
wraps, and a request for nothing stores 2^32 bytes. -/
theorem requestFrom_in_buffer_iff (clock : ∀ n, d.scl n) {w : TwoWire} {ts : List (List Word)} {address : UInt8}
    {size : Nat} {sendStop : Bool} (rest : Rests d w.bus ts) (room : w.rxBuffer.length = bufferLength)
    (free : answers d w.bus.period (UInt32.ofNat (min size bufferLength) - 1).toNat)
    (acknowledged : d.sda (w.bus.period + 9) = false) :
    ((w.requestFrom d address size sendStop).2.rxBuffer.length = bufferLength ↔ 0 < size) ∧
      (size = 0 → (w.requestFrom d address size sendStop).2.rxBuffer.length = 2 ^ 32) := by
  have stored := congrArg length (readFrom_spec clock address sendStop rest rfl free).2.1
  rw [length_map, length_tail_read, acknowledged, if_neg Bool.false_ne_true] at stored
  simp only [TwoWire.requestFrom, clamp_eq_min, length_append, length_drop, stored, room]
  cases size with
  | zero => exact ⟨iff_of_false (by decide) (by decide), fun _ => rfl⟩
  | succ size =>
    obtain ⟨n, least⟩ : ∃ n, min (size + 1) bufferLength = n + 1 := ⟨min size 31, by simp only [bufferLength]; omega⟩
    have size_eq : bufferLength = 32 := rfl
    rw [least, ofNat_sub_one (by omega)]
    refine ⟨?_, nofun⟩
    omega

theorem requestFrom_in_buffer_iff_one :
    (({} : TwoWire).requestFrom ⟨(· != 9), fun _ => true⟩ 8 1 true).2.rxBuffer.length = bufferLength :=
  (requestFrom_in_buffer_iff (fun _ => rfl) (⟨rfl, rfl, rfl, rfl⟩ : Rests _ _ []) rfl rfl rfl).1.mpr Nat.one_pos

end Sming.Wire

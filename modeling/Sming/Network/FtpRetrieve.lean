import Sming.Lib.Run
import Sming.Network.TcpConnection

/-!
# Sending a file

Embedding of `FTPDataRetrieve` of `Sming/SmingCore/Network/FTPServerConnection.cpp`. Every event that finds room
to send reads the next block of the file and writes it. The answer of `write` is not looked at and the file is
not wound back, so what the send buffer has no room for is never sent: the client gets the file exactly if every
block met enough space.
-/

namespace Sming.Network.Ftp
open Sming.Lib List

def blockSize : Nat := 1024

/-- (C++ `FTPDataRetrieve`.) `handed` are the bytes given to `tcp_write`. -/
structure FTPDataRetrieve where
  content : List UInt8
  pos : Nat := 0
  completed : Bool := false
  written : Nat := 0
  closed : Bool := false
  handed : List UInt8 := []
  deriving DecidableEq

/-- An event of the data connection: whether the control connection lets it transfer (`isCanTransfer`), and
the free bytes of the send buffer. -/
structure ReadyToSend where
  canTransfer : Bool
  available : UInt16
  deriving DecidableEq

namespace FTPDataRetrieve

variable {r t u : FTPDataRetrieve} {e : ReadyToSend}

def block (r : FTPDataRetrieve) : List UInt8 := (r.content.drop r.pos).take blockSize

def finishTransfer (r : FTPDataRetrieve) : FTPDataRetrieve := { r with closed := true }

def transferData (r : FTPDataRetrieve) (available : UInt16) : FTPDataRetrieve :=
  if r.completed then r
  else
    let buf := r.block
    let (_, bytes, _) := TcpConnection.write true buf { sndbuf := [available], sndqueuelen := [] }
    let r := { r with
      pos := r.pos + buf.length
      written := r.written + buf.length
      handed := r.handed ++ bytes }
    -- `fileIsEOF`
    if r.content.length ≤ r.pos then { r with completed := true }.finishTransfer else r

def onReadyToSendData (r : FTPDataRetrieve) (e : ReadyToSend) : FTPDataRetrieve :=
  if e.canTransfer then
    let r := if r.completed && r.written == 0 then r.finishTransfer else r
    r.transferData e.available
  else r

/-- A connection that is closed has no events. -/
def step (r : FTPDataRetrieve) (e : ReadyToSend) : Option FTPDataRetrieve :=
  if r.closed then none else some (r.onReadyToSendData e)

def Ample (r : FTPDataRetrieve) (e : ReadyToSend) : Prop :=
  e.canTransfer = true → r.block.length ≤ e.available.toNat

instance (r : FTPDataRetrieve) (e : ReadyToSend) : Decidable (r.Ample e) := inferInstanceAs (Decidable (_ → _))

/-! ### One event -/

lemma write_handed (data : List UInt8) (available : UInt16) :
    (TcpConnection.write true data { sndbuf := [available], sndqueuelen := [] }).2.1 =
      data.take available.toNat := by
  rw [TcpConnection.write]
  simp only [TcpConnection.getAvailableWriteSize, if_true]
  split
  case isTrue short =>
    split
    case isTrue none => rw [none, take_zero]
    case isFalse => rfl
  case isFalse fits => exact (take_of_length_le (Nat.le_of_not_lt fits)).symm

structure Going (r : FTPDataRetrieve) : Prop where
  completed : r.completed = r.closed
  inside : r.pos ≤ r.content.length
  behind : r.handed.length ≤ r.pos
  whole : r.closed = true → r.pos = r.content.length

inductive Stepped (r : FTPDataRetrieve) (e : ReadyToSend) : FTPDataRetrieve → Prop where
  | skipped :
    e.canTransfer = false →
    Stepped r e r
  | read {u : FTPDataRetrieve} :
    e.canTransfer = true →
    u.content = r.content →
    u.pos = r.pos + r.block.length →
    u.handed = r.handed ++ r.block.take e.available.toNat →
    u.completed = u.closed →
    u.closed = decide (r.content.length ≤ u.pos) →
    Stepped r e u

lemma stepped (going : r.Going) (st : r.step e = some u) : Stepped r e u := by
  obtain ⟨living, st⟩ := Option.ite_none_left_eq_some.mp st
  have running : r.completed = false := going.completed.trans (Bool.not_eq_true _ ▸ living)
  cases st
  cases can : e.canTransfer with
  | false =>
    rw [onReadyToSendData, can]
    exact .skipped can
  | true =>
    rw [onReadyToSendData, can, running]
    simp only [if_true, Bool.false_and, Bool.false_eq_true, if_false]
    rw [transferData, running]
    simp only [Bool.false_eq_true, if_false, write_handed]
    split
    case isTrue eof => exact .read can rfl rfl rfl rfl (decide_eq_true eof).symm
    case isFalse more =>
      have open' : r.closed = false := Bool.not_eq_true _ ▸ living
      exact .read can rfl rfl rfl open'.symm (open'.trans (decide_eq_false more).symm)

lemma block_length (r : FTPDataRetrieve) : r.block.length = min blockSize (r.content.length - r.pos) := by
  rw [block, length_take, length_drop]

lemma Going.step (going : r.Going) (st : r.step e = some u) : u.Going := by
  have did := stepped going st
  cases did with
  | skipped => exact going
  | read _ content pos handed completed closed =>
    have block := r.block_length
    have inside := going.inside
    have behind := going.behind
    refine ⟨completed, ?_, ?_, fun eof => ?_⟩
    · rw [content, pos]
      omega
    · rw [handed, pos, List.length_append, length_take]
      omega
    · rw [closed, decide_eq_true_eq] at eof
      rw [content]
      omega

def Sent (r : FTPDataRetrieve) : Prop := r.handed = r.content.take r.pos

lemma take_pos_add_block (r : FTPDataRetrieve) :
    r.content.take (r.pos + r.block.length) = r.content.take r.pos ++ r.block := by
  rw [take_add, block, length_take, ← take_eq_take_min]

lemma sent_step_iff (going : r.Going) (st : r.step e = some u) : u.Sent ↔ r.Sent ∧ r.Ample e := by
  have did := stepped going st
  cases did with
  | skipped can =>
    exact (and_iff_left fun yes => absurd (can.symm.trans yes) (by decide)).symm
  | read can content pos handed =>
    rw [Sent, handed, content, pos, take_pos_add_block]
    have behind := going.behind
    have inside := going.inside
    constructor
    · intro same
      have length := congrArg List.length same
      rw [List.length_append, List.length_append, length_take, length_take] at length
      have equal : r.handed.length = (r.content.take r.pos).length := by
        rw [length_take]
        omega
      exact ⟨(append_inj same equal).1, fun _ => by omega⟩
    · rintro ⟨sent, ample⟩
      rw [sent, take_of_length_le (ample can)]

lemma performed_le {content : List UInt8} {events : List ReadyToSend} (run : Run step Always { content } events r) :
    r.content = content ∧ r.Going ∧
      (r.closed = false → blockSize * (events.filter ReadyToSend.canTransfer).length ≤ r.pos) := by
  induction run with
  | nil => exact ⟨rfl, ⟨rfl, Nat.zero_le _, Nat.zero_le _, fun h => (by cases h)⟩, fun _ => Nat.zero_le _⟩
  | @snoc events t e u run _ st ih =>
    obtain ⟨same, going, taken⟩ := ih
    have living : t.closed = false := Bool.not_eq_true _ ▸ (Option.ite_none_left_eq_some.mp st).1
    have did := stepped going st
    rw [filter_append]
    refine ⟨?_, going.step st, ?_⟩
    · cases did with
      | skipped => exact same
      | read _ content => exact content.trans same
    · intro open'
      have before := taken living
      cases did with
      | skipped can => simpa [can] using before
      | read can content pos _ _ closed =>
        rw [open', eq_comm, decide_eq_false_iff_not] at closed
        have block := t.block_length
        rw [filter_cons_of_pos can, filter_nil, List.length_append, List.length_singleton, Nat.mul_succ, pos]
        omega

/-- For every file and sequence of events the connection is closed once the file has been read, with the file handed
over exactly if every block met enough space. -/
theorem retrieve_iff_ample {content : List UInt8} {events : List ReadyToSend}
    (run : Run step Always { content } events r) :
    (content.length < blockSize * (events.filter ReadyToSend.canTransfer).length → r.closed = true) ∧
      (r.closed = true → (r.handed = content ↔ Run step Ample { content } events r)) := by
  obtain ⟨same, going, taken⟩ := performed_le run
  constructor
  · intro many
    by_contra living
    have enough := taken (Bool.not_eq_true _ ▸ living)
    have inside := going.inside
    rw [same] at inside
    omega
  · intro closed
    have sent : r.Sent ↔ Run step Ample { content } events r := by
      refine run.iff_guarded rfl fun earlier _ st => ?_
      exact sent_step_iff (performed_le earlier).2.1 st
    rw [← sent, Sent, going.whole closed, take_length, same]

theorem retrieve_iff_ample_fits :
    ∃ r, Run step Always { content := [1, 2, 3] } [⟨false, 0⟩, ⟨true, 3⟩] r ∧ r.closed = true ∧
      r.handed = [1, 2, 3] := by
  obtain ⟨r, run, closed⟩ : ∃ r, exec step Ample { content := [1, 2, 3] } [⟨false, 0⟩, ⟨true, 3⟩] = some r ∧
      r.closed = true := exists_exec (by decide +kernel)
  have ample := exec_run run
  exact ⟨r, ample.always, closed, ((retrieve_iff_ample ample.always).2 closed).mpr ample⟩

/-- The rest of a block that did not fit is lost. -/
theorem retrieve_drops_rest :
    ¬ ∀ (content : List UInt8) (events : List ReadyToSend) (r : FTPDataRetrieve),
      Run step Always { content } events r → r.closed = true → r.handed = content := by
  intro all
  obtain ⟨r, run, closed, handed⟩ : ∃ r, exec step Always { content := [1, 2, 3] } [⟨true, 2⟩] = some r ∧
      r.closed = true ∧ r.handed = [1, 2] := exists_exec (by decide +kernel)
  have same := all _ _ r (exec_run run) closed
  rw [handed] at same
  exact absurd same (by decide)

end FTPDataRetrieve

end Sming.Network.Ftp
